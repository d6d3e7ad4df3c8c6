import Propositional.Proofs.Graph.Variables
import Propositional.Proofs.Network.Evaluation
import Propositional.Proofs.Table.Rows

/-!
# Access by number

What is done with nodes and values that are kept in two arrays and named by numbers only. A
relation holds if all numbers met on the way are those of nodes that are there, and only variables
are set; so it holds of what is done with the nodes of a graph, whose children come before them.
-/

namespace Propositional

/-! ## Evaluation -/

section

variable (nodes : Array (Node Nat)) (cells : Array (Option Bool))

/-- The node of a number is evaluated. The operand at `lhs` comes first, and the other one is left
out if it fails. -/
inductive Evaluates : Nat → Except Unassigned Bool → Prop where
  | constant {i b} : nodes[i]? = some (.constant b) → Evaluates i (.ok b)
  | held {i label b} :
      nodes[i]? = some (.var label) → cells[i]? = some (some b) → Evaluates i (.ok b)
  | unset {i label} :
      nodes[i]? = some (.var label) → cells[i]? = some none → Evaluates i (.error ⟨label⟩)
  | negation {i c result} :
      nodes[i]? = some (.negation c) → Evaluates c result → Evaluates i (result.map (!·))
  | stopped {i op lhs rhs cause} :
      nodes[i]? = some (.binary op lhs rhs) → Evaluates lhs (.error cause) →
      Evaluates i (.error cause)
  | binary {i op lhs rhs l result} :
      nodes[i]? = some (.binary op lhs rhs) → Evaluates lhs (.ok l) → Evaluates rhs result →
      Evaluates i (result.map (op.apply l))

/-- The nodes of some numbers are evaluated in order up to the first that fails. -/
inductive EvaluatesAll : List Nat → Except Unassigned (List Bool) → Prop where
  | nil : EvaluatesAll [] (.ok [])
  | stopped {i indices cause} :
      Evaluates nodes cells i (.error cause) → EvaluatesAll (i :: indices) (.error cause)
  | cons {i indices b result} :
      Evaluates nodes cells i (.ok b) → EvaluatesAll indices result →
      EvaluatesAll (i :: indices) (result.map (b :: ·))

end

variable {g : Graph}

theorem Valuation.getElem?_cells (v : Valuation g) (i : g.Id) :
    v.cells.toArray[i.val]? = some (v.get i) := by
  simp [get]

namespace Graph

theorem evaluates (g : Graph) (v : Valuation g) (i : g.Id) :
    Evaluates g.nodes v.cells.toArray i (g.evaluate v i) := by
  induction i using node_induction with
  | constant i b hn =>
    rw [evaluate_eq, hn]
    exact .constant (getElem?_nodes_of_node hn)
  | var i label hn =>
    have hcell := v.getElem?_cells i
    rw [evaluate_eq, hn]
    cases hv : v.get i with
    | none => exact .unset (getElem?_nodes_of_node hn) (hv ▸ hcell)
    | some b => exact .held (getElem?_nodes_of_node hn) (hv ▸ hcell)
  | negation i c hn ih =>
    have heval : g.evaluate v i = (g.evaluate v c).map (!·) := by
      rw [evaluate_eq, hn]
      rfl
    rw [heval]
    exact .negation (getElem?_nodes_of_node hn) ih
  | binary i op lhs rhs hn ihl ihr =>
    -- the node at `rhs` is looked up only if the one at `lhs` has a value
    cases hl : g.evaluate v lhs with
    | error cause =>
      have heval : g.evaluate v i = .error cause := by
        rw [evaluate_eq, hn]
        simp only [Node.map, Node.evaluate, hl]
        rfl
      rw [heval]
      exact .stopped (getElem?_nodes_of_node hn) (hl ▸ ihl)
    | ok l =>
      have heval : g.evaluate v i = (g.evaluate v rhs).map (op.apply l) := by
        rw [evaluate_eq, hn]
        simp only [Node.map, Node.evaluate, hl]
        rfl
      rw [heval]
      exact .binary (getElem?_nodes_of_node hn) (hl ▸ ihl) ihr

theorem evaluatesAll (g : Graph) (v : Valuation g) (ids : List g.Id) :
    EvaluatesAll g.nodes v.cells.toArray (ids.map (·.val)) (ids.mapM (g.evaluate v)) := by
  induction ids with
  | nil => exact .nil
  | cons i ids ih =>
    have heval := g.evaluates v i
    rw [List.map_cons, List.mapM_cons]
    cases hi : g.evaluate v i with
    | error cause =>
      rw [hi] at heval
      exact .stopped heval
    | ok b =>
      rw [hi] at heval
      exact .cons heval ih

end Graph

/-! ## Setting variables -/

/-- Values are written at numbers of variables one after the other. -/
inductive Sets (nodes : Array (Node Nat)) :
    Array (Option Bool) → List (Nat × Bool) → Array (Option Bool) → Prop where
  | nil {cells} : Sets nodes cells [] cells
  | cons {cells i b pairs cells' label} (hi : i < cells.size) :
      nodes[i]? = some (.var label) → Sets nodes (cells.set i (some b)) pairs cells' →
      Sets nodes cells ((i, b) :: pairs) cells'

theorem Valuation.sets (v : Valuation g) (vars : List g.Variable) (bits : List Bool) :
    Sets g.nodes v.cells.toArray ((vars.map (·.id.val)).zip bits)
      (v.setAll (vars.zip bits)).cells.toArray := by
  induction vars generalizing v bits with
  | nil => exact .nil
  | cons x vars ih =>
    cases bits with
    | nil => exact .nil
    | cons b bits =>
      refine .cons (by simp) ((g.getElem?_nodes x.id).trans (congrArg some x.entry_id)) ?_
      exact ih (v.set x (some b)) bits

end Propositional
