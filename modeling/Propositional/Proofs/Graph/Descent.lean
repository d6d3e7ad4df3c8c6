import Mathlib.Data.List.Chain
import Propositional.Proofs.Formula.Parts
import Propositional.Proofs.Network.Evaluation

/-!
# Descent

Values and written forms computed from nodes that are named by numbers only, by visits that each
start one for every child. A descent gives up where a number names no node and where more visits
would nest than it is allowed, so to have a result means that neither happens. It needs no more
nested visits than the formula of a node is high, and this is no more than the nodes up to it.
-/

namespace Propositional

/-! ## Heights -/

/-- How many places lie on the longest way down a formula. -/
def Formula.height : Formula → Nat
  | constant _ | var _ => 1
  | negation f => f.height + 1
  | binary _ left right => max left.height right.height + 1

theorem Formula.height_pos (f : Formula) : 0 < f.height := by
  cases f <;> simp [height]

theorem Formula.Part.height_le {f g : Formula} (h : Part g f) : g.height ≤ f.height := by
  induction h with
  | refl => exact Nat.le_refl _
  | negation _ ih | left _ ih | right _ ih =>
    simp only [Formula.height]
    omega

namespace Graph

variable {g : Graph} {i c : g.Id}

/-- Every step down to a child makes the formula less high. -/
theorem height_lt_of_mem_children (hc : c ∈ (g.node i).children) :
    (g.formula c).height < (g.formula i).height := by
  rw [g.formula_eq i]
  cases hn : g.node i <;> simp [hn, Node.children] at hc <;>
    simp only [Node.map, Node.toFormula, Formula.height]
  case negation =>
    simp [hc]
  case binary =>
    rcases hc with rfl | rfl <;> omega

theorem height_le_of_children {k : Nat} (hk : 0 < k)
    (h : ∀ c ∈ (g.node i).children, (g.formula c).height < k) : (g.formula i).height ≤ k := by
  rw [g.formula_eq i]
  cases hn : g.node i <;> simp [hn, Node.children] at h <;>
    simp only [Node.map, Node.toFormula, Formula.height] <;> omega

/-- Children come first, so there are no more nodes below one another than there are nodes. -/
theorem height_formula_le (i : g.Id) : (g.formula i).height ≤ i + 1 := by
  induction i using Graph.induction with
  | step i ih =>
    refine height_le_of_children (Nat.succ_pos _) fun c hc => ?_
    have hlt : c.val < i.val := lt_of_mem_children hc
    have := ih c hc
    omega

/-- No way down from a node is longer than its formula is high. -/
theorem length_le_height {path : List g.Id}
    (h : (i :: path).IsChain fun p c => c ∈ (g.node p).children) :
    (i :: path).length ≤ (g.formula i).height := by
  induction path generalizing i with
  | nil => exact Formula.height_pos _
  | cons c path ih =>
    obtain ⟨hc, hpath⟩ := List.isChain_cons_cons.1 h
    exact Nat.lt_of_le_of_lt (ih hpath) (height_lt_of_mem_children hc)

end Graph

/-! ## Visits that nest -/

variable {α ι κ : Type}

/-- A node with what is found for its children, if something is found for all of them. -/
def Node.collect (find? : ι → Option α) : Node ι → Option (Node α)
  | constant b => some (.constant b)
  | var label => some (.var label)
  | negation c => (find? c).map .negation
  | binary op lhs rhs => (find? lhs).bind fun l => (find? rhs).map (.binary op l)

/-- What the node of a number comes to if no more than `depth` visits nest, where `combine` says
what a node comes to given its children. -/
def visit (nodes : Array (Node Nat)) (combine : Nat → Node α → α) : (depth : Nat) → Nat → Option α
  | 0, _ => none
  | depth + 1, i =>
    nodes[i]?.bind fun node => (node.collect (visit nodes combine depth)).map (combine i)

theorem Node.collect_map {find? : κ → Option α} {f : ι → κ} {found : ι → α} {n : Node ι}
    (h : ∀ c ∈ n.children, find? (f c) = some (found c)) :
    (n.map f).collect find? = some (n.map found) := by
  cases n <;> simp_all [map, collect, children]

/-- As many nested visits as the formula of a node is high are enough. -/
theorem Graph.visit_eq_fold (g : Graph) {combine : Nat → Node α → α} {depth : Nat} {i : g.Id}
    (h : (g.formula i).height ≤ depth) :
    visit g.nodes combine depth i = some (g.fold (fun j => combine j) i) := by
  induction i using Graph.induction generalizing depth with
  | step i ih =>
    obtain ⟨depth, rfl⟩ := Nat.exists_eq_add_of_le' (Nat.le_trans (Formula.height_pos _) h)
    have hchildren : ∀ c ∈ (g.node i).children,
        visit g.nodes combine depth c = some (g.fold (fun j => combine j) c) := by
      intro c hc
      have := height_lt_of_mem_children hc
      exact ih c hc (by omega)
    rw [fold_eq, visit, g.getElem?_nodes, ← g.map_val_node, Option.bind_some,
      Node.collect_map hchildren, Option.map_some]

/-! ## Values and written forms -/

/-- The value of the node of a number. -/
def evaluateWithin (nodes : Array (Node Nat)) (cells : Array (Option Bool)) :
    (depth : Nat) → Nat → Option (Except Unassigned Bool) :=
  visit nodes fun i node => node.evaluate cells[i]?.join

/-- What is written for a node, with what decides on parentheses around it. -/
structure Written where
  text : String
  strength : Nat
  isLeaf : Bool

def Node.write : Node Written → Written
  | constant b => ⟨if b then "1" else "0", 3, true⟩
  | var label => ⟨label, 3, true⟩
  | negation c => ⟨"~" ++ Formula.parenthesize (!c.isLeaf) c.text, 3, false⟩
  | binary op after before =>
    ⟨Formula.parenthesize (before.strength ≤ op.strength) before.text ++ " " ++ op.glyph ++ " " ++
      Formula.parenthesize (after.strength < op.strength) after.text, op.strength, false⟩

/-- The written form of the node of a number. -/
def renderWithin (nodes : Array (Node Nat)) (depth i : Nat) : Option String :=
  (visit nodes (fun _ => Node.write) depth i).map (·.text)

namespace Graph

variable {g : Graph}

theorem evaluateWithin_eq (v : Valuation g) {depth : Nat} {i : g.Id}
    (h : (g.formula i).height ≤ depth) :
    evaluateWithin g.nodes v.cells.toArray depth i = some (g.evaluate v i) := by
  have hcells : (fun (j : g.Id) (node : Node (Except Unassigned Bool)) =>
      node.evaluate v.cells.toArray[j.val]?.join) = fun j node => node.evaluate (v.get j) := by
    simp [Valuation.get]
  rw [evaluateWithin, g.visit_eq_fold h, hcells]
  rfl

/-- A written form is put together from those of the children. -/
theorem fold_write (i : g.Id) :
    g.fold (fun _ => Node.write) i =
      ⟨(g.formula i).render, (g.formula i).strength, (g.formula i).isLeaf⟩ := by
  induction i using node_induction with
  | constant i b hn | var i b hn =>
    rw [fold_eq, formula_eq, hn]
    rfl
  | negation i c hn ih =>
    rw [fold_eq, formula_eq, hn, Node.map, ih]
    rfl
  | binary i op lhs rhs hn ihl ihr =>
    rw [fold_eq, formula_eq, hn, Node.map, ihl, ihr]
    rfl

theorem renderWithin_eq {depth : Nat} {i : g.Id} (h : (g.formula i).height ≤ depth) :
    renderWithin g.nodes depth i = some (g.formula i).render := by
  rw [renderWithin, g.visit_eq_fold h, fold_write, Option.map_some]

end Graph

end Propositional
