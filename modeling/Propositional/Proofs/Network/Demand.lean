import Propositional.Proofs.Graph.Variables
import Propositional.Proofs.Network.Evaluation
import Propositional.Proofs.Result

/-!
# Demand

The variables that an evaluation asks for, in the order in which it asks: those of the operand
written after a connective before those of the operand written before it. No connective leaves
an operand out, so an evaluation fails as soon as one of them holds no value, and names the first
such one, whatever the others hold.
-/

namespace Propositional

/-- The variables asked for at a node that is the variable `self` if it is one, given what its
children ask for. -/
def Node.demand {g : Graph} (self : Option g.Variable) :
    Node (List g.Variable) → List g.Variable
  | constant _ => []
  | var _ => self.toList
  | negation c => c
  | binary _ lhs rhs => lhs ++ rhs

/-- The variables that the evaluation of a node asks for, in order and with repetitions. -/
def Graph.demand (g : Graph) : g.Id → List g.Variable :=
  g.fold fun i n => n.demand (g.asVariable? i)

/-- The first of some variables that holds no value. -/
def Valuation.firstUnset {g : Graph} (v : Valuation g) (xs : List g.Variable) :
    Option g.Variable :=
  xs.find? fun x => (v.get x.id).isNone

variable {g : Graph} {v : Valuation g} {x : g.Variable}

theorem Valuation.firstUnset_append (v : Valuation g) (xs ys : List g.Variable) :
    v.firstUnset (xs ++ ys) = (v.firstUnset xs).or (v.firstUnset ys) :=
  List.find?_append

namespace Graph

theorem demand_eq (g : Graph) (i : g.Id) :
    g.demand i = ((g.node i).map g.demand).demand (g.asVariable? i) :=
  g.fold_eq _ i

theorem demand_variable (x : g.Variable) : g.demand x.id = [x] := by
  rw [demand_eq, node_of_entry_var x.entry_id, asVariable?_eq_some.2 rfl]
  rfl

theorem variable_reaches {y : g.Variable} : g.Reaches y.id x.id ↔ x = y := by
  unfold Reaches
  rw [Relation.ReflTransGen.cases_head_iff, node_of_entry_var y.entry_id]
  simp only [Node.children, List.not_mem_nil, false_and, exists_false, or_false]
  exact ⟨fun h => (Variable.eq_of_id h).symm, fun h => h ▸ rfl⟩

/-- Any other node reaches a variable by way of a child. -/
theorem reaches_variable {i : g.Id} (h : ∀ label, g.node i ≠ .var label) :
    g.Reaches i x.id ↔ ∃ c ∈ (g.node i).children, g.Reaches c x.id := by
  unfold Reaches
  rw [Relation.ReflTransGen.cases_head_iff, or_iff_right]
  rintro rfl
  exact h x.label (node_of_entry_var x.entry_id)

/-- An evaluation asks for the variables that can be reached and for no others. -/
theorem mem_demand {i : g.Id} : x ∈ g.demand i ↔ g.Reaches i x.id := by
  induction i using node_induction with
  | constant i b hn =>
    rw [reaches_variable (by simp [hn]), demand_eq, hn]
    simp [Node.map, Node.demand, Node.children]
  | var i label hn =>
    let y : g.Variable := ⟨i, label, entry_of_node_var hn⟩
    change x ∈ g.demand y.id ↔ g.Reaches y.id x.id
    rw [demand_variable, List.mem_singleton, variable_reaches]
  | negation i c hn ih =>
    rw [reaches_variable (by simp [hn]), demand_eq, hn]
    simp [Node.map, Node.demand, Node.children, ih]
  | binary i op lhs rhs hn ihl ihr =>
    rw [reaches_variable (by simp [hn]), demand_eq, hn]
    simp [Node.map, Node.demand, Node.children, ihl, ihr]

/-! ## Failing evaluations -/

theorem evaluate_of_firstUnset_none {i : g.Id} (h : v.firstUnset (g.demand i) = none) :
    ∃ b, g.evaluate v i = .ok b := by
  refine evaluate_ok_of_set fun y hy => Option.isSome_iff_exists.1 ?_
  have hset := List.find?_eq_none.1 h y (mem_demand.2 hy)
  simpa [Option.isSome_iff_ne_none] using hset

/-- The variable that an evaluation names is the first one that it asks for in vain. -/
theorem evaluate_of_firstUnset_some {i : g.Id} (h : v.firstUnset (g.demand i) = some x) :
    g.evaluate v i = .error ⟨x.label⟩ := by
  induction i using node_induction with
  | constant i b hn =>
    rw [demand_eq, hn] at h
    cases h
  | var i label hn =>
    let y : g.Variable := ⟨i, label, entry_of_node_var hn⟩
    have hdemand : g.demand i = [y] := demand_variable y
    obtain ⟨hunset, rfl⟩ : v.get i = none ∧ y = x := by
      simpa [hdemand, Valuation.firstUnset, y] using h
    rw [evaluate_eq, hn, hunset]
    rfl
  | negation i c hn ih =>
    rw [demand_eq, hn] at h
    rw [evaluate_eq, hn]
    simp only [Node.map, Node.evaluate, ih h]
    rfl
  | binary i op lhs rhs hn ihl ihr =>
    rw [demand_eq, hn] at h
    rw [evaluate_eq, hn]
    simp only [Node.map, Node.demand, Valuation.firstUnset_append] at h
    rcases Option.or_eq_some_iff.1 h with hl | ⟨hl, hr⟩
    · simp only [Node.map, Node.evaluate, ihl hl]
      rfl
    · obtain ⟨b, hb⟩ := evaluate_of_firstUnset_none hl
      simp only [Node.map, Node.evaluate, hb, ihr hr]
      rfl

/-- Nodes that are evaluated one after the other ask for what each of them asks for. -/
theorem mapM_evaluate_of_firstUnset_none {nodes : List g.Id}
    (h : v.firstUnset (nodes.flatMap g.demand) = none) :
    ∃ bs, nodes.mapM (g.evaluate v) = .ok bs := by
  obtain ⟨bs, hbs, _⟩ : ∃ bs, nodes.mapM (g.evaluate v) = .ok bs ∧ bs.length = nodes.length := by
    refine exists_mapM_eq_ok fun i hi => evaluate_of_firstUnset_none (List.find?_eq_none.2 ?_)
    exact fun x hx => List.find?_eq_none.1 h x (List.mem_flatMap.2 ⟨i, hi, hx⟩)
  exact ⟨bs, hbs⟩

theorem mapM_evaluate_of_firstUnset_some {nodes : List g.Id}
    (h : v.firstUnset (nodes.flatMap g.demand) = some x) :
    nodes.mapM (g.evaluate v) = .error ⟨x.label⟩ := by
  induction nodes with
  | nil => cases h
  | cons i nodes ih =>
    rw [List.flatMap_cons, Valuation.firstUnset_append] at h
    rw [List.mapM_cons]
    rcases Option.or_eq_some_iff.1 h with hi | ⟨hi, hnodes⟩
    · rw [evaluate_of_firstUnset_some hi]
      rfl
    · obtain ⟨b, hb⟩ := evaluate_of_firstUnset_none hi
      rw [hb, ih hnodes]
      rfl

end Graph

end Propositional
