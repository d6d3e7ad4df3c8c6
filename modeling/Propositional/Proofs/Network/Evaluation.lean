import Mathlib.Logic.Relation
import Propositional.Network
import Propositional.Proofs.Graph.Unfolding

/-!
# Evaluation

The value of a node depends on the variables that can be reached from it. If all of them
hold a value the node has one, and it is the truth value of the formula that the node stands
for, provided that the variables of a label hold the same.
-/

namespace Propositional.Graph

variable {g : Graph}

/-! ## Reachable nodes -/

/-- The nodes that are met on the way down from a node, itself included. -/
def Reaches (g : Graph) : g.Id → g.Id → Prop :=
  Relation.ReflTransGen fun i c => c ∈ (g.node i).children

theorem Reaches.refl (i : g.Id) : g.Reaches i i :=
  Relation.ReflTransGen.refl

theorem Reaches.of_child {i c j : g.Id} (hc : c ∈ (g.node i).children) (h : g.Reaches c j) :
    g.Reaches i j :=
  Relation.ReflTransGen.head hc h

section

variable {i j c lhs rhs : g.Id} {op : Connective}

theorem Reaches.of_negation (hn : g.node i = .negation c) (h : g.Reaches c j) : g.Reaches i j :=
  .of_child (by simp [hn, Node.children]) h

theorem Reaches.of_lhs (hn : g.node i = .binary op lhs rhs) (h : g.Reaches lhs j) :
    g.Reaches i j :=
  .of_child (by simp [hn, Node.children]) h

theorem Reaches.of_rhs (hn : g.node i = .binary op lhs rhs) (h : g.Reaches rhs j) :
    g.Reaches i j :=
  .of_child (by simp [hn, Node.children]) h

end

theorem entry_of_node_var {i : g.Id} {label : String} (h : g.node i = .var label) :
    g.entry i = .var label := by
  rw [← g.map_val_node i, h]
  rfl

theorem node_of_entry_var {i : g.Id} {label : String} (h : g.entry i = .var label) :
    g.node i = .var label := by
  rw [← g.map_val_node i] at h
  cases hn : g.node i <;> simp_all [Node.map]

/-- Every label of the formula of a node is that of a variable that can be reached. -/
theorem exists_reachable_of_mem_labels {i : g.Id} {label : String}
    (h : label ∈ (g.formula i).labels) :
    ∃ x : g.Variable, g.Reaches i x.id ∧ x.label = label := by
  induction i using node_induction with
  | constant i b hn => simp [formula_eq, hn, Node.map, Node.toFormula, Formula.labels] at h
  | var i name hn =>
    obtain rfl : label = name := by
      simpa [formula_eq, hn, Node.map, Node.toFormula, Formula.labels] using h
    exact ⟨⟨i, label, entry_of_node_var hn⟩, .refl i, rfl⟩
  | negation i c hn ih =>
    rw [formula_eq, hn] at h
    obtain ⟨x, hx, hlabel⟩ := ih h
    exact ⟨x, .of_negation hn hx, hlabel⟩
  | binary i op lhs rhs hn ihl ihr =>
    rw [formula_eq, hn] at h
    rcases List.mem_append.1 h with h | h
    · obtain ⟨x, hx, hlabel⟩ := ihr h
      exact ⟨x, .of_rhs hn hx, hlabel⟩
    · obtain ⟨x, hx, hlabel⟩ := ihl h
      exact ⟨x, .of_lhs hn hx, hlabel⟩

/-! ## Values -/

theorem evaluate_eq (g : Graph) (v : Valuation g) (i : g.Id) :
    g.evaluate v i = ((g.node i).map (g.evaluate v)).evaluate (v.get i) :=
  g.fold_eq _ i

/-- A node has a value as soon as all variables that it needs have one. -/
theorem evaluate_ok_of_set {v : Valuation g} {i : g.Id}
    (h : ∀ x : g.Variable, g.Reaches i x.id → ∃ b, v.get x.id = some b) :
    ∃ b, g.evaluate v i = .ok b := by
  induction i using node_induction with
  | constant i b hn =>
    refine ⟨b, ?_⟩
    rw [evaluate_eq, hn]
    rfl
  | var i label hn =>
    obtain ⟨b, hb⟩ := h ⟨i, label, entry_of_node_var hn⟩ (.refl i)
    refine ⟨b, ?_⟩
    simp [evaluate_eq, hn, Node.map, Node.evaluate, hb]
  | negation i c hn ih =>
    obtain ⟨b, hb⟩ := ih fun x hx => h x (.of_negation hn hx)
    refine ⟨!b, ?_⟩
    simp only [evaluate_eq g v i, hn, Node.map, Node.evaluate, hb]
    rfl
  | binary i op lhs rhs hn ihl ihr =>
    obtain ⟨b, hb⟩ := ihl fun x hx => h x (.of_lhs hn hx)
    obtain ⟨b', hb'⟩ := ihr fun x hx => h x (.of_rhs hn hx)
    refine ⟨op.apply b b', ?_⟩
    simp only [evaluate_eq g v i, hn, Node.map, Node.evaluate, hb, hb']
    rfl

/-- The value of a node is that of its formula, if the variables it needs hold what the
formula gives their labels. -/
theorem evaluate_eq_value {v : Valuation g} {ρ : String → Bool} {i : g.Id}
    (h : ∀ x : g.Variable, g.Reaches i x.id → v.get x.id = some (ρ x.label)) :
    g.evaluate v i = .ok ((g.formula i).value ρ) := by
  induction i using node_induction with
  | constant i b hn =>
    rw [evaluate_eq, formula_eq, hn]
    rfl
  | var i label hn =>
    have hx := h ⟨i, label, entry_of_node_var hn⟩ (.refl i)
    simp [evaluate_eq, formula_eq, hn, Node.map, Node.evaluate, hx, Node.toFormula, Formula.value]
  | negation i c hn ih =>
    have hvalue := ih fun x hx => h x (.of_negation hn hx)
    simp only [evaluate_eq g v i, formula_eq g i, hn, Node.map, Node.evaluate, hvalue]
    rfl
  | binary i op lhs rhs hn ihl ihr =>
    have hlhs := ihl fun x hx => h x (.of_lhs hn hx)
    have hrhs := ihr fun x hx => h x (.of_rhs hn hx)
    simp only [evaluate_eq g v i, formula_eq g i, hn, Node.map, Node.evaluate, hlhs, hrhs,
      Node.toFormula, Formula.value_binary]
    rfl

end Propositional.Graph
