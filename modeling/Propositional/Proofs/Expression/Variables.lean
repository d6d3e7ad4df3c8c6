import Propositional.Proofs.Expression.Runs
import Propositional.Proofs.Expression.Structure

/-!
# Variables of expressions

The variables of an expression that was read are a table of the labels that occur: one entry for
each label, in the order of first occurrence, and found by it. To assign to a label changes what
its entry holds and nothing else.
-/

namespace Propositional

/-! ## Variables by label -/

theorem Symbol.mem_filterMap_label? {s : List Symbol} {label : String} :
    label ∈ s.filterMap Symbol.label? ↔ ⟨.var, label⟩ ∈ s := by
  simp only [List.mem_filterMap, Symbol.label?_eq_some, exists_eq_right]

namespace Graph

variable {g : Graph} {label : String}

theorem pairwise_lt_vars (g : Graph) : (g.vars.map (·.id)).Pairwise (· < ·) := by
  rw [List.pairwise_map]
  refine (List.pairwise_lt_finRange g.size).filterMap _ fun i j hlt x hx y hy => ?_
  rw [asVariable?_eq_some.1 hx, asVariable?_eq_some.1 hy]
  exact hlt

theorem exists_variable_iff {i : g.Id} :
    (∃ x : g.Variable, x.id = i ∧ x.label = label) ↔ g.node i = .var label := by
  constructor
  · rintro ⟨x, rfl, rfl⟩
    exact node_of_entry_var x.entry_id
  · intro hi
    exact ⟨⟨i, label, entry_of_node_var hi⟩, rfl, rfl⟩

/-- A label is looked up among all nodes, but only the variables need to be gone through. -/
theorem find?_eq_find?_vars (hd : Distinct g.nodes) (label : String) :
    g.find? label = g.vars.find? (·.label = label) := by
  refine Option.ext fun x => ?_
  rw [find?_eq_some_iff hd]
  constructor
  · intro hx
    obtain ⟨y, hy⟩ : ∃ y, g.vars.find? (·.label = label) = some y :=
      Option.isSome_iff_exists.1 (List.find?_isSome.2 ⟨x, mem_vars x, by simpa using hx⟩)
    have hlabel : y.label = label := by simpa using List.find?_some hy
    rw [hy, Variable.eq_of_label hd (hlabel.trans hx.symm)]
  · intro hx
    simpa using List.find?_some hx

theorem isSome_find? : (g.find? label).isSome ↔ label ∈ g.vars.map (·.label) := by
  rw [List.mem_map]
  constructor
  · intro h
    obtain ⟨x, hx⟩ := Option.isSome_iff_exists.1 h
    exact ⟨x, mem_vars x, label_of_find? hx⟩
  · rintro ⟨x, -, rfl⟩
    rw [Option.isSome_iff_ne_none]
    intro hnone
    refine find?_eq_none hnone x.id ?_
    rw [g.getElem?_nodes, x.entry_id]

end Graph

/-! ## Expressions that were read -/

namespace Expression

variable {f : Formula} {label : String}

/-- The node of a label is the one that the label is looked up as. -/
theorem find?_ofFormula {i : (ofFormula f).graph.Id} :
    ((ofFormula f).graph.find? label).map (·.id) = some i ↔
      (ofFormula f).graph.node i = .var label := by
  rw [← Graph.exists_variable_iff, Option.map_eq_some_iff]
  simp only [Graph.find?_eq_some_iff (distinct_ofFormula f), and_comm]

theorem isSome_assign? {e : Expression} {b : Bool} :
    (e.assign? label b).isSome ↔ label ∈ e.labels := by
  rw [assign?, Option.isSome_map]
  exact Graph.isSome_find?

/-- To assign to a label that occurs changes what its node holds and nothing else. -/
theorem assign?_withValues {e e' : Expression} {v : Valuation e.graph} {b : Bool}
    (h : (e.withValues v).assign? label b = some e') :
    ∃ i w, e.graph.node i = .var label ∧ e' = e.withValues w ∧ w.get i = some b ∧
      ∀ j, j ≠ i → w.get j = v.get j := by
  obtain ⟨x, hx, rfl⟩ : ∃ x : e.graph.Variable, e.graph.find? label = some x ∧
      e.withValues (v.set x (some b)) = e' := Option.map_eq_some_iff.1 h
  obtain rfl := Graph.label_of_find? hx
  refine ⟨x.id, v.set x (some b), Graph.node_of_entry_var x.entry_id, rfl, ?_, ?_⟩
  · rw [Valuation.get_set, if_pos rfl]
  · intro j hj
    rw [Valuation.get_set, if_neg hj]

/-- The variables of an expression that was read are the labels among its symbols, each once and in
the order of first occurrence, at nodes in the order of creation. No label has a second node, no
other node is a variable, and to go through the variables for a label finds its node. So a label
can be assigned exactly if it occurs, whatever values are held, and only its own node changes. -/
theorem ofSymbols_variables {s : List Symbol} {e : Expression} (h : ofSymbols s = .ok e) :
    e.labels = (s.filterMap Symbol.label?).eraseDups ∧
    (e.vars.map (·.id)).Pairwise (· < ·) ∧
    (∀ label, ⟨.var, label⟩ ∈ s → ∃! i, e.graph.node i = .var label) ∧
    (∀ i label, e.graph.node i = .var label →
      ⟨.var, label⟩ ∈ s ∧ ∃ x ∈ e.vars, x.id = i ∧ x.label = label) ∧
    (∀ label, e.graph.find? label = e.vars.find? (·.label = label) ∧
      ((e.graph.find? label).isSome ↔ ⟨.var, label⟩ ∈ s) ∧
      ∀ i, (e.graph.find? label).map (·.id) = some i ↔ e.graph.node i = .var label) ∧
    ∀ (v : Valuation e.graph) (label : String) (b : Bool),
      (((e.withValues v).assign? label b).isSome ↔ ⟨.var, label⟩ ∈ s) ∧
      ∀ e', (e.withValues v).assign? label b = some e' →
        ∃ i w, e.graph.node i = .var label ∧ e' = e.withValues w ∧ w.get i = some b ∧
          ∀ j, j ≠ i → w.get j = v.get j := by
  obtain ⟨f, hf, rfl⟩ := ofSymbols_eq_ok h
  obtain ⟨d, hd, _⟩ := Formula.derives_of_ofSymbols hf
  have hoccurs : ∀ label, label ∈ (ofFormula f).labels ↔ ⟨.var, label⟩ ∈ s := by
    intro label
    rw [mem_labels_ofFormula, ← hd.labels_eq, Symbol.mem_filterMap_label?]
  have hfound : ∀ label, ((ofFormula f).graph.find? label).isSome ↔ ⟨.var, label⟩ ∈ s :=
    fun label => Graph.isSome_find?.trans (hoccurs label)
  refine ⟨?_, Graph.pairwise_lt_vars _, ?_, ?_, ?_, ?_⟩
  · rw [hd.labels_eq, labels_ofFormula]
  · intro label hlabel
    obtain ⟨x, hx⟩ := Option.isSome_iff_exists.1 ((hfound label).2 hlabel)
    refine ⟨x.id, find?_ofFormula.1 (congrArg _ hx), fun j hj => ?_⟩
    have hj : ((ofFormula f).graph.find? label).map (·.id) = some j := find?_ofFormula.2 hj
    rw [hx] at hj
    exact (Option.some.inj hj).symm
  · intro i label hi
    obtain ⟨x, hid, hlabel⟩ := Graph.exists_variable_iff.2 hi
    refine ⟨(hoccurs label).1 ?_, x, Graph.mem_vars x, hid, hlabel⟩
    rw [← hlabel]
    exact List.mem_map_of_mem (Graph.mem_vars x)
  · intro label
    exact ⟨Graph.find?_eq_find?_vars (distinct_ofFormula f) label, hfound label,
      fun _ => find?_ofFormula⟩
  · intro v label b
    exact ⟨isSome_assign?.trans (hoccurs label), fun e' => assign?_withValues⟩

/-- In `(q ⇒ p) ∨ q` the operand written first is stored last, and `q` is used again. -/
theorem ofSymbols_variables_shared :
    let s : List Symbol := [⟨.openParen, "("⟩, ⟨.var, "q"⟩, ⟨.implies, "⇒"⟩, ⟨.var, "p"⟩,
      ⟨.closeParen, ")"⟩, ⟨.or, "∨"⟩, ⟨.var, "q"⟩]
    ∃ e, ofSymbols s = .ok e ∧ e.labels = ["q", "p"] ∧
      ∃ i, e.graph.node i = .var "q" ∧ (e.graph.find? "q").map (·.id) = some i := by
  intro s
  have h : ofSymbols s = .ok (ofFormula
      (.binary .or (.binary .implies (.var "q") (.var "p")) (.var "q"))) := rfl
  obtain ⟨hlabels, _, hnode, _, hfind, _⟩ := ofSymbols_variables h
  obtain ⟨i, hi, _⟩ := hnode "q" (by decide)
  exact ⟨_, h, hlabels.trans (by decide), i, hi, ((hfind "q").2.2 i).2 hi⟩

end Expression

end Propositional
