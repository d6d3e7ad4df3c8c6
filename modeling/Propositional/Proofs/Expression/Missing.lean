import Propositional.Proofs.Expression.Assigning
import Propositional.Proofs.Formula.Evaluation

/-!
# Missing values

A node comes to what its formula comes to under the values that its variables hold, errors
included. So an expression has a value exactly if all its variables hold one, and the label that a
failing evaluation names is the one that occurs last in the text among those without a value.
-/

namespace Propositional

/-! ## Nodes and their formulas -/

/-- What a variable with a label holds. -/
def Valuation.lookup {g : Graph} (v : Valuation g) (label : String) : Option Bool :=
  (g.find? label).bind fun x => v.get x.id

theorem agrees_lookup {g : Graph} (hd : Distinct g.nodes) (v : Valuation g) :
    Agrees v v.lookup := by
  intro x
  rw [Valuation.lookup, (Graph.find?_eq_some_iff hd).2 rfl, Option.bind_some]

/-- The outcome of an evaluation depends on the formula of the node and on the values only. -/
theorem Agrees.evaluate {g : Graph} {v : Valuation g} {m : String → Option Bool} (h : Agrees v m)
    (i : g.Id) : g.evaluate v i = (g.formula i).evaluate m := by
  induction i using Graph.node_induction with
  | constant i b hn =>
    rw [Graph.evaluate_eq, Graph.formula_eq, hn]
    rfl
  | var i label hn =>
    have hx : v.get i = m label := h ⟨i, label, Graph.entry_of_node_var hn⟩
    rw [Graph.evaluate_eq, Graph.formula_eq, hn, hx]
    rfl
  | negation i c hn ih =>
    rw [Graph.evaluate_eq, Graph.formula_eq, hn]
    simp only [Node.map, Node.evaluate, Node.toFormula, Formula.evaluate, ih]
    rfl
  | binary i op lhs rhs hn ihl ihr =>
    rw [Graph.evaluate_eq, Graph.formula_eq, hn]
    simp only [Node.map, Node.evaluate, Node.toFormula, Formula.evaluate, ihl, ihr]

/-! ## Occurrences in a text -/

/-- Where the labels among some symbols are divided, the symbols are. -/
theorem Symbol.exists_split {s : List Symbol} {before after : List String} {label : String}
    (h : s.filterMap Symbol.label? = before ++ label :: after) :
    ∃ s₁ s₂, s = s₁ ++ ⟨.var, label⟩ :: s₂ ∧ s₂.filterMap Symbol.label? = after := by
  obtain ⟨s₁, t, rfl, -, ht⟩ := List.filterMap_eq_append_iff.1 h
  obtain ⟨others, x, s₂, rfl, -, hlabel, hafter⟩ := List.filterMap_eq_cons_iff.1 ht
  obtain rfl := Symbol.label?_eq_some.1 hlabel
  exact ⟨s₁ ++ others, s₂, (List.append_assoc _ _ _).symm, hafter⟩

namespace Expression

variable {f : Formula} {v : Valuation (ofFormula f).graph}

theorem exists_mem_vars {label : String} (h : label ∈ f.labels) :
    ∃ x ∈ (ofFormula f).vars, x.label = label :=
  List.mem_map.1 (mem_labels_ofFormula.2 h)

theorem value_withValues (f : Formula) (v : Valuation (ofFormula f).graph) :
    ((ofFormula f).withValues v).value = f.evaluate v.lookup := by
  have hvalue := (agrees_lookup (distinct_ofFormula f) v).evaluate (ofFormula f).root
  rwa [formula_root] at hvalue

theorem covers_lookup :
    f.Covers v.lookup ↔ ∀ x ∈ (ofFormula f).vars, (v.get x.id).isSome := by
  have hv := agrees_lookup (distinct_ofFormula f) v
  constructor
  · intro h x _
    rw [hv x]
    exact h x.label (label_mem_labels x)
  · intro h label hl
    obtain ⟨x, hx, rfl⟩ := exists_mem_vars hl
    rw [← hv x]
    exact h x hx

/-- Whatever values the variables of an expression hold, it cannot be evaluated as soon as one of
them holds none, and the label that the error names is the last one in the text of a variable that
holds none. -/
theorem value_names_last_unset {text : String} {e : Expression} (he : ofText text = .ok e)
    (v : Valuation e.graph) :
    ((∃ cause, (e.withValues v).value = .error cause) ↔ ∃ x ∈ e.vars, v.get x.id = none) ∧
    ∀ cause, (e.withValues v).value = .error cause →
      ∃ before after, lex text = .ok (before ++ ⟨.var, cause.label⟩ :: after) ∧
        (∃ x ∈ e.vars, x.label = cause.label ∧ v.get x.id = none) ∧
        ∀ x ∈ e.vars, ⟨.var, x.label⟩ ∈ after → (v.get x.id).isSome := by
  obtain ⟨f, hf, rfl⟩ := ofText_eq_ok he
  obtain ⟨symbols, d, hlex, hd, _⟩ := Formula.derives_of_ofText hf
  have hv := agrees_lookup (distinct_ofFormula f) v
  rw [value_withValues]
  constructor
  · have hok : (∃ b, f.evaluate v.lookup = .ok b) ↔ _ :=
      Formula.exists_evaluate_eq_ok.trans covers_lookup
    have hor : (∃ cause, f.evaluate v.lookup = .error cause) ↔
        ¬ ∃ b, f.evaluate v.lookup = .ok b := by
      cases f.evaluate v.lookup <;> simp
    rw [hor, hok]
    simp
  · intro cause hcause
    obtain ⟨before, after, hlabels, hunset, hset⟩ := Formula.lastMissing_of_evaluate hcause
    obtain ⟨s₁, s₂, rfl, rfl⟩ := Symbol.exists_split (hd.labels_eq.trans hlabels)
    refine ⟨s₁, s₂, hlex, ?_, ?_⟩
    · have hoccurs : cause.label ∈ f.labels := by simp [hlabels]
      obtain ⟨x, hx, hlabel⟩ := exists_mem_vars hoccurs
      refine ⟨x, hx, hlabel, ?_⟩
      rw [hv x, hlabel, hunset]
    · intro x _ hmem
      rw [hv x]
      exact hset _ (List.mem_filterMap.2 ⟨_, hmem, rfl⟩)

/-- `A` and `B` hold no value, `C` does, and what `B` is an operand of has a constant beside it. -/
theorem value_names_last_unset_constant :
    let e := ofFormula (.binary .and (.binary .or (.var "B") (.var "A"))
      (.binary .implies (.var "C") (.binary .or (.var "B") (.constant true))))
    let v := (e.graph.find? "C").elim (.unset e.graph) fun x => e.values.set x (some true)
    ofText "(B | A) & (C > (B | 1))" = .ok e ∧ (∃ x ∈ e.vars, v.get x.id = none) ∧
      (e.withValues v).value = .error ⟨"B"⟩ ∧
      ∃ before after, lex "(B | A) & (C > (B | 1))" = .ok (before ++ ⟨.var, "B"⟩ :: after) ∧
        ∀ x ∈ e.vars, ⟨.var, x.label⟩ ∈ after → (v.get x.id).isSome := by
  intro e v
  have he : ofText "(B | A) & (C > (B | 1))" = .ok e := ofText_of_toOption (by decide +kernel)
  have hvalue : (e.withValues v).value = .error ⟨"B"⟩ := by decide +kernel
  obtain ⟨hfails, hnames⟩ := value_names_last_unset he v
  obtain ⟨before, after, hlex, _, hset⟩ := hnames ⟨"B"⟩ hvalue
  exact ⟨he, hfails.1 ⟨_, hvalue⟩, hvalue, before, after, hlex, hset⟩

end Expression

end Propositional
