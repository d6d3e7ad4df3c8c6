import Propositional.Expression
import Propositional.Proofs.Grammar.Reading
import Propositional.Proofs.Graph.Unfolding
import Propositional.Proofs.Result

/-!
# Acceptance

Which lists of symbols stand for an expression: those with a derivation that fits into the
budget. The expression is then the layout of the formula derived. The error on every other
list says whether it was empty, too deep or not derivable.
-/

namespace Propositional

open Grammar

/-! ## Formulas -/

/-- What the symbols of a derivation come to depends on its depth only. -/
theorem Formula.ofSymbols_of_derives {s : List Symbol} {f : Formula} {d : Nat}
    (h : Derives .disjunction s f d) :
    Formula.ofSymbols s = if d ≤ depthLimit then .ok f else .error (.grammar .tooDeep) := by
  have hne : s.isEmpty = false := by simpa using h.ne_nil
  have hread : disjunction depthLimit s = within depthLimit d (f, []) := by
    simpa [Rule.read] using h.read (Rule.stops_nil _) depthLimit
  rw [ofSymbols, hne, hread, within]
  by_cases hd : d ≤ depthLimit
  · rw [if_pos hd, if_pos hd]
    rfl
  · rw [if_neg hd, if_neg hd]
    rfl

theorem Formula.derives_of_ofSymbols {s : List Symbol} {f : Formula}
    (h : Formula.ofSymbols s = .ok f) : ∃ d, Derives .disjunction s f d ∧ d ≤ depthLimit := by
  have hderives : ∃ d, Derives .disjunction s f d := by
    rw [ofSymbols] at h
    split at h
    · cases h
    · obtain ⟨⟨g, rest⟩, hread, hcomplete⟩ := bind_eq_ok.1 (mapError_eq_ok.1 h)
      obtain ⟨s', d, rfl, hd⟩ := Rule.sound_read depthLimit .disjunction _ _ _ hread
      cases rest with
      | nil =>
        cases hcomplete
        exact ⟨d, by simpa using hd⟩
      | cons => cases hcomplete
  obtain ⟨d, hd⟩ := hderives
  refine ⟨d, hd, ?_⟩
  rw [ofSymbols_of_derives hd] at h
  split at h
  · assumption
  · cases h

namespace Formula

theorem ofText_eq_ok {text : String} {f : Formula} (h : ofText text = .ok f) :
    ∃ symbols, lex text = .ok symbols ∧ ofSymbols symbols = .ok f := by
  obtain ⟨symbols, hlex, hf⟩ := bind_eq_ok.1 h
  exact ⟨symbols, mapError_eq_ok.1 hlex, hf⟩

theorem ofText_of_lex {text : String} {symbols : List Symbol} (h : lex text = .ok symbols) :
    ofText text = ofSymbols symbols := by
  unfold ofText
  rw [h]
  rfl

/-- A text stands for a formula through a derivation from its symbols. -/
theorem derives_of_ofText {text : String} {f : Formula} (h : ofText text = .ok f) :
    ∃ symbols d, lex text = .ok symbols ∧ Derives .disjunction symbols f d ∧ d ≤ depthLimit := by
  obtain ⟨symbols, hlex, hsymbols⟩ := ofText_eq_ok h
  obtain ⟨d, hd, hlimit⟩ := derives_of_ofSymbols hsymbols
  exact ⟨symbols, d, hlex, hd, hlimit⟩

end Formula

/-! ## Expressions -/

namespace Expression

theorem ofSymbols_eq_ok {s : List Symbol} {e : Expression} (h : ofSymbols s = .ok e) :
    ∃ f, Formula.ofSymbols s = .ok f ∧ e = ofFormula f := by
  obtain ⟨f, hf, rfl⟩ := map_eq_ok.1 h
  exact ⟨f, hf, rfl⟩

theorem ofSymbols_of_error {s : List Symbol} {err : Error}
    (h : Formula.ofSymbols s = .error err) : ofSymbols s = .error err := by
  rw [ofSymbols, h]
  rfl

theorem unfolds_root (f : Formula) : Unfolds (ofFormula f).graph.nodes (ofFormula f).root f :=
  (Graph.lays_add .empty f).unfolds

theorem ofText_eq_ok {text : String} {e : Expression} (h : ofText text = .ok e) :
    ∃ f, Formula.ofText text = .ok f ∧ e = ofFormula f := by
  obtain ⟨f, hf, rfl⟩ := map_eq_ok.1 h
  exact ⟨f, hf, rfl⟩

theorem ofText_of_formula {text : String} {f : Formula} (h : Formula.ofText text = .ok f) :
    ofText text = .ok (ofFormula f) := by
  rw [ofText, h]
  rfl

/-- The form in which reading a given text can be computed. -/
theorem ofText_of_toOption {text : String} {f : Formula}
    (h : (Formula.ofText text).toOption = some f) : ofText text = .ok (ofFormula f) :=
  ofText_of_formula (toOption_eq_some.1 h)

theorem formula_root (f : Formula) : (ofFormula f).graph.formula (ofFormula f).root = f :=
  Graph.formula_eq_of_unfolds (unfolds_root f)

end Expression

end Propositional
