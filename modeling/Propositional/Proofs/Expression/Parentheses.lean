import Propositional.Proofs.Expression.RoundTrip
import Propositional.Proofs.Grammar.Parentheses

/-!
# Parentheses in written forms

The written form of an expression keeps from the text those parentheses without which it would be
read differently, and no others.
-/

namespace Propositional

open Grammar

namespace Expression

theorem ofFormula_injective {f g : Formula} (h : ofFormula f = ofFormula g) : f = g := by
  have hroot := congrArg (fun e : Expression => e.graph.formula e.root) h
  simpa only [formula_root] using hroot

/-- Symbols that are read as the expression of a formula have no fewer pairs of parentheses than
those that are written for it. -/
theorem pairs_le_of_ofSymbols {s : List Symbol} {f : Formula}
    (h : ofSymbols s = .ok (ofFormula f)) : pairs f.symbols ≤ pairs s := by
  obtain ⟨g, hg, heq⟩ := ofSymbols_eq_ok h
  obtain ⟨d, hd, _⟩ := Formula.derives_of_ofSymbols hg
  rw [ofFormula_injective heq]
  exact hd.pairs_le

/-- What is written for an expression that was read has the tokens and labels of the text without
some pairs of parentheses. As soon as one more pair is left out, the symbols cannot be read or are
read as another expression. -/
theorem text_trims {text : String} {e : Expression} (h : ofText text = .ok e) :
    ∃ symbols written, lex text = .ok symbols ∧ lex e.text = .ok written ∧
      Trims symbols written ∧ ∀ fewer, Unwraps written fewer → ofSymbols fewer ≠ .ok e := by
  obtain ⟨f, hf, rfl⟩ := ofText_eq_ok h
  obtain ⟨symbols, d, hlex, hd, _⟩ := Formula.derives_of_ofText hf
  have htext : (ofFormula f).text = f.render := congrArg Formula.render (formula_root f)
  have hwritten : lex f.render = .ok f.symbols :=
    Formula.lex_render fun _ => Formula.isName_of_ofText hf
  refine ⟨symbols, f.symbols, hlex, htext ▸ hwritten, hd.trims_written, ?_⟩
  intro fewer hfewer hread
  -- one pair less than written is fewer than any symbols for the formula have
  have hpairs := hfewer.pairs_eq
  have hleast := pairs_le_of_ofSymbols hread
  omega

/-- Of five pairs of parentheses the one around the disjunction is kept. -/
theorem text_trims_kept :
    let text := "((A | (B & C)) & (~(D)))"
    let inner : List Symbol := [⟨.var, "A"⟩, ⟨.or, "∨"⟩, ⟨.var, "B"⟩, ⟨.and, "∧"⟩, ⟨.var, "C"⟩]
    let after : List Symbol := [⟨.and, "∧"⟩, ⟨.not, "~"⟩, ⟨.var, "D"⟩]
    let written : List Symbol := ⟨.openParen, "("⟩ :: (inner ++ ⟨.closeParen, ")"⟩ :: after)
    ∃ e symbols, ofText text = .ok e ∧ e.text = "(A ∨ B ∧ C) ∧ ~D" ∧
      lex text = .ok symbols ∧ lex e.text = .ok written ∧ Trims symbols written ∧
      Unwraps written (inner ++ after) ∧ ofSymbols (inner ++ after) ≠ .ok e := by
  intro text inner after written
  let f : Formula := .binary .and (.binary .or (.var "A") (.binary .and (.var "B") (.var "C")))
    (.negation (.var "D"))
  have he : ofText text = .ok (ofFormula f) := ofText_of_toOption (by decide +kernel)
  have htext : (ofFormula f).text = "(A ∨ B ∧ C) ∧ ~D" := by decide +kernel
  have hlex : lex "(A ∨ B ∧ C) ∧ ~D" = .ok written := toOption_eq_some.1 (by decide +kernel)
  have hinner : Balanced inner :=
    .other nofun nofun <| .other nofun nofun <| .other nofun nofun <| .other nofun nofun <|
      .other nofun nofun .nil
  have hpair : Unwraps ([] ++ written) ([] ++ (inner ++ after)) := .pair hinner
  obtain ⟨symbols, symbols', hsymbols, hwritten, htrims, hneeded⟩ := text_trims he
  rw [htext, hlex] at hwritten
  obtain rfl : written = symbols' := Except.ok.inj hwritten
  exact ⟨_, symbols, he, htext, hsymbols, htext ▸ hlex, htrims, hpair, hneeded _ hpair⟩

end Expression

end Propositional
