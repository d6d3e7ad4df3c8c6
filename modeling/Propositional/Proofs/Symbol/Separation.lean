import Propositional.Proofs.Symbol.Lexing
import Propositional.Proofs.Text.Trim

/-!
# Separation

Blanks separate symbols and do nothing else. Texts that are read by themselves can be put together
with blanks between them, and the symbols of a text are read again from their lexemes, however
many blanks stand between these. No symbol depends on what followed it in the text: a name that is
spelled like a keyword is read only where a letter follows that nothing starts with.
-/

namespace Propositional

open Text

/-- The lexemes of symbols in order, with blanks between any two. -/
inductive Separates : List Char → List Symbol → Prop where
  | nil : Separates [] []
  | single {s} : Separates s.lexeme.toList [s]
  | cons {s gap text next symbols} :
      gap ≠ [] → (∀ c ∈ gap, isBlank c) → Separates text (next :: symbols) →
      Separates (s.lexeme.toList ++ gap ++ text) (s :: next :: symbols)

variable {gap text rest : List Char} {symbols symbols' : List Symbol}

theorem Reads.blanks (hgap : ∀ c ∈ gap, isBlank c) (h : Reads text symbols) :
    Reads (gap ++ text) symbols := by
  induction gap with
  | nil => exact h
  | cons c gap ih =>
    obtain ⟨hc, hgap⟩ := List.forall_mem_cons.1 hgap
    exact .blank hc (ih hgap)

theorem endsWord_blanks (hne : gap ≠ []) (hgap : ∀ c ∈ gap, isBlank c) (text : List Char) :
    EndsWord (gap ++ text) := by
  obtain ⟨c, gap, rfl⟩ := List.exists_cons_of_ne_nil hne
  exact endsWord_cons (isWordChar_of_isBlank (hgap c List.mem_cons_self)) _

/-- Texts are put together with blanks between them. -/
theorem Reads.separate (h : Reads text symbols) (hne : gap ≠ []) (hgap : ∀ c ∈ gap, isBlank c)
    (h' : Reads rest symbols') : Reads (text ++ gap ++ rest) (symbols ++ symbols') := by
  rw [List.append_assoc]
  exact h.append (endsWord_blanks hne hgap rest) (h'.blanks hgap)

theorem Reads.pad {inner : List Char} (h : Reads inner symbols) (hpad : Padded inner text) :
    Reads text symbols := by
  obtain ⟨before, after, hbefore, hafter, rfl⟩ := hpad
  rw [List.append_assoc]
  refine Reads.blanks hbefore ?_
  cases after with
  | nil => simpa using h
  | cons c after => simpa using h.separate (List.cons_ne_nil c after) hafter .nil

/-- Symbols that are read from their lexemes are read from these one after the other. -/
theorem Separates.reads (h : Separates text symbols)
    (hread : ∀ s ∈ symbols, Reads s.lexeme.toList [s]) : Reads text symbols := by
  induction h with
  | nil => exact .nil
  | @single s => exact hread s List.mem_cons_self
  | @cons s gap text next symbols hne hgap _ ih =>
    obtain ⟨hs, hrest⟩ := List.forall_mem_cons.1 hread
    exact hs.separate hne hgap (ih hrest)

/-- Blanks only separate. Two texts with blanks between them consist of the symbols of the one and
those of the other, every symbol of a text is all that its lexeme consists of, and the lexemes of a
text with blanks between them and around them consist of its symbols. -/
theorem lex_separates {text₁ text₂ : String} {symbols₁ symbols₂ : List Symbol}
    (h₁ : lex text₁ = .ok symbols₁) (h₂ : lex text₂ = .ok symbols₂) :
    (∀ gap : String, gap ≠ "" → (∀ c ∈ gap.toList, isBlank c) →
      lex (text₁ ++ gap ++ text₂) = .ok (symbols₁ ++ symbols₂)) ∧
    (∀ s ∈ symbols₁, lex s.lexeme = .ok [s]) ∧
    ∀ (inner : List Char) (text : String), Separates inner symbols₁ → Padded inner text.toList →
      lex text = .ok symbols₁ := by
  simp only [lex_eq_ok_iff] at h₁ h₂ ⊢
  have hsingle : ∀ s ∈ symbols₁, Reads s.lexeme.toList [s] := fun s hs =>
    .symbol (h₁.read?_lexeme hs) .nil
  refine ⟨?_, hsingle, ?_⟩
  · intro gap hne hgap
    rw [String.toList_append, String.toList_append]
    exact h₁.separate (by simpa using hne) hgap h₂
  · intro inner text hinner hpad
    exact (hinner.reads hsingle).pad hpad

/-- A name that starts like a keyword, keywords with a parenthesis or nothing behind them, one of
them with a long s, and a glyph with a digit behind it. -/
theorem lex_separates_keywords :
    let symbols₁ : List Symbol := [⟨.var, "ANDY"⟩, ⟨.or, "or"⟩]
    let symbols₂ : List Symbol :=
      [⟨.openParen, "("⟩, ⟨.constFalse, "falſe"⟩, ⟨.closeParen, ")"⟩, ⟨.or, "v"⟩, ⟨.constTrue, "1"⟩]
    lex "ANDY or" = .ok symbols₁ ∧ lex "(falſe)v1" = .ok symbols₂ ∧
      lex ("ANDY or" ++ "\u3000\n" ++ "(falſe)v1") = .ok (symbols₁ ++ symbols₂) ∧
      lex "or" = .ok [⟨.or, "or"⟩] ∧ lex "\tANDY \u00A0or " = .ok symbols₁ := by
  intro symbols₁ symbols₂
  have h₁ : lex "ANDY or" = .ok symbols₁ := toOption_eq_some.1 (by decide +kernel)
  have h₂ : lex "(falſe)v1" = .ok symbols₂ := toOption_eq_some.1 (by decide +kernel)
  have hgap : ∀ c ∈ "\u3000\n".toList, isBlank c := List.all_eq_true.1 (by decide)
  have hinner : Separates ("ANDY".toList ++ [' ', '\u00A0'] ++ "or".toList) symbols₁ :=
    .cons (s := ⟨.var, "ANDY"⟩) (List.cons_ne_nil _ _) (List.all_eq_true.1 (by decide))
      (.single (s := ⟨.or, "or"⟩))
  have hpad : Padded ("ANDY".toList ++ [' ', '\u00A0'] ++ "or".toList) "\tANDY \u00A0or ".toList :=
    ⟨['\t'], [' '], List.all_eq_true.1 (by decide), List.all_eq_true.1 (by decide), rfl⟩
  obtain ⟨happend, hsingle, hspaced⟩ := lex_separates h₁ h₂
  exact ⟨h₁, h₂, happend _ (by decide) hgap, hsingle ⟨.or, "or"⟩ (by decide),
    hspaced _ _ hinner hpad⟩

end Propositional
