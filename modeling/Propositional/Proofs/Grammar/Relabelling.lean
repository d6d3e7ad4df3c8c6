import Mathlib.Data.List.Forall2
import Propositional.Proofs.Grammar.Reading

/-!
# Relabelling of symbols

Two lists of symbols that have the same tokens and whose labels correspond are read alike, rule for
rule: both as formulas that differ in these labels only, or both with the same error at the same
symbol. No other part of a spelling is looked at.
-/

namespace Propositional

open Grammar

/-- The formula with its labels replaced. -/
def Formula.relabel (ρ : String → String) : Formula → Formula
  | constant b => constant b
  | var label => var (ρ label)
  | negation f => negation (f.relabel ρ)
  | binary op left right => binary op (left.relabel ρ) (right.relabel ρ)

/-- The tokens are the same, and if they are variables the second label replaces the first. -/
structure Symbol.Relabels (ρ : String → String) (s t : Symbol) : Prop where
  token_eq : t.token = s.token
  label_eq : s.token = .var → t.lexeme = ρ s.lexeme

/-- The errors are the same but for the symbol that was found. -/
inductive SyntaxError.Relabels (ρ : String → String) : SyntaxError → SyntaxError → Prop where
  | tooDeep : Relabels ρ .tooDeep .tooDeep
  | unclosed : Relabels ρ .unclosed .unclosed
  | operandExpected {s t} : s.Relabels ρ t → Relabels ρ (.operandExpected s) (.operandExpected t)
  | operandMissing : Relabels ρ .operandMissing .operandMissing
  | extra {s t} : s.Relabels ρ t → Relabels ρ (.extra s) (.extra t)

inductive Error.Relabels (ρ : String → String) : Error → Error → Prop where
  | emptyExpression : Relabels ρ (.input .emptyExpression) (.input .emptyExpression)
  | grammar {cause cause'} : cause.Relabels ρ cause' → Relabels ρ (.grammar cause) (.grammar cause')

theorem Error.Relabels.kind_eq {ρ : String → String} {e e' : Error} (h : e.Relabels ρ e') :
    e'.kind = e.kind := by
  cases h <;> rfl

namespace Grammar

variable {ρ : String → String} {s t : List Symbol}

/-- The symbols correspond position by position. -/
abbrev RelabelsAll (ρ : String → String) : List Symbol → List Symbol → Prop :=
  List.Forall₂ (Symbol.Relabels ρ)

/-- What was read differs in labels only, and so does what is left. -/
def FindsAlike (ρ : String → String) (found found' : Formula × List Symbol) : Prop :=
  found'.1 = found.1.relabel ρ ∧ RelabelsAll ρ found.2 found'.2

/-- Corresponding symbols are read alike. -/
def ReadsAlike (ρ : String → String) (read : List Symbol → Reading) : Prop :=
  ∀ s t, RelabelsAll ρ s t → Alike (SyntaxError.Relabels ρ) (FindsAlike ρ) (read s) (read t)

/-! ## Single symbols -/

theorem connective?_relabels (loose : Bool) (h : RelabelsAll ρ s t) :
    (connective? loose s = none ∧ connective? loose t = none) ∨
      ∃ op s' t', connective? loose s = some (op, s') ∧ connective? loose t = some (op, t') ∧
        RelabelsAll ρ s' t' := by
  cases h with
  | nil => exact .inl ⟨rfl, rfl⟩
  | @cons x y s t hx h =>
    rw [connective?, connective?, hx.token_eq]
    cases x.token.connective? with
    | none => exact .inl ⟨rfl, rfl⟩
    | some op =>
      by_cases hop : op.isLoose = loose
      · exact .inr ⟨op, s, t, if_pos hop, if_pos hop, h⟩
      · exact .inl ⟨if_neg hop, if_neg hop⟩

theorem negation_relabels (h : RelabelsAll ρ s t) :
    (negation t).1 = (negation s).1 ∧ RelabelsAll ρ (negation s).2 (negation t).2 := by
  cases h with
  | nil => exact ⟨rfl, .nil⟩
  | @cons x y s t hx h =>
    obtain ⟨token, l⟩ := x
    obtain ⟨token', l'⟩ := y
    obtain rfl : token' = token := hx.token_eq
    by_cases hn : token' = .not
    · subst hn
      exact ⟨rfl, h⟩
    · rw [negation_cons hn, negation_cons hn]
      exact ⟨rfl, .cons hx h⟩

theorem closed_relabels {found found' : Formula × List Symbol} (h : FindsAlike ρ found found') :
    Alike (SyntaxError.Relabels ρ) (FindsAlike ρ) (closed found) (closed found') := by
  obtain ⟨f, rest⟩ := found
  obtain ⟨f', rest'⟩ := found'
  obtain ⟨rfl, h⟩ := h
  cases h with
  | nil => exact .error .unclosed
  | @cons x y s t hx h =>
    obtain ⟨token, l⟩ := x
    obtain ⟨token', l'⟩ := y
    obtain rfl : token' = token := hx.token_eq
    cases token' with
    | closeParen => exact .ok ⟨rfl, h⟩
    | _ => exact .error .unclosed

theorem complete_relabels {found found' : Formula × List Symbol} (h : FindsAlike ρ found found') :
    Alike (SyntaxError.Relabels ρ) (fun f g => g = f.relabel ρ) (complete found)
      (complete found') := by
  obtain ⟨f, rest⟩ := found
  obtain ⟨f', rest'⟩ := found'
  obtain ⟨rfl, h⟩ := h
  cases h with
  | nil => exact .ok rfl
  | cons hx _ => exact .error (.extra hx)

/-! ## Rules -/

theorem readsAlike_chain {loose : Bool} {part whole : List Symbol → Reading}
    (hpart : ReadsAlike ρ part) (hwhole : ReadsAlike ρ whole) :
    ReadsAlike ρ (chain loose part whole) := by
  intro s t h
  refine (hpart s t h).bind ?_
  rintro ⟨f, s⟩ ⟨_, t⟩ ⟨rfl, h⟩
  rcases connective?_relabels loose h with ⟨hs, ht⟩ | ⟨op, s', t', hs, ht, h'⟩
  · simp only [hs, ht]
    exact .ok ⟨rfl, h⟩
  · simp only [hs, ht]
    refine (hwhole s' t' h').bind ?_
    rintro ⟨g, _⟩ ⟨_, _⟩ ⟨rfl, hrest⟩
    exact .ok ⟨rfl, hrest⟩

theorem readsAlike_literal {budget : Nat} (h : ReadsAlike ρ (operand budget)) :
    ReadsAlike ρ (literal budget) := by
  intro s t hst
  obtain ⟨hsign, hrest⟩ := negation_relabels hst
  refine (h _ _ hrest).bind ?_
  rintro ⟨f, _⟩ ⟨_, _⟩ ⟨rfl, hleft⟩
  rw [hsign]
  cases (negation s).1 with
  | false => exact .ok ⟨rfl, hleft⟩
  | true => exact .ok ⟨rfl, hleft⟩

theorem readsAlike_operand {budget : Nat} (h : ReadsAlike ρ (disjunction budget)) :
    ReadsAlike ρ (operand (budget + 1)) := by
  intro s t hst
  cases hst with
  | nil => exact .error .operandMissing
  | @cons x y s t hx hst =>
    obtain ⟨token, l⟩ := x
    obtain ⟨token', l'⟩ := y
    obtain rfl : token' = token := hx.token_eq
    cases token' with
    | openParen =>
      rw [operand_openParen, operand_openParen]
      exact (h s t hst).bind fun _ _ => closed_relabels
    | var =>
      obtain rfl : l' = ρ l := hx.label_eq rfl
      exact .ok ⟨rfl, hst⟩
    | constTrue | constFalse => exact .ok ⟨rfl, hst⟩
    | _ => exact .error (.operandExpected hx)

/-- Whatever the rule and the budget, corresponding symbols are read alike. -/
theorem Rule.readsAlike (budget : Nat) (rule : Rule) : ReadsAlike ρ (rule.read budget) := by
  induction budget generalizing rule with
  | zero =>
    intro s t _
    rw [Rule.read_zero, Rule.read_zero]
    exact .error .tooDeep
  | succ budget ih =>
    have operand : ReadsAlike ρ (Grammar.operand (budget + 1)) :=
      readsAlike_operand (ih .disjunction)
    have whole (loose : Bool) : ReadsAlike ρ ((Rule.whole loose).read (budget + 1)) := by
      rw [Rule.read_whole]
      exact readsAlike_chain (ih _) (ih _)
    cases rule with
    | disjunction => exact whole true
    | conjunction => exact whole false
    | literal => exact readsAlike_literal operand
    | operand => exact operand

end Grammar

/-- Corresponding symbols stand for formulas that differ in their labels only, or for none and with
the same error. -/
theorem Formula.ofSymbols_relabels {ρ : String → String} {s t : List Symbol}
    (h : RelabelsAll ρ s t) :
    Alike (Error.Relabels ρ) (fun f g => g = f.relabel ρ) (ofSymbols s) (ofSymbols t) := by
  cases h with
  | nil => exact .error .emptyExpression
  | cons hx h =>
    have hread : ReadsAlike ρ (disjunction depthLimit) := Rule.readsAlike depthLimit .disjunction
    have hwhole := (hread _ _ (.cons hx h)).bind fun _ _ => complete_relabels
    exact hwhole.mapError fun _ _ => .grammar

end Propositional
