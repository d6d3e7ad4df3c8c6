import Mathlib.Logic.Relation
import Propositional.Proofs.Grammar.Relabelling
import Propositional.Proofs.Grammar.Writing

/-!
# Parentheses

Symbols that stand for a formula are those it is written with, with further pairs of parentheses
put in. So the written symbols have the fewest parentheses of all that stand for the formula, and
none of their pairs can be left out.
-/

namespace Propositional

open Grammar

namespace Grammar

/-! ## Pairs of parentheses -/

/-- Every parenthesis is one of a pair. -/
inductive Balanced : List Symbol → Prop where
  | nil : Balanced []
  | other {x s} : x.token ≠ .openParen → x.token ≠ .closeParen → Balanced s → Balanced (x :: s)
  | group {l r s t} :
      Balanced s → Balanced t → Balanced (⟨.openParen, l⟩ :: (s ++ ⟨.closeParen, r⟩ :: t))

/-- One pair of parentheses is left out. -/
inductive Unwraps : List Symbol → List Symbol → Prop where
  | pair {l r before inner after} :
      Balanced inner →
      Unwraps (before ++ ⟨.openParen, l⟩ :: (inner ++ ⟨.closeParen, r⟩ :: after))
        (before ++ (inner ++ after))

/-- Pairs of parentheses are left out, and what is left has the tokens and labels of `written`. -/
def Trims (s written : List Symbol) : Prop :=
  ∃ kept, Relation.ReflTransGen Unwraps s kept ∧ RelabelsAll id kept written

variable {rule : Rule} {s t w : List Symbol} {f : Formula} {d : Nat}

theorem Balanced.append (hs : Balanced s) (ht : Balanced t) : Balanced (s ++ t) := by
  induction hs with
  | nil => exact ht
  | other hopen hclose _ ih => exact .other hopen hclose ih
  | group hs _ _ iht =>
    rw [List.cons_append, List.append_assoc]
    exact .group hs iht

/-- What a rule derives is balanced. -/
theorem Derives.balanced (h : Derives rule s f d) : Balanced s := by
  induction h with
  | var | constTrue | constFalse => exact .other nofun nofun .nil
  | group _ ih => exact .group ih .nil
  | bare _ ih | literal _ ih | conjunction _ ih => exact ih
  | negation _ ih => exact .other nofun nofun ih
  | @tight _ _ _ op _ _ _ _ _ _ _ ihs iht | @loose _ _ _ op _ _ _ _ _ _ _ ihs iht =>
    refine ihs.append (.other ?_ ?_ iht) <;> cases op <;> exact nofun

/-! ## Leaving pairs out -/

theorem Unwraps.append_left (h : Unwraps s t) (u : List Symbol) : Unwraps (u ++ s) (u ++ t) := by
  obtain ⟨hinner⟩ := h
  rw [← List.append_assoc, ← List.append_assoc]
  exact .pair hinner

theorem Unwraps.append_right (h : Unwraps s t) (u : List Symbol) : Unwraps (s ++ u) (t ++ u) := by
  obtain ⟨hinner⟩ := h
  simp only [List.append_assoc, List.cons_append]
  exact .pair hinner

theorem Trims.append {s' w' : List Symbol} (h : Trims s w) (h' : Trims s' w') :
    Trims (s ++ s') (w ++ w') := by
  obtain ⟨kept, hsteps, hkept⟩ := h
  obtain ⟨kept', hsteps', hkept'⟩ := h'
  refine ⟨kept ++ kept', ?_, List.rel_append hkept hkept'⟩
  have hfirst : Relation.ReflTransGen Unwraps (s ++ s') (kept ++ s') :=
    hsteps.lift (· ++ s') fun _ _ hstep => hstep.append_right s'
  have hsecond : Relation.ReflTransGen Unwraps (kept ++ s') (kept ++ kept') :=
    hsteps'.lift (kept ++ ·) fun _ _ hstep => hstep.append_left kept
  exact hfirst.trans hsecond

theorem Trims.single {x y : Symbol} (h : x.Relabels id y) : Trims [x] [y] :=
  ⟨[x], .refl, .cons h .nil⟩

theorem Trims.cons {x y : Symbol} (hx : x.Relabels id y) (h : Trims s w) :
    Trims (x :: s) (y :: w) :=
  (Trims.single hx).append h

/-- A pair of parentheses is kept or left out. -/
theorem Trims.group {l r : String} (hs : Balanced s) (h : Trims s w) (wrap : Bool) :
    Trims (⟨.openParen, l⟩ :: (s ++ [⟨.closeParen, r⟩])) (enclose wrap w) := by
  cases wrap with
  | true => exact .cons ⟨rfl, nofun⟩ (h.append (.single ⟨rfl, nofun⟩))
  | false =>
    obtain ⟨kept, hsteps, hkept⟩ := h
    have hpair : Unwraps ([] ++ ⟨.openParen, l⟩ :: (s ++ [⟨.closeParen, r⟩])) ([] ++ (s ++ [])) :=
      .pair hs
    rw [List.nil_append, List.nil_append, List.append_nil] at hpair
    exact ⟨kept, .head hpair hsteps, hkept⟩

theorem Trims.link {loose : Bool} {op : Connective} {l : String} {g : Formula}
    (hop : op.isLoose = loose)
    (hs : Trims s (enclose ((Rule.part loose).encloses f.rule) f.symbols))
    (ht : Trims t (enclose ((Rule.whole loose).encloses g.rule) g.symbols)) :
    Trims (s ++ ⟨op.token, l⟩ :: t) (Formula.binary op f g).symbols := by
  subst hop
  refine hs.append (.cons ⟨rfl, ?_⟩ ht)
  cases op <;> exact nofun

theorem Rule.encloses_eq_false_of_le {outer inner rule : Rule} (h : outer.encloses rule = false)
    (hle : inner.looseness ≤ rule.looseness) : outer.encloses inner = false := by
  simp only [encloses, decide_eq_false_iff_not, Nat.not_lt] at h ⊢
  exact Nat.le_trans hle h

/-- However a formula is derived, it is what is written for it once pairs of parentheses have been
left out. -/
theorem Derives.trims (h : Derives rule s f d) (outer : Rule)
    (houter : outer.encloses rule = false) :
    Trims s (enclose (outer.encloses f.rule) f.symbols) := by
  -- the rule that uses a group decides whether its pair is kept, so this is shown for all of them
  induction h generalizing outer with
  | var =>
    rw [Formula.rule, outer.encloses_operand]
    exact .single ⟨rfl, fun _ => rfl⟩
  | constTrue | constFalse =>
    rw [Formula.rule, outer.encloses_operand]
    exact .single ⟨rfl, nofun⟩
  | @group l r s f d h ih =>
    have hwhole := ih .disjunction rfl
    rw [f.rule.disjunction_encloses] at hwhole
    exact hwhole.group h.balanced _
  | bare _ ih => exact ih outer outer.encloses_operand
  | negation _ ih =>
    rw [Formula.rule, houter]
    exact .cons ⟨rfl, nofun⟩ (ih .operand rfl)
  | literal _ ih => exact ih outer (Rule.encloses_eq_false_of_le houter (by decide))
  | conjunction _ ih => exact ih outer (Rule.encloses_eq_false_of_le houter (by decide))
  | tight hop _ _ ihs iht | loose hop _ _ ihs iht =>
    rw [Formula.rule, hop, Rule.whole, houter]
    exact .link hop (ihs _ rfl) (iht _ rfl)

theorem Derives.trims_written (h : Derives .disjunction s f d) : Trims s f.symbols := by
  have htrims := h.trims .disjunction rfl
  rwa [f.rule.disjunction_encloses] at htrims

/-! ## Counting pairs -/

/-- The number of opening parentheses. -/
def pairs (s : List Symbol) : Nat :=
  s.countP (·.token = .openParen)

theorem Unwraps.pairs_eq (h : Unwraps s t) : pairs s = pairs t + 1 := by
  obtain ⟨_⟩ := h
  simp only [pairs, List.countP_append, List.countP_cons, decide_true, if_true, reduceCtorEq,
    decide_false, Bool.false_eq_true, if_false]
  omega

theorem pairs_eq_of_relabels (h : RelabelsAll id s t) : pairs t = pairs s := by
  induction h with
  | nil => rfl
  | cons hx _ ih =>
    rw [pairs, pairs, List.countP_cons, List.countP_cons, hx.token_eq]
    exact congrArg (· + _) ih

theorem pairs_le_of_unwraps (h : Relation.ReflTransGen Unwraps s t) : pairs t ≤ pairs s := by
  induction h with
  | refl => exact Nat.le_refl _
  | tail _ hstep ih =>
    have hpairs := hstep.pairs_eq
    omega

theorem Trims.pairs_le (h : Trims s w) : pairs w ≤ pairs s := by
  obtain ⟨kept, hsteps, hkept⟩ := h
  rw [pairs_eq_of_relabels hkept]
  exact pairs_le_of_unwraps hsteps

/-- No symbols with fewer pairs of parentheses stand for the formula. -/
theorem Derives.pairs_le (h : Derives .disjunction s f d) : pairs f.symbols ≤ pairs s :=
  h.trims_written.pairs_le

end Grammar

end Propositional
