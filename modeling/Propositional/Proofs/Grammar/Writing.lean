import Propositional.Proofs.Grammar.Derivation

/-!
# Writing by the rules

The symbols that a formula is written with, and how deeply their derivation nests. A rule
that does not derive a formula as it stands derives it in parentheses. No other way to write
the formula nests less.
-/

namespace Propositional

open Grammar

/-! ## From rule to rule -/

namespace Grammar

/-- The rules in the order in which they contain each other. -/
def Rule.looseness : Rule → Nat
  | .operand => 0
  | .literal => 1
  | .conjunction => 2
  | .disjunction => 3

/-- How many uses of rules lead from the rule down to an operand. -/
def Rule.height : Rule → Nat
  | .operand | .literal => 0
  | .conjunction => 1
  | .disjunction => 2

/-- Whether the outer rule derives what the inner one does in parentheses only. -/
def Rule.encloses (outer inner : Rule) : Bool :=
  outer.looseness < inner.looseness

/-- How deeply the outer rule nests where the inner one nests `d` deep. -/
def Rule.lift (outer inner : Rule) (d : Nat) : Nat :=
  if outer.encloses inner then d + (disjunction.height - inner.height) + 1 + outer.height
  else d + (outer.height - inner.height)

def enclose (wrap : Bool) (s : List Symbol) : List Symbol :=
  if wrap then ⟨.openParen, "("⟩ :: (s ++ [⟨.closeParen, ")"⟩]) else s

variable {s t : List Symbol} {f g : Formula} {d e : Nat} {outer inner : Rule}

theorem Rule.disjunction_encloses (inner : Rule) : disjunction.encloses inner = false := by
  cases inner <;> rfl

theorem Rule.encloses_operand (outer : Rule) : outer.encloses operand = false := by
  cases outer <;> rfl

@[simp] theorem Rule.lift_self (rule : Rule) (d : Nat) : rule.lift rule d = d := by
  simp [lift, encloses]

/-- A looser rule derives all that a tighter one does. -/
theorem Derives.climb (h : Derives inner s f d) (hfit : outer.encloses inner = false) :
    Derives outer s f (d + (outer.height - inner.height)) := by
  cases inner with
  | operand =>
    cases outer with
    | operand => exact h
    | literal => exact .bare h
    | conjunction => exact .literal (.bare h)
    | disjunction => exact .conjunction (.literal (.bare h))
  | literal =>
    cases outer with
    | operand => cases hfit
    | literal => exact h
    | conjunction => exact .literal h
    | disjunction => exact .conjunction (.literal h)
  | conjunction =>
    cases outer with
    | operand | literal => cases hfit
    | conjunction => exact h
    | disjunction => exact .conjunction h
  | disjunction =>
    cases outer with
    | operand | literal | conjunction => cases hfit
    | disjunction => exact h

/-- Every rule derives what another one does, in parentheses if need be. -/
theorem Derives.lift (h : Derives inner s f d) (outer : Rule) :
    Derives outer (enclose (outer.encloses inner) s) f (outer.lift inner d) := by
  unfold enclose Rule.lift
  cases hfit : outer.encloses inner with
  | false => exact h.climb hfit
  | true =>
    have hgroup := Derives.group (l := "(") (r := ")") (h.climb inner.disjunction_encloses)
    exact hgroup.climb outer.encloses_operand

end Grammar

/-! ## Written formulas -/

namespace Formula

/-- The tightest rule that derives a formula without parentheses around it. -/
def rule : Formula → Rule
  | constant _ | var _ => .operand
  | negation _ => .literal
  | binary op _ _ => .whole op.isLoose

/-- The symbols that a formula is written with. -/
def symbols : Formula → List Symbol
  | constant b => [if b then ⟨.constTrue, "1"⟩ else ⟨.constFalse, "0"⟩]
  | var label => [⟨.var, label⟩]
  | negation f => ⟨.not, "~"⟩ :: enclose (Rule.operand.encloses f.rule) f.symbols
  | binary op left right =>
    enclose ((Rule.part op.isLoose).encloses left.rule) left.symbols ++
      ⟨op.token, op.glyph⟩ :: enclose ((Rule.whole op.isLoose).encloses right.rule) right.symbols

/-- How deeply the derivation of the written formula nests. -/
def nesting : Formula → Nat
  | constant _ | var _ => 1
  | negation f => Rule.operand.lift f.rule f.nesting
  | binary op left right =>
    max ((Rule.part op.isLoose).lift left.rule left.nesting)
      ((Rule.whole op.isLoose).lift right.rule right.nesting) + 1

/-- A formula can be derived from the symbols it is written with. -/
theorem derives_symbols (f : Formula) : Derives f.rule f.symbols f f.nesting := by
  induction f with
  | constant b =>
    cases b with
    | false => exact .constFalse
    | true => exact .constTrue
  | var => exact .var
  | negation _ ih => exact .negation (ih.lift .operand)
  | binary op _ _ ihl ihr => exact .link rfl (ihl.lift _) (ihr.lift _)

end Formula

/-! ## The least depth -/

namespace Grammar

/-- To lift to a looser rule costs no more than to go on by uses of rules. -/
theorem Rule.lift_le_climb (outer inner : Rule) (h : outer.encloses inner = false) (rule : Rule)
    (d : Nat) : outer.lift rule d ≤ inner.lift rule d + (outer.height - inner.height) := by
  cases outer <;> cases inner <;> cases rule <;>
    simp_all [lift, encloses, looseness, height] <;> omega

theorem Rule.lift_operand_le (rule : Rule) (d : Nat) :
    operand.lift rule d ≤ disjunction.lift rule d + 1 := by
  cases rule <;> simp [lift, encloses, looseness, height]
  omega

/-- What a connective adds to the depths of its operands. -/
theorem lift_disjunction_binary (op : Connective) (f g : Formula) :
    Rule.disjunction.lift (Formula.binary op f g).rule (Formula.binary op f g).nesting =
      max ((Rule.part op.isLoose).lift f.rule f.nesting)
        ((Rule.whole op.isLoose).lift g.rule g.nesting) + 1 +
        (Rule.disjunction.height - (Rule.whole op.isLoose).height) := by
  rw [Rule.lift, Rule.disjunction_encloses]
  rfl

theorem Rule.height_part (loose : Bool) :
    disjunction.height - (part loose).height = disjunction.height - (whole loose).height + 1 := by
  cases loose <;> rfl

theorem lift_binary_le {loose : Bool} {op : Connective} {f g : Formula} {d e : Nat}
    (hop : op.isLoose = loose) (hs : (Rule.part loose).lift f.rule f.nesting ≤ d)
    (ht : (Rule.whole loose).lift g.rule g.nesting ≤ e) :
    (Rule.whole loose).lift (Formula.binary op f g).rule (Formula.binary op f g).nesting ≤
      max d e + 1 := by
  subst hop
  have hlift : (Rule.whole op.isLoose).lift (Formula.binary op f g).rule
      (Formula.binary op f g).nesting =
      max ((Rule.part op.isLoose).lift f.rule f.nesting)
        ((Rule.whole op.isLoose).lift g.rule g.nesting) + 1 :=
    Rule.lift_self _ _
  omega

/-- However a formula is derived, its derivation nests at least as deeply as the one of the
written formula. -/
theorem Derives.nesting_le {rule : Rule} {s : List Symbol} {f : Formula} {d : Nat}
    (h : Derives rule s f d) : rule.lift f.rule f.nesting ≤ d := by
  induction h with
  | var | constTrue | constFalse => exact Nat.le_refl _
  | @group l r s f d _ ih =>
    have hle := Rule.lift_operand_le f.rule f.nesting
    omega
  | @bare s f d _ ih =>
    have hle : Rule.literal.lift f.rule f.nesting ≤ Rule.operand.lift f.rule f.nesting :=
      Rule.lift_le_climb .literal .operand rfl _ _
    omega
  | negation _ ih => exact ih
  | @literal s f d _ ih =>
    have hle : Rule.conjunction.lift f.rule f.nesting ≤ Rule.literal.lift f.rule f.nesting + 1 :=
      Rule.lift_le_climb .conjunction .literal rfl _ _
    omega
  | @conjunction s f d _ ih =>
    have hle : Rule.disjunction.lift f.rule f.nesting ≤
        Rule.conjunction.lift f.rule f.nesting + 1 :=
      Rule.lift_le_climb .disjunction .conjunction rfl _ _
    omega
  | tight hop _ _ ihs iht | loose hop _ _ ihs iht => exact lift_binary_le hop ihs iht

/-- Symbols that stand for a formula say its labels as variables. -/
theorem Derives.mem_of_mem_labels {rule : Rule} {s : List Symbol} {f : Formula} {d : Nat}
    (h : Derives rule s f d) {label : String} (hl : label ∈ f.labels) :
    ⟨.var, label⟩ ∈ s := by
  rw [← h.labels_eq] at hl
  obtain ⟨x, hmem, hx⟩ := List.mem_filterMap.1 hl
  rwa [← Symbol.label?_eq_some.1 hx]

end Grammar

namespace Formula

/-- To derive an operand takes less than to derive the whole. -/
theorem Part.nesting_le {f g : Formula} (h : Part g f) :
    Rule.disjunction.lift g.rule g.nesting ≤ Rule.disjunction.lift f.rule f.nesting := by
  induction h with
  | refl => exact Nat.le_refl _
  | @negation f _ ih =>
    have hclimb := Rule.lift_le_climb .disjunction .operand rfl f.rule f.nesting
    have hlift : Rule.disjunction.lift f.negation.rule f.negation.nesting =
        Rule.operand.lift f.rule f.nesting + 2 := rfl
    have hheight : Rule.disjunction.height - Rule.operand.height = 2 := rfl
    omega
  | @left op f f' _ ih =>
    have hclimb := Rule.lift_le_climb .disjunction (.part op.isLoose)
      (Rule.disjunction_encloses _) f.rule f.nesting
    have hlift := lift_disjunction_binary op f f'
    have hheight := Rule.height_part op.isLoose
    omega
  | @right op f f' _ ih =>
    have hclimb := Rule.lift_le_climb .disjunction (.whole op.isLoose)
      (Rule.disjunction_encloses _) f'.rule f'.nesting
    have hlift := lift_disjunction_binary op f f'
    omega

/-- A whole formula is written without parentheses around it. -/
theorem derives_written (f : Formula) :
    Derives .disjunction f.symbols f (Rule.disjunction.lift f.rule f.nesting) := by
  have hlift := f.derives_symbols.lift .disjunction
  rwa [f.rule.disjunction_encloses] at hlift

/-- If a formula is derived within some depth, its parts are derived within it as they are
written. -/
theorem derives_symbols_of_part {s : List Symbol} {f g : Formula} {d : Nat}
    (h : Derives .disjunction s f d) (hg : Part g f) :
    ∃ e ≤ d, Derives .disjunction g.symbols g e :=
  ⟨_, Nat.le_trans hg.nesting_le h.nesting_le, g.derives_written⟩

end Formula

end Propositional
