import Propositional.Formula.Grammar
import Propositional.Proofs.Formula.Parts

/-!
# Derivations

The grammar as a relation between a rule, the symbols it derives, the formula they stand
for, and how many uses of rules nest in the derivation. Nothing here runs: the relation is
what the reading of symbols is measured against.
-/

namespace Propositional

/-- The token that writes a connective. -/
def Connective.token : Connective → Token
  | and => .and
  | or => .or
  | xor => .xor
  | equiv => .equiv
  | implies => .implies
  | provided => .provided

@[simp] theorem Token.connective?_token (op : Connective) : op.token.connective? = some op := by
  cases op <;> rfl

theorem Token.eq_token_of_connective? {t : Token} {op : Connective}
    (h : t.connective? = some op) : t = op.token := by
  cases t <;> cases h <;> rfl

/-- The tokens of constants, negations and connectives. -/
def Token.isOperation : Token → Bool
  | constTrue | constFalse | not => true
  | t => t.connective?.isSome

/-- The label of a symbol that is a variable. -/
def Symbol.label? (s : Symbol) : Option String :=
  if s.token = .var then some s.lexeme else none

theorem Symbol.label?_eq_some {s : Symbol} {label : String} :
    s.label? = some label ↔ s = ⟨.var, label⟩ := by
  obtain ⟨token, lexeme⟩ := s
  cases token <;> simp [label?]

theorem Connective.isOperation_token (op : Connective) : op.token.isOperation = true := by
  cases op <;> rfl

theorem Connective.label?_token (op : Connective) (lexeme : String) :
    Symbol.label? ⟨op.token, lexeme⟩ = none := by
  cases op <;> rfl

namespace Grammar

/-- What a piece of text can be used as. A literal is the part of a conjunction in front of
its connective; it abbreviates `"~"? operand` and is no use of a rule. -/
inductive Rule where
  | disjunction
  | conjunction
  | literal
  | operand
deriving DecidableEq

/-- `Derives rule s f d`: the rule derives the symbols `s`, these stand for `f`, and the
longest path through the derivation has `d` uses of rules. Of a symbol only the token
counts, except that a variable has its lexeme as label. -/
inductive Derives : Rule → List Symbol → Formula → Nat → Prop where
  | var {label} : Derives .operand [⟨.var, label⟩] (.var label) 1
  | constTrue {lexeme} : Derives .operand [⟨.constTrue, lexeme⟩] (.constant true) 1
  | constFalse {lexeme} : Derives .operand [⟨.constFalse, lexeme⟩] (.constant false) 1
  | group {l r s f d} :
      Derives .disjunction s f d →
      Derives .operand (⟨.openParen, l⟩ :: (s ++ [⟨.closeParen, r⟩])) f (d + 1)
  | bare {s f d} :
      Derives .operand s f d →
      Derives .literal s f d
  | negation {l s f d} :
      Derives .operand s f d →
      Derives .literal (⟨.not, l⟩ :: s) (.negation f) d
  | literal {s f d} :
      Derives .literal s f d →
      Derives .conjunction s f (d + 1)
  | tight {s f d op l t g e} :
      op.isLoose = false → Derives .literal s f d → Derives .conjunction t g e →
      Derives .conjunction (s ++ ⟨op.token, l⟩ :: t) (.binary op f g) (max d e + 1)
  | conjunction {s f d} :
      Derives .conjunction s f d →
      Derives .disjunction s f (d + 1)
  | loose {s f d op l t g e} :
      op.isLoose = true → Derives .conjunction s f d → Derives .disjunction t g e →
      Derives .disjunction (s ++ ⟨op.token, l⟩ :: t) (.binary op f g) (max d e + 1)

/-- What an operand derives starts with neither a connective nor a negation. -/
theorem Derives.operand_eq_cons {s : List Symbol} {f : Formula} {d : Nat}
    (h : Derives .operand s f d) : ∃ head rest, s = head :: rest ∧ head.token ≠ .not := by
  cases h with
  | var => exact ⟨_, _, rfl, nofun⟩
  | constTrue => exact ⟨_, _, rfl, nofun⟩
  | constFalse => exact ⟨_, _, rfl, nofun⟩
  | group _ => exact ⟨_, _, rfl, nofun⟩

/-- No rule derives the empty list. -/
theorem Derives.ne_nil {rule : Rule} {s : List Symbol} {f : Formula} {d : Nat}
    (h : Derives rule s f d) : s ≠ [] := by
  induction h with
  | var | constTrue | constFalse | group => exact List.cons_ne_nil _ _
  | bare _ ih | literal _ ih | conjunction _ ih => exact ih
  | negation => exact List.cons_ne_nil _ _
  | tight | loose => simp

/-- The labels of a formula are the variables among the symbols, in order. -/
theorem Derives.labels_eq {rule : Rule} {s : List Symbol} {f : Formula} {d : Nat}
    (h : Derives rule s f d) : s.filterMap Symbol.label? = f.labels := by
  induction h with
  | var | constTrue | constFalse => rfl
  | group _ ih => simp [Symbol.label?, ih]
  | bare _ ih | literal _ ih | conjunction _ ih => exact ih
  | negation _ ih => simp [Symbol.label?, Formula.labels, ih]
  | @tight _ _ _ op _ _ _ _ _ _ _ ihs iht | @loose _ _ _ op _ _ _ _ _ _ _ ihs iht =>
    simp [op.label?_token, Formula.labels, ihs, iht]

/-- All other places in a formula are the symbols that are neither variables nor parentheses. -/
theorem Derives.operations_eq {rule : Rule} {s : List Symbol} {f : Formula} {d : Nat}
    (h : Derives rule s f d) : s.countP (·.token.isOperation) = f.operations := by
  induction h with
  | var | constTrue | constFalse => rfl
  | group _ ih =>
    simp only [List.countP_cons, List.countP_append, List.countP_nil, ih]
    rfl
  | bare _ ih | literal _ ih | conjunction _ ih => exact ih
  | negation _ ih =>
    simp only [List.countP_cons, ih]
    rfl
  | @tight _ _ _ op _ _ _ _ _ _ _ ihs iht | @loose _ _ _ op _ _ _ _ _ _ _ ihs iht =>
    simp only [List.countP_append, List.countP_cons, op.isOperation_token, ihs, iht, if_true,
      Formula.operations]
    omega

/-! ## Constants -/

/-- A single constant, in any number of parentheses. -/
inductive SingleConstant : List Symbol → Prop where
  | constTrue {lexeme} : SingleConstant [⟨.constTrue, lexeme⟩]
  | constFalse {lexeme} : SingleConstant [⟨.constFalse, lexeme⟩]
  | group {l r s} :
      SingleConstant s → SingleConstant (⟨.openParen, l⟩ :: (s ++ [⟨.closeParen, r⟩]))

theorem SingleConstant.derives {s : List Symbol} (h : SingleConstant s) :
    ∃ b d, Derives .operand s (.constant b) d := by
  induction h with
  | constTrue => exact ⟨true, 1, .constTrue⟩
  | constFalse => exact ⟨false, 1, .constFalse⟩
  | group _ ih =>
    obtain ⟨b, d, hd⟩ := ih
    exact ⟨b, _, .group (.conjunction (.literal (.bare hd)))⟩

theorem Derives.singleConstant {rule : Rule} {s : List Symbol} {b : Bool} {d : Nat}
    (h : Derives rule s (.constant b) d) : SingleConstant s := by
  generalize hf : Formula.constant b = f at h
  induction h with
  | constTrue => exact .constTrue
  | constFalse => exact .constFalse
  | group _ ih => exact .group (ih hf)
  | bare _ ih | literal _ ih | conjunction _ ih => exact ih hf
  | var | negation | tight | loose => cases hf

/-! ## Chains -/

/-- The rule for what stands in front of a connective. -/
def Rule.part : (loose : Bool) → Rule
  | true => .conjunction
  | false => .literal

/-- The rule for what stands after a connective, and for the whole. -/
def Rule.whole : (loose : Bool) → Rule
  | true => .disjunction
  | false => .conjunction

/-- The constructors for tight and for loose connectives in one. -/
theorem Derives.link {loose : Bool} {op : Connective} {l : String} {s t : List Symbol}
    {f g : Formula} {d e : Nat} (hop : op.isLoose = loose) (hs : Derives (.part loose) s f d)
    (ht : Derives (.whole loose) t g e) :
    Derives (.whole loose) (s ++ ⟨op.token, l⟩ :: t) (.binary op f g) (max d e + 1) := by
  cases loose with
  | false => exact .tight hop hs ht
  | true => exact .loose hop hs ht

theorem Derives.disjunction_of_whole {loose : Bool} {s : List Symbol} {f : Formula} {d : Nat}
    (h : Derives (.whole loose) s f d) : ∃ e, Derives .disjunction s f e := by
  cases loose with
  | false => exact ⟨_, .conjunction h⟩
  | true => exact ⟨_, h⟩

/-- A connective in a chain and the operand after it. -/
structure Link where
  op : Connective
  lexeme : String
  symbols : List Symbol
  formula : Formula

/-- The symbols of a chain. -/
def Link.join (s : List Symbol) : List Link → List Symbol
  | [] => s
  | k :: links => s ++ ⟨k.op.token, k.lexeme⟩ :: join k.symbols links

/-- The formula of a chain, grouped to the right. -/
def Link.group (f : Formula) : List Link → Formula
  | [] => f
  | k :: links => .binary k.op f (group k.formula links)

/-- A chain of connectives that bind alike stands for its operands grouped to the right. -/
theorem Derives.chain {loose : Bool} {s : List Symbol} {f : Formula} {d : Nat}
    {links : List Link} (hs : Derives (.part loose) s f d)
    (hlinks : ∀ k ∈ links,
      k.op.isLoose = loose ∧ ∃ e, Derives (.part loose) k.symbols k.formula e) :
    ∃ e, Derives (.whole loose) (Link.join s links) (Link.group f links) e := by
  induction links generalizing s f d with
  | nil =>
    cases loose with
    | false => exact ⟨_, .literal hs⟩
    | true => exact ⟨_, .conjunction hs⟩
  | cons k links ih =>
    obtain ⟨hop, e, hk⟩ := hlinks k List.mem_cons_self
    obtain ⟨_, hrest⟩ := ih hk fun k' hk' => hlinks k' (List.mem_cons_of_mem _ hk')
    exact ⟨_, .link hop hs hrest⟩

end Grammar

end Propositional
