import Propositional.Proofs.Grammar.Derivation
import Propositional.Proofs.Result

/-!
# Reading by the rules

The functions that read symbols agree with the derivations: on symbols that a rule derives
they find the formula if the budget covers the depth of the derivation and run out of
budget otherwise, and whatever they find has a derivation. So every list of symbols has at
most one derivation.
-/

namespace Propositional.Grammar

/-! ## One shape for both binary rules -/

/-- Reads `part (connective whole)?`, the shape of a disjunction and of a conjunction. -/
def chain (loose : Bool) (part whole : List Symbol → Reading) (symbols : List Symbol) :
    Reading := do
  let (left, symbols) ← part symbols
  match connective? loose symbols with
  | none => return (left, symbols)
  | some (op, symbols) =>
    let (right, symbols) ← whole symbols
    return (.binary op left right, symbols)

/-- Reads `"~"? operand`. -/
def literal (budget : Nat) (symbols : List Symbol) : Reading := do
  let (f, rest) ← operand budget (negation symbols).2
  return (if (negation symbols).1 then .negation f else f, rest)

theorem disjunction_succ (budget : Nat) (symbols : List Symbol) :
    disjunction (budget + 1) symbols =
      chain true (conjunction budget) (disjunction budget) symbols := by
  rw [disjunction]
  rfl

theorem conjunction_succ (budget : Nat) (symbols : List Symbol) :
    conjunction (budget + 1) symbols =
      chain false (literal budget) (conjunction budget) symbols := by
  rw [conjunction, chain, literal]
  obtain ⟨negated, rest⟩ := negation symbols
  cases h : operand budget rest <;> simp only [h] <;> rfl

/-- Reads symbols by a rule. -/
def Rule.read : Rule → Nat → List Symbol → Reading
  | .disjunction => Grammar.disjunction
  | .conjunction => Grammar.conjunction
  | .literal => Grammar.literal
  | .operand => Grammar.operand

theorem Rule.read_whole (loose : Bool) (budget : Nat) :
    (whole loose).read (budget + 1) =
      chain loose ((part loose).read budget) ((whole loose).read budget) := by
  funext symbols
  cases loose with
  | false => exact conjunction_succ budget symbols
  | true => exact disjunction_succ budget symbols

/-! ## Small steps -/

@[simp] theorem connective?_token_cons (loose : Bool) (op : Connective) (l : String)
    (rest : List Symbol) :
    connective? loose (⟨op.token, l⟩ :: rest) =
      if op.isLoose = loose then some (op, rest) else none := by
  simp [connective?]

theorem eq_cons_of_connective? {loose : Bool} {symbols rest : List Symbol} {op : Connective}
    (h : connective? loose symbols = some (op, rest)) :
    op.isLoose = loose ∧ ∃ l, symbols = ⟨op.token, l⟩ :: rest := by
  cases symbols with
  | nil => cases h
  | cons s symbols =>
    obtain ⟨token, l⟩ := s
    rw [connective?] at h
    split at h
    next op' hop =>
      split at h
      next hl =>
        cases h
        obtain rfl : token = op.token := Token.eq_token_of_connective? hop
        exact ⟨hl, l, rfl⟩
      next => cases h
    next => cases h

theorem negation_cons {s : Symbol} (h : s.token ≠ .not) (rest : List Symbol) :
    negation (s :: rest) = (false, s :: rest) := by
  unfold negation
  split
  next heq =>
    cases heq
    exact absurd rfl h
  next => rfl

theorem operand_openParen (budget : Nat) (l : String) (symbols : List Symbol) :
    operand (budget + 1) (⟨.openParen, l⟩ :: symbols) = disjunction budget symbols >>= closed := by
  rw [operand]

theorem literal_of_ne_not {s : Symbol} (h : s.token ≠ .not) (budget : Nat) (rest : List Symbol) :
    literal budget (s :: rest) = operand budget (s :: rest) := by
  rw [literal, negation_cons h]
  cases operand budget (s :: rest) <;> rfl

theorem literal_not (budget : Nat) (l : String) (rest : List Symbol) :
    literal budget (⟨.not, l⟩ :: rest) =
      (operand budget rest).map fun (f, rest) => (.negation f, rest) := by
  rw [literal, negation]
  cases operand budget rest <;> rfl

section Chain

variable {loose : Bool} {part whole : List Symbol → Reading} {symbols rest : List Symbol}
  {f : Formula} {budget d : Nat}

/-- What reading comes to if the formula needs `d` nested uses of rules. -/
def within (budget d : Nat) (found : Formula × List Symbol) : Reading :=
  if d ≤ budget then .ok found else .error .tooDeep

theorem within_succ (budget d : Nat) (found : Formula × List Symbol) :
    within (budget + 1) (d + 1) found = within budget d found := by
  simp [within]

theorem chain_of_stop (h : part symbols = within budget d (f, rest))
    (hr : connective? loose rest = none) :
    chain loose part whole symbols = within budget d (f, rest) := by
  rw [chain, h]
  by_cases hd : d ≤ budget <;> simp [within, hd, bind, Except.bind, hr, pure, Except.pure]

theorem chain_of_link {op : Connective} {l : String} {t : List Symbol} {g : Formula} {e : Nat}
    (h : part symbols = within budget d (f, ⟨op.token, l⟩ :: t)) (hop : op.isLoose = loose)
    (ht : whole t = within budget e (g, rest)) :
    chain loose part whole symbols = within budget (max d e) (.binary op f g, rest) := by
  rw [chain, h]
  have hmax : max d e ≤ budget ↔ d ≤ budget ∧ e ≤ budget := Nat.max_le
  by_cases hd : d ≤ budget
  · by_cases he : e ≤ budget <;>
      simp [within, hmax, hd, he, ht, hop, bind, Except.bind, pure, Except.pure]
  · simp [within, hmax, hd, bind, Except.bind]

end Chain

/-! ## What is derived is read -/

/-- Symbols that what the rule derives does not go on with. -/
def Rule.Stops : Rule → List Symbol → Prop
  | .disjunction, rest => ∀ loose, connective? loose rest = none
  | .conjunction, rest => connective? false rest = none
  | .literal, _ | .operand, _ => True

theorem Rule.read_zero (rule : Rule) (symbols : List Symbol) :
    rule.read 0 symbols = .error .tooDeep := by
  cases rule <;> rfl

/-- Reading finds the formula of a derivation exactly if the budget covers its depth, and
reports that the budget is spent otherwise. -/
theorem Derives.read {rule : Rule} {s : List Symbol} {f : Formula} {d : Nat}
    (h : Derives rule s f d) {rest : List Symbol} (hr : rule.Stops rest) (budget : Nat) :
    rule.read budget (s ++ rest) = within budget d (f, rest) := by
  induction h generalizing rest budget with
  | var | constTrue | constFalse =>
    cases budget with
    | zero => exact Rule.read_zero _ _
    | succ budget => rfl
  | @group l r s f d _ ih =>
    cases budget with
    | zero => exact Rule.read_zero _ _
    | succ budget =>
      have hstop : Rule.disjunction.Stops (⟨.closeParen, r⟩ :: rest) := fun _ => rfl
      have hread := ih hstop budget
      simp only [Rule.read] at hread ⊢
      rw [List.cons_append, operand_openParen, List.append_assoc, List.singleton_append, hread,
        within_succ]
      by_cases hd : d ≤ budget <;> simp [within, hd, closed, bind, Except.bind]
  | @bare s f d h ih =>
    obtain ⟨head, tail, rfl, hn⟩ := h.operand_eq_cons
    rw [← ih trivial budget]
    exact literal_of_ne_not hn budget (tail ++ rest)
  | @negation l s f d _ ih =>
    have hstop : Rule.operand.Stops rest := trivial
    have hread := ih hstop budget
    simp only [Rule.read] at hread ⊢
    rw [List.cons_append, literal_not, hread]
    by_cases hd : d ≤ budget <;> simp [within, hd, Except.map]
  | literal _ ih =>
    cases budget with
    | zero => exact Rule.read_zero _ _
    | succ budget =>
      rw [within_succ]
      exact (conjunction_succ budget _).trans (chain_of_stop (ih trivial budget) hr)
  | conjunction _ ih =>
    cases budget with
    | zero => exact Rule.read_zero _ _
    | succ budget =>
      rw [within_succ]
      exact (disjunction_succ budget _).trans (chain_of_stop (ih (hr false) budget) (hr true))
  | @tight s f d op l t g e hop _ _ ihs iht =>
    cases budget with
    | zero => exact Rule.read_zero _ _
    | succ budget =>
      rw [within_succ, List.append_assoc, List.cons_append]
      exact (conjunction_succ budget _).trans
        (chain_of_link (ihs trivial budget) hop (iht hr budget))
  | @loose s f d op l t g e hop _ _ ihs iht =>
    cases budget with
    | zero => exact Rule.read_zero _ _
    | succ budget =>
      -- the part in front of a loose connective is a conjunction, which stops there
      have hs : Rule.conjunction.Stops (⟨op.token, l⟩ :: (t ++ rest)) := by
        simp [Rule.Stops, hop]
      rw [within_succ, List.append_assoc, List.cons_append]
      exact (disjunction_succ budget _).trans
        (chain_of_link (ihs hs budget) hop (iht hr budget))

/-! ## What is read is derived -/

/-- A rule takes symbols of the formula it finds from the front. -/
def Sound (rule : Rule) (read : List Symbol → Reading) : Prop :=
  ∀ symbols f rest, read symbols = .ok (f, rest) → ∃ s d, symbols = s ++ rest ∧ Derives rule s f d

theorem chain_eq_ok {loose : Bool} {part whole : List Symbol → Reading}
    {symbols rest : List Symbol} {f : Formula}
    (h : chain loose part whole symbols = .ok (f, rest)) :
    part symbols = .ok (f, rest) ∧ connective? loose rest = none ∨
      ∃ left op l t right, part symbols = .ok (left, ⟨op.token, l⟩ :: t) ∧ op.isLoose = loose ∧
        whole t = .ok (right, rest) ∧ f = .binary op left right := by
  obtain ⟨⟨left, tail⟩, hp, h⟩ := bind_eq_ok.1 h
  cases hc : connective? loose tail with
  | none =>
    simp only [hc] at h
    cases h
    exact .inl ⟨hp, hc⟩
  | some link =>
    obtain ⟨op, t⟩ := link
    obtain ⟨hop, l, rfl⟩ := eq_cons_of_connective? hc
    simp only [hc] at h
    obtain ⟨⟨right, rest'⟩, hw, h⟩ := bind_eq_ok.1 h
    cases h
    exact .inr ⟨left, op, l, t, right, hp, hop, hw, rfl⟩

theorem eq_of_closed {found : Formula × List Symbol} {f : Formula} {rest : List Symbol}
    (h : closed found = .ok (f, rest)) : ∃ r, found = (f, ⟨.closeParen, r⟩ :: rest) := by
  unfold closed at h
  split at h
  next r _ =>
    cases h
    exact ⟨r, rfl⟩
  next => cases h

theorem sound_operand {budget : Nat} (h : Sound .disjunction (disjunction budget)) :
    Sound .operand (operand (budget + 1)) := by
  intro symbols f rest hread
  cases symbols with
  | nil => cases hread
  | cons head tail =>
    obtain ⟨token, lexeme⟩ := head
    cases token with
    | var =>
      cases hread
      exact ⟨_, _, rfl, .var⟩
    | constTrue =>
      cases hread
      exact ⟨_, _, rfl, .constTrue⟩
    | constFalse =>
      cases hread
      exact ⟨_, _, rfl, .constFalse⟩
    | openParen =>
      rw [operand_openParen] at hread
      obtain ⟨found, hd, hclosed⟩ := bind_eq_ok.1 hread
      obtain ⟨r, rfl⟩ := eq_of_closed hclosed
      obtain ⟨s, d, rfl, hs⟩ := h _ _ _ hd
      refine ⟨_, _, ?_, .group (l := lexeme) (r := r) hs⟩
      rw [List.cons_append, List.append_assoc]
      rfl
    | _ => cases hread

theorem sound_literal {budget : Nat} (h : Sound .operand (operand budget)) :
    Sound .literal (literal budget) := by
  intro symbols f rest hread
  cases symbols with
  | nil =>
    obtain ⟨s, d, hs, hd⟩ := h [] f rest (by cases budget <;> cases hread)
    exact ⟨s, d, hs, .bare hd⟩
  | cons head tail =>
    by_cases hn : head.token = .not
    · obtain ⟨token, lexeme⟩ := head
      obtain rfl : token = .not := hn
      rw [literal_not] at hread
      obtain ⟨⟨g, after⟩, ho, hmap⟩ := map_eq_ok.1 hread
      cases hmap
      obtain ⟨s, d, rfl, hs⟩ := h _ _ _ ho
      exact ⟨_, d, rfl, .negation hs⟩
    · rw [literal_of_ne_not hn] at hread
      obtain ⟨s, d, hs, hd⟩ := h _ _ _ hread
      exact ⟨s, d, hs, .bare hd⟩

theorem sound_conjunction {budget : Nat} (hpart : Sound .literal (literal budget))
    (hwhole : Sound .conjunction (conjunction budget)) :
    Sound .conjunction (conjunction (budget + 1)) := by
  intro symbols f rest hread
  rw [conjunction_succ] at hread
  rcases chain_eq_ok hread with ⟨hp, _⟩ | ⟨left, op, l, t, right, hp, hop, hw, rfl⟩
  · obtain ⟨s, d, hs, hd⟩ := hpart _ _ _ hp
    exact ⟨s, _, hs, .literal hd⟩
  · obtain ⟨s, d, rfl, hd⟩ := hpart _ _ _ hp
    obtain ⟨t, e, rfl, he⟩ := hwhole _ _ _ hw
    exact ⟨_, _, (List.append_assoc s (⟨op.token, l⟩ :: t) rest).symm,
      .tight (l := l) hop hd he⟩

theorem sound_disjunction {budget : Nat} (hpart : Sound .conjunction (conjunction budget))
    (hwhole : Sound .disjunction (disjunction budget)) :
    Sound .disjunction (disjunction (budget + 1)) := by
  intro symbols f rest hread
  rw [disjunction_succ] at hread
  rcases chain_eq_ok hread with ⟨hp, _⟩ | ⟨left, op, l, t, right, hp, hop, hw, rfl⟩
  · obtain ⟨s, d, hs, hd⟩ := hpart _ _ _ hp
    exact ⟨s, _, hs, .conjunction hd⟩
  · obtain ⟨s, d, rfl, hd⟩ := hpart _ _ _ hp
    obtain ⟨t, e, rfl, he⟩ := hwhole _ _ _ hw
    exact ⟨_, _, (List.append_assoc s (⟨op.token, l⟩ :: t) rest).symm,
      .loose (l := l) hop hd he⟩

/-- Whatever reading finds has a derivation. -/
theorem Rule.sound_read (budget : Nat) (rule : Rule) : Sound rule (rule.read budget) := by
  induction budget generalizing rule with
  | zero =>
    intro symbols f rest hread
    rw [Rule.read_zero] at hread
    cases hread
  | succ budget ih =>
    have operand : Sound .operand (Grammar.operand (budget + 1)) := sound_operand (ih .disjunction)
    cases rule with
    | disjunction => exact sound_disjunction (ih .conjunction) (ih .disjunction)
    | conjunction => exact sound_conjunction (ih .literal) (ih .conjunction)
    | literal => exact sound_literal operand
    | operand => exact operand

/-! ## One derivation -/

theorem Rule.stops_nil (rule : Rule) : rule.Stops [] := by
  cases rule with
  | disjunction => exact fun _ => rfl
  | conjunction => rfl
  | literal | operand => trivial

/-- The grammar is unambiguous: symbols derived in two ways stand for one formula, and the
derivations nest equally deep. -/
theorem Derives.unique {rule : Rule} {s : List Symbol} {f g : Formula} {d e : Nat}
    (hf : Derives rule s f d) (hg : Derives rule s g e) : f = g ∧ d = e := by
  have key : ∀ budget, within budget d (f, []) = within budget e (g, []) := fun budget => by
    rw [← hf.read rule.stops_nil, ← hg.read rule.stops_nil]
  have hd : (.ok (f, []) : Reading) = within d e (g, []) := by simpa [within] using key d
  have he : within e d (f, []) = .ok (g, []) := by simpa [within] using key e
  unfold within at hd he
  split at hd
  next hle =>
    cases hd
    split at he
    next hge => exact ⟨rfl, Nat.le_antisymm hge hle⟩
    next => cases he
  next => cases hd

end Propositional.Grammar
