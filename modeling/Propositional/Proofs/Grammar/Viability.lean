import Propositional.Proofs.Grammar.Acceptance

/-!
# Viable prefixes

A rule that fails has looked at nothing beyond the symbol at which it fails, and what it took
before that symbol can still be completed: at each of its faults either an operand or a closing
parenthesis would have let it go on, and the budget that was enough to get there is enough to
come back. So an error of grammar names the first symbol after which all hope is lost.
-/

namespace Propositional

open Grammar

namespace Grammar

/-! ## Where rules end -/

/-- Where a chain ends, its last operand ends too and no connective of the chain follows. -/
theorem Rule.stops_whole {loose : Bool} {rest : List Symbol} (h : (whole loose).Stops rest) :
    (part loose).Stops rest ∧ connective? loose rest = none := by
  cases loose with
  | false => exact ⟨trivial, h⟩
  | true => exact ⟨h false, h true⟩

/-- An operand of a chain ends at the next connective. -/
theorem Rule.stops_part {loose : Bool} {op : Connective} (hop : op.isLoose = loose) (l : String)
    (rest : List Symbol) : (part loose).Stops (⟨op.token, l⟩ :: rest) := by
  cases loose with
  | false => exact trivial
  | true => simp [part, Stops, hop]

theorem Rule.stops_closeParen (rule : Rule) (r : String) (rest : List Symbol) :
    rule.Stops (⟨.closeParen, r⟩ :: rest) := by
  cases rule with
  | disjunction => exact fun _ => rfl
  | conjunction => rfl
  | literal | operand => trivial

theorem connective?_cons_congr {loose : Bool} {x : Symbol} {t : List Symbol}
    (h : connective? loose (x :: t) = none) (t' : List Symbol) :
    connective? loose (x :: t') = none := by
  rw [connective?] at h ⊢
  cases hop : x.token.connective? with
  | none => rfl
  | some op =>
    by_cases hl : op.isLoose = loose
    · simp [hop, hl] at h
    · simp [hl]

/-- Whether a rule ends depends on the next symbol only. -/
theorem Rule.stops_cons_congr {rule : Rule} {x : Symbol} {t : List Symbol}
    (h : rule.Stops (x :: t)) (t' : List Symbol) : rule.Stops (x :: t') := by
  cases rule with
  | disjunction => exact fun loose => connective?_cons_congr (h loose) t'
  | conjunction => exact connective?_cons_congr h t'
  | literal | operand => trivial

/-! ## Chains of either kind -/

section Chain

variable {loose : Bool} {part whole : List Symbol → Reading} {s t rest : List Symbol}
  {f g : Formula} {cause : SyntaxError}

theorem chain_of_end (h : part s = .ok (f, rest)) (hr : connective? loose rest = none) :
    chain loose part whole s = .ok (f, rest) := by
  rw [chain, h]
  simp only [bind, Except.bind, hr]
  rfl

theorem chain_of_connective {op : Connective} {l : String} (hop : op.isLoose = loose)
    (h : part s = .ok (f, ⟨op.token, l⟩ :: t)) :
    chain loose part whole s = (whole t).map fun (g, rest) => (.binary op f g, rest) := by
  rw [chain, h]
  simp only [bind, Except.bind, connective?_token_cons, if_pos hop]
  cases whole t <;> rfl

theorem chain_of_error (h : part s = .error cause) : chain loose part whole s = .error cause := by
  rw [chain, h]
  rfl

/-- A chain fails in its first operand or after its first connective. -/
theorem chain_eq_error (h : chain loose part whole s = .error cause) :
    part s = .error cause ∨
      ∃ (f : Formula) (op : Connective) (l : String) (t : List Symbol),
        part s = .ok (f, ⟨op.token, l⟩ :: t) ∧ op.isLoose = loose ∧ whole t = .error cause := by
  cases hp : part s with
  | error e =>
    rw [chain_of_error hp] at h
    exact .inl h
  | ok found =>
    obtain ⟨f, tail⟩ := found
    cases hc : connective? loose tail with
    | none =>
      rw [chain_of_end hp hc] at h
      cases h
    | some link =>
      obtain ⟨op, t⟩ := link
      obtain ⟨hop, l, rfl⟩ := eq_cons_of_connective? hc
      rw [chain_of_connective hop hp] at h
      exact .inr ⟨f, op, l, t, rfl, hop, map_eq_error.1 h⟩

end Chain

/-! ## What is read does not depend on what follows -/

/-- A rule takes as much as it can. -/
theorem Rule.stops_of_read {budget : Nat} {rule : Rule} {s rest : List Symbol} {f : Formula}
    (h : rule.read budget s = .ok (f, rest)) : rule.Stops rest := by
  induction budget generalizing rule s f rest with
  | zero =>
    rw [Rule.read_zero] at h
    cases h
  | succ budget ih =>
    cases rule with
    | literal | operand => trivial
    | conjunction =>
      rcases chain_eq_ok (Rule.read_whole false budget ▸ h) with
        ⟨_, hend⟩ | ⟨_, _, _, _, _, _, _, hwhole, _⟩
      · exact hend
      · exact ih hwhole
    | disjunction =>
      rcases chain_eq_ok (Rule.read_whole true budget ▸ h) with
        ⟨hpart, hend⟩ | ⟨_, _, _, _, _, _, _, hwhole, _⟩
      · rintro (_ | _)
        · exact ih hpart
        · exact hend
      · exact ih hwhole

/-- What a rule takes it takes whatever comes after, as long as the rule ends there. -/
theorem Rule.read_frame {budget : Nat} {rule : Rule} {s rest : List Symbol} {f : Formula}
    (h : rule.read budget s = .ok (f, rest)) :
    ∃ p, s = p ++ rest ∧
      ∀ rest', rule.Stops rest' → rule.read budget (p ++ rest') = .ok (f, rest') := by
  obtain ⟨p, d, rfl, hd⟩ := Rule.sound_read budget rule _ _ _ h
  refine ⟨p, rfl, fun rest' hstop => ?_⟩
  rw [hd.read (Rule.stops_of_read h), within] at h
  rw [hd.read hstop, within]
  split at h
  next hle => rw [if_pos hle]
  next => cases h

/-! ## Faults -/

/-- Reading fails after the symbols `p`, at the symbol `fault` or at the end of the symbols if
there is none: something completes `p`, and nothing that comes later mends the fault. -/
structure FailsAt (rule : Rule) (read : List Symbol → Reading) (p : List Symbol)
    (fault : Option Symbol) (cause : SyntaxError) : Prop where
  completable : ∃ c f, c ≠ [] ∧ ∀ rest, rule.Stops rest → read (p ++ (c ++ rest)) = .ok (f, rest)
  hopeless : ∀ x ∈ fault, ∀ t, read (p ++ x :: t) = .error cause

/-- Every error but that of a spent budget has its place. -/
def Locates (rule : Rule) (read : List Symbol → Reading) : Prop :=
  ∀ s cause, read s = .error cause → cause ≠ .tooDeep →
    ∃ p q, s = p ++ q ∧ FailsAt rule read p q.head? cause

section Operand

variable {budget : Nat} {p s rest : List Symbol} {fault : Option Symbol} {f : Formula}
  {cause : SyntaxError}

/-- Where an operand is expected one can be put. -/
theorem failsAt_operand (h : ∀ x ∈ fault, ∀ t, operand (budget + 1) (x :: t) = .error cause) :
    FailsAt .operand (operand (budget + 1)) [] fault cause where
  completable := ⟨[⟨.var, ""⟩], .var "", List.cons_ne_nil _ _, fun _ _ => rfl⟩
  hopeless := h

theorem FailsAt.group (h : FailsAt .disjunction (disjunction budget) p fault cause) (l : String) :
    FailsAt .operand (operand (budget + 1)) (⟨.openParen, l⟩ :: p) fault cause where
  completable := by
    obtain ⟨c, f, _, hread⟩ := h.completable
    refine ⟨c ++ [⟨.closeParen, ")"⟩], f, by simp, fun rest _ => ?_⟩
    rw [List.cons_append, operand_openParen, List.append_assoc, List.singleton_append,
      hread _ (Rule.stops_closeParen _ _ _)]
    rfl
  hopeless x hx t := by
    rw [List.cons_append, operand_openParen, h.hopeless x hx t]
    rfl

theorem closed_of_ne {x : Symbol} (h : x.token ≠ .closeParen) (f : Formula) (t : List Symbol) :
    closed (f, x :: t) = .error .unclosed := by
  unfold closed
  split
  next heq =>
    cases heq
    exact absurd rfl h
  next => rfl

theorem closed_eq_error (h : closed (f, rest) = .error cause) :
    cause = .unclosed ∧ ∀ x ∈ rest.head?, x.token ≠ .closeParen := by
  cases rest with
  | nil =>
    cases h
    exact ⟨rfl, nofun⟩
  | cons x t =>
    by_cases hx : x.token = .closeParen
    · obtain ⟨token, lexeme⟩ := x
      obtain rfl : token = .closeParen := hx
      cases h
    · rw [closed_of_ne hx] at h
      cases h
      refine ⟨rfl, fun y hy => ?_⟩
      cases hy
      exact hx

/-- Where a closing parenthesis is missing one can be put. -/
theorem failsAt_unclosed (h : disjunction budget s = .ok (f, rest))
    (hne : ∀ x ∈ rest.head?, x.token ≠ .closeParen) (l : String) :
    ∃ p, s = p ++ rest ∧
      FailsAt .operand (operand (budget + 1)) (⟨.openParen, l⟩ :: p) rest.head? .unclosed := by
  have hrule : Rule.disjunction.read budget s = .ok (f, rest) := h
  have hstop := Rule.stops_of_read hrule
  obtain ⟨p, hp, hframe⟩ := Rule.read_frame hrule
  have hread : ∀ rest', Rule.disjunction.Stops rest' →
      disjunction budget (p ++ rest') = .ok (f, rest') := hframe
  refine ⟨p, hp, ?_, ?_⟩
  · refine ⟨[⟨.closeParen, ")"⟩], f, List.cons_ne_nil _ _, fun rest' _ => ?_⟩
    rw [List.cons_append, operand_openParen, List.singleton_append,
      hread _ (Rule.stops_closeParen _ _ _)]
    rfl
  · intro x hx t
    obtain ⟨tail, rfl⟩ := List.head?_eq_some_iff.1 hx
    rw [List.cons_append, operand_openParen, hread _ (Rule.stops_cons_congr hstop t)]
    exact closed_of_ne (hne x hx) f t

theorem locates_operand (h : Locates .disjunction (disjunction budget)) :
    Locates .operand (operand (budget + 1)) := by
  intro s cause hs hdeep
  cases s with
  | nil =>
    cases hs
    exact ⟨[], [], rfl, failsAt_operand nofun⟩
  | cons head tail =>
    obtain ⟨token, lexeme⟩ := head
    cases token with
    | var | constTrue | constFalse => cases hs
    | openParen =>
      rw [operand_openParen] at hs
      rcases bind_eq_error.1 hs with hd | ⟨⟨f, rest⟩, hd, hclosed⟩
      · obtain ⟨p, q, rfl, hp⟩ := h _ _ hd hdeep
        exact ⟨_, q, rfl, hp.group lexeme⟩
      · obtain ⟨rfl, hne⟩ := closed_eq_error hclosed
        obtain ⟨p, rfl, hp⟩ := failsAt_unclosed hd hne lexeme
        exact ⟨_, rest, rfl, hp⟩
    | _ =>
      cases hs
      refine ⟨[], _, rfl, failsAt_operand fun x hx t => ?_⟩
      cases hx
      rfl

end Operand

section Literal

variable {budget : Nat} {p s : List Symbol} {fault : Option Symbol} {cause : SyntaxError}

theorem literal_of_operand {found : Formula × List Symbol} (h : operand budget s = .ok found) :
    literal budget s = .ok found := by
  cases s with
  | nil => cases budget <;> cases h
  | cons head tail =>
    by_cases hn : head.token = .not
    · obtain ⟨token, lexeme⟩ := head
      obtain rfl : token = .not := hn
      cases budget <;> cases h
    · rw [literal_of_ne_not hn, h]

theorem FailsAt.bare (h : FailsAt .operand (operand budget) p fault cause)
    (hnot : ∀ x ∈ fault, ∀ t, literal budget (p ++ x :: t) = operand budget (p ++ x :: t)) :
    FailsAt .literal (literal budget) p fault cause where
  completable := by
    obtain ⟨c, f, hc, hread⟩ := h.completable
    exact ⟨c, f, hc, fun rest _ => literal_of_operand (hread rest trivial)⟩
  hopeless x hx t := (hnot x hx t).trans (h.hopeless x hx t)

theorem FailsAt.negation (h : FailsAt .operand (operand budget) p fault cause) (l : String) :
    FailsAt .literal (literal budget) (⟨.not, l⟩ :: p) fault cause where
  completable := by
    obtain ⟨c, f, hc, hread⟩ := h.completable
    refine ⟨c, .negation f, hc, fun rest _ => ?_⟩
    rw [List.cons_append, literal_not, hread rest trivial]
    rfl
  hopeless x hx t := by
    rw [List.cons_append, literal_not, h.hopeless x hx t]
    rfl

theorem locates_literal (h : Locates .operand (operand budget)) :
    Locates .literal (literal budget) := by
  intro s cause hs hdeep
  cases s with
  | nil =>
    obtain ⟨p, q, hpq, hp⟩ := h [] cause (by cases budget <;> exact hs) hdeep
    obtain ⟨rfl, rfl⟩ := List.append_eq_nil_iff.1 hpq.symm
    exact ⟨[], [], rfl, hp.bare nofun⟩
  | cons head tail =>
    by_cases hn : head.token = .not
    · obtain ⟨token, lexeme⟩ := head
      obtain rfl : token = .not := hn
      rw [literal_not] at hs
      obtain ⟨p, q, rfl, hp⟩ := h tail cause (map_eq_error.1 hs) hdeep
      exact ⟨_, q, rfl, hp.negation lexeme⟩
    · rw [literal_of_ne_not hn] at hs
      obtain ⟨p, q, hpq, hp⟩ := h _ cause hs hdeep
      refine ⟨p, q, hpq, hp.bare fun x hx t => ?_⟩
      -- the head is the same, be it part of the prefix or the fault itself
      cases p with
      | nil =>
        obtain rfl : head :: tail = q := hpq
        cases hx
        exact literal_of_ne_not hn budget t
      | cons y p =>
        obtain rfl : head = y := (List.cons.inj hpq).1
        exact literal_of_ne_not hn budget _

end Literal

section Chain

variable {loose : Bool} {part whole : List Symbol → Reading} {p : List Symbol}
  {fault : Option Symbol} {cause : SyntaxError}

theorem FailsAt.first (h : FailsAt (.part loose) part p fault cause) :
    FailsAt (.whole loose) (chain loose part whole) p fault cause where
  completable := by
    obtain ⟨c, f, hc, hread⟩ := h.completable
    refine ⟨c, f, hc, fun rest hstop => ?_⟩
    obtain ⟨hpart, hend⟩ := Rule.stops_whole hstop
    exact chain_of_end (hread rest hpart) hend
  hopeless x hx t := chain_of_error (h.hopeless x hx t)

theorem FailsAt.later {f : Formula} {op : Connective} {s : List Symbol}
    (hs : ∀ rest, (Rule.part loose).Stops rest → part (s ++ rest) = .ok (f, rest))
    (hop : op.isLoose = loose) (h : FailsAt (.whole loose) whole p fault cause) (l : String) :
    FailsAt (.whole loose) (chain loose part whole) (s ++ ⟨op.token, l⟩ :: p) fault cause where
  completable := by
    obtain ⟨c, g, hc, hread⟩ := h.completable
    refine ⟨c, .binary op f g, hc, fun rest hstop => ?_⟩
    rw [List.append_assoc, List.cons_append,
      chain_of_connective hop (hs _ (Rule.stops_part hop l _)), hread rest hstop]
    rfl
  hopeless x hx t := by
    rw [List.append_assoc, List.cons_append,
      chain_of_connective hop (hs _ (Rule.stops_part hop l _)), h.hopeless x hx t]
    rfl

theorem locates_chain (loose : Bool) {budget : Nat}
    (hpart : Locates (.part loose) ((Rule.part loose).read budget))
    (hwhole : Locates (.whole loose) ((Rule.whole loose).read budget)) :
    Locates (.whole loose) ((Rule.whole loose).read (budget + 1)) := by
  intro s cause hs hdeep
  rw [Rule.read_whole] at hs ⊢
  rcases chain_eq_error hs with hp | ⟨f, op, l, t, hp, hop, hw⟩
  · obtain ⟨p, q, rfl, hfails⟩ := hpart s cause hp hdeep
    exact ⟨p, q, rfl, hfails.first⟩
  · obtain ⟨p₀, rfl, hframe⟩ := Rule.read_frame hp
    obtain ⟨p, q, rfl, hfails⟩ := hwhole t cause hw hdeep
    exact ⟨_, q, (List.append_assoc p₀ (⟨op.token, l⟩ :: p) q).symm, hfails.later hframe hop l⟩

end Chain

/-- Wherever reading fails for want of anything but budget, the fault has its place. -/
theorem Rule.locates (budget : Nat) (rule : Rule) : Locates rule (rule.read budget) := by
  induction budget generalizing rule with
  | zero =>
    intro s cause hs hdeep
    rw [Rule.read_zero] at hs
    cases hs
    exact absurd rfl hdeep
  | succ budget ih =>
    have operand : Locates .operand (Grammar.operand (budget + 1)) :=
      locates_operand (ih .disjunction)
    cases rule with
    | disjunction => exact locates_chain true (ih .conjunction) (ih .disjunction)
    | conjunction => exact locates_chain false (ih .literal) (ih .conjunction)
    | literal => exact locates_literal operand
    | operand => exact operand

end Grammar

/-! ## Whole lists of symbols -/

namespace Formula

theorem ofSymbols_of_ne_nil {s : List Symbol} (h : s ≠ []) :
    ofSymbols s = (disjunction depthLimit s >>= complete).mapError .grammar := by
  have hs : s.isEmpty = false := by simpa using h
  rw [ofSymbols, hs]
  rfl

theorem ofSymbols_of_read {s rest : List Symbol} {f : Formula}
    (h : disjunction depthLimit s = .ok (f, rest)) :
    ofSymbols s = (complete (f, rest)).mapError .grammar := by
  obtain ⟨p, d, rfl, hd⟩ := Rule.sound_read depthLimit .disjunction _ _ _ h
  rw [ofSymbols_of_ne_nil (by simp [hd.ne_nil]), h]
  rfl

/-- Symbols that stand for nothing, for another reason than the budget, fall into a part that can
be completed and a rest whose first symbol, if there is one, makes everything fail alike. -/
theorem ofSymbols_fault {s : List Symbol} {cause : SyntaxError}
    (h : ofSymbols s = .error (.grammar cause)) (hdeep : cause ≠ .tooDeep) :
    ∃ p q, s = p ++ q ∧ (∃ c f, (q = [] → c ≠ []) ∧ ofSymbols (p ++ c) = .ok f) ∧
      ∀ x ∈ q.head?, ∀ t, ofSymbols (p ++ x :: t) = .error (.grammar cause) := by
  have hne : s ≠ [] := by
    rintro rfl
    cases h
  rw [ofSymbols_of_ne_nil hne] at h
  obtain ⟨cause, hread, hcause⟩ := mapError_eq_error.1 h
  cases hcause
  rcases bind_eq_error.1 hread with hd | ⟨⟨f, rest⟩, hd, hrest⟩
  · obtain ⟨p, q, rfl, ⟨c, f, hc, hcomplete⟩, hhopeless⟩ :=
      Rule.locates depthLimit .disjunction s cause hd hdeep
    refine ⟨p, q, rfl, ⟨c, f, fun _ => hc, ?_⟩, fun x hx t => ?_⟩
    · have hread := hcomplete [] (Rule.stops_nil _)
      rw [List.append_nil] at hread
      exact ofSymbols_of_read hread
    · have hread : disjunction depthLimit (p ++ x :: t) = .error cause := hhopeless x hx t
      rw [ofSymbols_of_ne_nil (by simp), hread]
      rfl
  · cases rest with
    | nil => cases hrest
    | cons x rest =>
      cases hrest
      have hrule : Rule.disjunction.read depthLimit s = .ok (f, x :: rest) := hd
      have hstop := Rule.stops_of_read hrule
      obtain ⟨p, rfl, hframe⟩ := Rule.read_frame hrule
      refine ⟨p, x :: rest, rfl, ⟨[], f, nofun, ?_⟩, fun y hy t => ?_⟩
      · exact ofSymbols_of_read (hframe [] (Rule.stops_nil _))
      · cases hy
        exact ofSymbols_of_read (hframe _ (Rule.stops_cons_congr hstop t))

end Formula

namespace Expression

theorem ofSymbols_of_formula {s : List Symbol} {f : Formula} (h : Formula.ofSymbols s = .ok f) :
    ofSymbols s = .ok (ofFormula f) := by
  rw [ofSymbols, h]
  rfl

/-- An error of grammar, unless the budget is spent, is reported at the first symbol that leaves
no hope: the symbols before it begin a list that stands for an expression, and every list that
begins with them and with it has the very same error. Where the symbols end too early they
begin a longer list that stands for an expression. -/
theorem ofSymbols_viable_prefix {s : List Symbol} {cause : SyntaxError}
    (h : ofSymbols s = .error (.grammar cause)) (hdeep : cause ≠ .tooDeep) :
    ∃ k ≤ s.length,
      (∃ t e, ofSymbols (s.take k ++ t) = .ok e) ∧
      (k < s.length → ∀ t, s.take (k + 1) <+: t → ofSymbols t = .error (.grammar cause)) ∧
      (k = s.length → ∃ t e, t ≠ [] ∧ ofSymbols (s ++ t) = .ok e) := by
  obtain ⟨p, q, rfl, ⟨c, f, hc, hok⟩, hfault⟩ :=
    Formula.ofSymbols_fault (map_eq_error.1 h) hdeep
  refine ⟨p.length, by simp, ?_, ?_, ?_⟩
  · rw [List.take_left]
    exact ⟨c, _, ofSymbols_of_formula hok⟩
  · intro hlt t ht
    cases q with
    | nil => simp at hlt
    | cons x q =>
      have htake : (p ++ x :: q).take (p.length + 1) = p ++ [x] := by
        rw [List.take_length_add_append]
        rfl
      rw [htake] at ht
      obtain ⟨rest, rfl⟩ := ht
      rw [List.append_assoc, List.singleton_append]
      exact ofSymbols_of_error (hfault x rfl rest)
  · intro heq
    obtain rfl : q = [] := by simpa using heq
    rw [List.append_nil]
    exact ⟨c, _, hc rfl, ofSymbols_of_formula hok⟩

/-- In `(A ~ B` the fault is the negation sign, after two symbols. -/
theorem ofSymbols_viable_prefix_unclosed :
    let s : List Symbol := [⟨.openParen, "("⟩, ⟨.var, "A"⟩, ⟨.not, "~"⟩, ⟨.var, "B"⟩]
    ofSymbols s = .error (.grammar .unclosed) ∧ SyntaxError.unclosed ≠ .tooDeep ∧
    ∃ k ≤ s.length,
      (∃ t e, ofSymbols (s.take k ++ t) = .ok e) ∧
      (k < s.length → ∀ t, s.take (k + 1) <+: t → ofSymbols t = .error (.grammar .unclosed)) ∧
      (k = s.length → ∃ t e, t ≠ [] ∧ ofSymbols (s ++ t) = .ok e) := by
  intro s
  have h : ofSymbols s = .error (.grammar .unclosed) := rfl
  have hdeep : SyntaxError.unclosed ≠ .tooDeep := nofun
  exact ⟨h, hdeep, ofSymbols_viable_prefix h hdeep⟩

end Expression

end Propositional
