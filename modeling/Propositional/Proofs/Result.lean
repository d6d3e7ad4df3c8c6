/-!
# Results

When a computation that can fail succeeds, told by what it is put together from.
-/

namespace Propositional

variable {ε ε' α β : Type} {x : Except ε α}

theorem bind_eq_ok {f : α → Except ε β} {b : β} :
    x >>= f = .ok b ↔ ∃ a, x = .ok a ∧ f a = .ok b := by
  cases x <;> simp [bind, Except.bind]

theorem map_eq_ok {f : α → β} {b : β} : x.map f = .ok b ↔ ∃ a, x = .ok a ∧ f a = b := by
  cases x <;> simp [Except.map]

theorem bind_eq_error {f : α → Except ε β} {e : ε} :
    x >>= f = .error e ↔ x = .error e ∨ ∃ a, x = .ok a ∧ f a = .error e := by
  cases x <;> simp [bind, Except.bind]

theorem map_eq_error {f : α → β} {e : ε} : x.map f = .error e ↔ x = .error e := by
  cases x <;> simp [Except.map]

theorem mapError_eq_ok {f : ε → ε'} {a : α} : x.mapError f = .ok a ↔ x = .ok a := by
  cases x with
  | error => exact ⟨nofun, nofun⟩
  | ok b =>
    constructor
    · intro h
      cases h
      rfl
    · intro h
      cases h
      rfl

theorem mapError_eq_error {f : ε → ε'} {e : ε'} :
    x.mapError f = .error e ↔ ∃ cause, x = .error cause ∧ f cause = e := by
  cases x with
  | error cause =>
    constructor
    · intro h
      cases h
      exact ⟨cause, rfl, rfl⟩
    · rintro ⟨_, h, rfl⟩
      cases h
      rfl
  | ok => exact ⟨nofun, nofun⟩

theorem toOption_eq_some {a : α} : x.toOption = some a ↔ x = .ok a := by
  cases x <;> simp [Except.toOption]

theorem mapM_eq_ok_map {f : α → Except ε β} {value : α → β} {as : List α}
    (h : ∀ a ∈ as, f a = .ok (value a)) : as.mapM f = .ok (as.map value) := by
  induction as with
  | nil => rfl
  | cons a as ih =>
    obtain ⟨ha, has⟩ := List.forall_mem_cons.1 h
    rw [List.mapM_cons, ha, ih has]
    rfl

/-- An action that succeeds on every entry gives as many results. -/
theorem exists_mapM_eq_ok {f : α → Except ε β} {as : List α}
    (h : ∀ a ∈ as, ∃ b, f a = .ok b) : ∃ bs, as.mapM f = .ok bs ∧ bs.length = as.length := by
  induction as with
  | nil => exact ⟨[], rfl, rfl⟩
  | cons a as ih =>
    obtain ⟨⟨b, hb⟩, has⟩ := List.forall_mem_cons.1 h
    obtain ⟨bs, hbs, hlength⟩ := ih has
    refine ⟨b :: bs, ?_, congrArg (· + 1) hlength⟩
    rw [List.mapM_cons, hb, hbs]
    rfl

theorem mapM_eq_error {f : α → Except ε β} {as : List α} {e : ε} (hne : as ≠ [])
    (h : ∀ a ∈ as, f a = .error e) : as.mapM f = .error e := by
  obtain ⟨a, as, rfl⟩ := List.exists_cons_of_ne_nil hne
  rw [List.mapM_cons, h a List.mem_cons_self]
  rfl

theorem forall_mem_of_mapM_eq_ok {f : α → Except ε β} {as : List α} {bs : List β}
    (h : as.mapM f = .ok bs) : ∀ a ∈ as, ∃ b, f a = .ok b := by
  induction as generalizing bs with
  | nil => nofun
  | cons a as ih =>
    rw [List.mapM_cons] at h
    obtain ⟨b, hb, h⟩ := bind_eq_ok.1 h
    obtain ⟨bs, hbs, -⟩ := bind_eq_ok.1 h
    exact List.forall_mem_cons.2 ⟨⟨b, hb⟩, ih hbs⟩

/-- What every success on an entry is like, all results are like. -/
theorem results_of_mapM_eq_ok {f : α → Except ε β} {P : β → Prop} {as : List α}
    {bs : List β} (h : as.mapM f = .ok bs) (hf : ∀ a ∈ as, ∀ b, f a = .ok b → P b) :
    bs.length = as.length ∧ ∀ b ∈ bs, P b := by
  induction as generalizing bs with
  | nil =>
    cases h
    exact ⟨rfl, nofun⟩
  | cons a as ih =>
    obtain ⟨hfa, hfas⟩ := List.forall_mem_cons.1 hf
    rw [List.mapM_cons] at h
    obtain ⟨b, hb, h⟩ := bind_eq_ok.1 h
    obtain ⟨bs, hbs, h⟩ := bind_eq_ok.1 h
    cases h
    obtain ⟨hlength, hall⟩ := ih hbs hfas
    exact ⟨congrArg (· + 1) hlength, List.forall_mem_cons.2 ⟨hfa b hb, hall⟩⟩

theorem exists_mem_of_mapM_eq_error {f : α → Except ε β} {as : List α} {e : ε}
    (h : as.mapM f = .error e) : ∃ a ∈ as, f a = .error e := by
  induction as with
  | nil => cases h
  | cons a as ih =>
    rw [List.mapM_cons] at h
    rcases bind_eq_error.1 h with h | ⟨b, -, h⟩
    · exact ⟨a, List.mem_cons_self, h⟩
    rcases bind_eq_error.1 h with h | ⟨_, _, h⟩
    · obtain ⟨a', ha', h⟩ := ih h
      exact ⟨a', List.mem_cons_of_mem _ ha', h⟩
    · cases h

/-! ## Two computations -/

section

variable {α' β' : Type} {E : ε → ε' → Prop} {R : α → α' → Prop} {S : β → β' → Prop}
  {x' : Except ε' α'}

/-- Two outcomes are alike if both succeed with related results or both fail with related errors. -/
inductive Alike (E : ε → ε' → Prop) (R : α → α' → Prop) : Except ε α → Except ε' α' → Prop where
  | ok {a a'} : R a a' → Alike E R (.ok a) (.ok a')
  | error {e e'} : E e e' → Alike E R (.error e) (.error e')

theorem Alike.bind {f : α → Except ε β} {f' : α' → Except ε' β'} (h : Alike E R x x')
    (hf : ∀ a a', R a a' → Alike E S (f a) (f' a')) : Alike E S (x >>= f) (x' >>= f') := by
  cases h with
  | ok ha => exact hf _ _ ha
  | error he => exact .error he

theorem Alike.map {E' : ε → ε' → Prop} {f : α → β} {f' : α' → β'} (h : Alike E R x x')
    (he : ∀ e e', E e e' → E' e e') (hf : ∀ a a', x = .ok a → R a a' → S (f a) (f' a')) :
    Alike E' S (x.map f) (x'.map f') := by
  cases h with
  | ok ha => exact .ok (hf _ _ rfl ha)
  | error h => exact .error (he _ _ h)

theorem Alike.eq_ok_iff {x' : Except ε' α} (h : Alike E (fun a a' => a' = a) x x') {a : α} :
    x = .ok a ↔ x' = .ok a := by
  cases h with
  | ok ha => rw [ha, Except.ok.injEq, Except.ok.injEq]
  | error => exact ⟨nofun, nofun⟩

theorem Alike.mapError {δ δ' : Type} {D : δ → δ' → Prop} {f : ε → δ} {f' : ε' → δ'}
    (h : Alike E R x x') (hf : ∀ e e', E e e' → D (f e) (f' e')) :
    Alike D R (x.mapError f) (x'.mapError f') := by
  cases h with
  | ok ha => exact .ok ha
  | error he => exact .error (hf _ _ he)

end

end Propositional
