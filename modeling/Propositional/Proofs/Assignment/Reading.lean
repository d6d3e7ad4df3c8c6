import Propositional.Proofs.Assignment.Writing
import Propositional.Proofs.Text.Splitting

/-!
# Reading assignments

Only the texts that write assignments are read. In any other text an item that is neither blank nor
an assignment follows items that are, and the error is about the first such item.
-/

namespace Propositional.Assignment

open Text

/-- What is wrong with an item: it does not have one equals sign, or behind its only one stands no
word for a value. -/
inductive Faults : List Char → InputError → Prop where
  | malformed {item} :
      (∃ c ∈ item, isBlank c = false) → item.count '=' ≠ 1 →
      Faults item (.malformedAssignment (String.ofList (trim item)))
  | unknown {item left right} :
      trim item = left ++ '=' :: right → '=' ∉ left → '=' ∉ right →
      (∀ b, ¬ Spells (trim right) b) →
      Faults item (.unknownValue (String.ofList (trim left)) (String.ofList right))

variable {word item left right : List Char} {b : Bool} {a : Assignment}
  {items before after : List (List Char)} {as : List Assignment} {cause : InputError}
  {text : String}

/-! ## Items -/

theorem truthValue?_of_not_spells (h : ∀ b, ¬ Spells word b) : truthValue? word = none :=
  (if_neg (h true)).trans (if_neg (h false))

theorem count_equals_trim (item : List Char) : (trim item).count '=' = item.count '=' :=
  ((padded_trim item).count_eq (by decide)).symm

theorem ofItem_of_count (h : item.count '=' ≠ 1) :
    ofItem item = .error (.malformedAssignment (String.ofList item)) := by
  unfold ofItem
  split
  next hsplit => exact absurd (count_eq_one_iff.2 ⟨_, _, splitOn_eq_pair_iff.1 hsplit⟩) h
  next => rfl

theorem Faults.ofItem_trim (h : Faults item cause) : ofItem (trim item) = .error cause := by
  cases h with
  | malformed _ hcount => exact ofItem_of_count (count_equals_trim item ▸ hcount)
  | unknown hitem hleft hright hword =>
    simp only [ofItem, splitOn_eq_pair_iff.2 ⟨hitem, hleft, hright⟩,
      truthValue?_of_not_spells hword]

/-- An item with a fault is not blank. -/
theorem Faults.not_blank (h : Faults item cause) : ∃ c ∈ item, isBlank c = false := by
  cases h with
  | malformed hblank => exact hblank
  | unknown hitem => exact trim_ne_nil_iff.1 (by simp [hitem])

theorem Faults.not_writesItem (h : Faults item cause) : ¬ WritesItem item a := by
  intro ha
  have herror := h.ofItem_trim
  rw [ha.ofItem_trim] at herror
  cases herror

/-- Blanks around an item go to its label and its word. -/
theorem writesItem_of_split (hitem : trim item = left ++ '=' :: right) (hcomma : ',' ∉ item)
    (hleft : '=' ∉ left) (hword : Spells (trim right) b) :
    WritesItem item { label := String.ofList (trim left), value := b } := by
  obtain ⟨before, after, hbefore, hafter, hsplit⟩ := padded_trim item
  have hlabel : Assignable (String.ofList (trim left)) := by
    constructor <;> rw [String.toList_ofList]
    · intro hc
      refine hcomma (mem_of_mem_trim ?_)
      rw [hitem]
      exact List.mem_append_left _ (mem_of_mem_trim hc)
    · exact fun hc => hleft (mem_of_mem_trim hc)
    · exact tight_trim left
  have hl : Padded (trim left) (before ++ left ++ []) := (padded_trim left).enclose hbefore nofun
  have hr : Padded (trim right) ([] ++ right ++ after) := (padded_trim right).enclose nofun hafter
  have hparts : item = before ++ left ++ [] ++ '=' :: ([] ++ right ++ after) := by
    rw [hsplit, hitem]
    simp
  rw [hparts]
  exact .item hlabel (by rwa [String.toList_ofList]) hword hr

/-- What stands between commas is blank, an assignment, or faulty. -/
theorem writesItem_or_faults (hcomma : ',' ∉ item) (hblank : ∃ c ∈ item, isBlank c = false) :
    (∃ a, WritesItem item a) ∨ ∃ cause, Faults item cause := by
  by_cases hcount : item.count '=' = 1
  · rw [← count_equals_trim] at hcount
    obtain ⟨left, right, hitem, hleft, hright⟩ := count_eq_one_iff.1 hcount
    by_cases hword : ∃ b, Spells (trim right) b
    · obtain ⟨b, hword⟩ := hword
      exact .inl ⟨_, writesItem_of_split hitem hcomma hleft hword⟩
    · exact .inr ⟨_, .unknown hitem hleft hright (not_exists.1 hword)⟩
  · exact .inr ⟨_, .malformed hblank hcount⟩

/-! ## Texts -/

theorem writesItems_or_faults (hcomma : ∀ item ∈ items, ',' ∉ item) :
    (∃ as, WritesItems items as) ∨
      ∃ before item after as cause, items = before ++ item :: after ∧ WritesItems before as ∧
        Faults item cause := by
  induction items with
  | nil => exact .inl ⟨[], .nil⟩
  | cons item items ih =>
    obtain ⟨hitem, hitems⟩ := List.forall_mem_cons.1 hcomma
    by_cases hblank : ∀ c ∈ item, isBlank c
    · rcases ih hitems with ⟨as, has⟩ | ⟨before, item', after, as, cause, rfl, hbefore, hfault⟩
      · exact .inl ⟨as, .blank hblank has⟩
      · exact .inr ⟨item :: before, item', after, as, cause, rfl, .blank hblank hbefore, hfault⟩
    rcases writesItem_or_faults hitem (by simpa using hblank) with ⟨a, ha⟩ | ⟨cause, hfault⟩
    · rcases ih hitems with ⟨as, has⟩ | ⟨before, item', after, as, cause, rfl, hbefore, hfault⟩
      · exact .inl ⟨a :: as, .item ha has⟩
      · exact .inr ⟨item :: before, item', after, a :: as, cause, rfl, .item ha hbefore, hfault⟩
    · exact .inr ⟨[], item, items, [], cause, rfl, .nil, hfault⟩

/-- The first fault ends the reading. -/
theorem ofText_of_faults (hitems : text.toList.splitOn ',' = before ++ item :: after)
    (hbefore : WritesItems before as) (hfault : Faults item cause) :
    ofText text = .error cause := by
  unfold ofText Assignment.items
  rw [hitems, List.map_append, List.filter_append, List.mapM_append, hbefore.mapM_ofItem,
    filter_trim_cons (trim_ne_nil_iff.2 hfault.not_blank), List.mapM_cons, hfault.ofItem_trim]
  rfl

theorem writes_or_faults (text : String) :
    (∃ as, Writes text as) ∨
      ∃ before item after as cause, text.toList.splitOn ',' = before ++ item :: after ∧
        WritesItems before as ∧ Faults item cause := by
  have hcomma : ∀ item ∈ text.toList.splitOn ',', ',' ∉ item := fun _ => not_mem_of_mem_splitOn
  rcases writesItems_or_faults hcomma with ⟨as, has⟩ | hfault
  · exact .inl ⟨as, _, has, (List.intercalate_splitOn ',').symm⟩
  · exact .inr hfault

/-- Exactly the texts that write assignments are read as these. The error for any other text is the
fault of an item behind items that are assignments or blank. -/
theorem ofText_iff (text : String) :
    (∀ as, ofText text = .ok as ↔ Writes text as) ∧
      ∀ cause, ofText text = .error cause ↔
        ∃ before item after as, text.toList.splitOn ',' = before ++ item :: after ∧
          WritesItems before as ∧ (∃ c ∈ item, isBlank c = false) ∧
          (∀ a, ¬ WritesItem item a) ∧ Faults item cause := by
  refine ⟨fun as => ⟨fun h => ?_, ofText_of_writes⟩, fun cause => ⟨fun h => ?_, ?_⟩⟩
  · rcases writes_or_faults text with
      ⟨as', has⟩ | ⟨before, item, after, as', cause, hitems, hbefore, hfault⟩
    · rw [ofText_of_writes has, Except.ok.injEq] at h
      rwa [← h]
    · rw [ofText_of_faults hitems hbefore hfault] at h
      cases h
  · rcases writes_or_faults text with
      ⟨as, has⟩ | ⟨before, item, after, as, cause', hitems, hbefore, hfault⟩
    · rw [ofText_of_writes has] at h
      cases h
    · rw [ofText_of_faults hitems hbefore hfault] at h
      cases h
      exact ⟨before, item, after, as, hitems, hbefore, hfault.not_blank,
        fun _ => hfault.not_writesItem, hfault⟩
  · rintro ⟨before, item, after, as, hitems, hbefore, -, -, hfault⟩
    exact ofText_of_faults hitems hbefore hfault

end Propositional.Assignment
