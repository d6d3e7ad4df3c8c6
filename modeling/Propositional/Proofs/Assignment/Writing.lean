import Propositional.Assignment
import Propositional.Proofs.Symbol.Lexing
import Propositional.Proofs.Text.Trim

/-!
# Writing assignments

The texts that write a list of assignments: items between commas, each a label, an equals sign
and a word for the value, with blanks around labels and words, and blank items anywhere. Every
such text is read as the list.
-/

namespace Propositional

open Text

/-- A label that can stand in front of an equals sign. -/
structure Assignable (label : String) : Prop where
  comma : ',' ∉ label.toList
  equals : '=' ∉ label.toList
  tight : Tight label.toList

namespace Assignment

/-- A word for a truth value, in small or capital letters or both. -/
def Spells (word : List Char) (b : Bool) : Prop :=
  String.ofList (word.map Char.toLower) ∈ spellings b

instance (word : List Char) (b : Bool) : Decidable (Spells word b) :=
  inferInstanceAs (Decidable (_ ∈ _))

/-- An item that writes an assignment. -/
inductive WritesItem : List Char → Assignment → Prop where
  | item {left right word a} :
      Assignable a.label → Padded a.label.toList left → Spells word a.value → Padded word right →
      WritesItem (left ++ '=' :: right) a

/-- Items that write assignments in order, and blank ones. -/
inductive WritesItems : List (List Char) → List Assignment → Prop where
  | nil : WritesItems [] []
  | blank {item items as} :
      (∀ c ∈ item, isBlank c) → WritesItems items as →
      WritesItems (item :: items) as
  | item {item a items as} :
      WritesItem item a → WritesItems items as →
      WritesItems (item :: items) (a :: as)

/-- A text that writes assignments in order. -/
def Writes (text : String) (as : List Assignment) : Prop :=
  ∃ items, WritesItems items as ∧ text.toList = [','].intercalate items

variable {word item left right : List Char} {b : Bool} {a : Assignment} {items : List (List Char)}
  {as : List Assignment}

/-! ## Words -/

theorem isAlphanum_of_toLower {c : Char} (h : c.toLower.isAlphanum) : c.isAlphanum := by
  by_cases hc : 'A'.val ≤ c.val ∧ c.val ≤ 'Z'.val
  · have hupper : c.isUpper := decide_eq_true hc
    have hclasses : c.isAlphanum = (c.isUpper || c.isLower || c.isDigit) := rfl
    rw [hclasses, hupper, Bool.true_or, Bool.true_or]
  · have hsame : c.toLower = c := dif_neg hc
    rwa [hsame] at h

theorem Spells.isNameChar (h : Spells word b) {c : Char} (hc : c ∈ word) : isNameChar c := by
  have hspellings : (spellings b).all fun spelling => spelling.toList.all Char.isAlphanum := by
    cases b <;> decide
  have hlower : c.toLower.isAlphanum :=
    List.all_eq_true.1 (List.all_eq_true.1 hspellings _ h) _ (by simpa using ⟨c, hc, rfl⟩)
  simp [Propositional.isNameChar, isAlphanum_of_toLower hlower]

theorem tight_of_isNameChar (h : ∀ c ∈ word, isNameChar c) : Tight word where
  head c hc := isBlank_of_isNameChar (h c (List.mem_of_mem_head? hc))
  last c hc := isBlank_of_isNameChar (h c (List.mem_of_mem_getLast? hc))

theorem truthValue?_of_spells (h : Spells word b) : truthValue? word = some b := by
  unfold truthValue?
  cases b with
  | true => exact if_pos h
  | false =>
    have hdisjoint : ∀ spelling ∈ spellings false, spelling ∉ spellings true := by decide
    exact (if_neg (hdisjoint _ h)).trans (if_pos h)

/-! ## Labels -/

theorem assignable_of_isName {label : String} (h : IsName label) : Assignable label where
  comma hc := absurd (h.isNameChar _ hc) (by decide)
  equals hc := absurd (h.isNameChar _ hc) (by decide)
  tight := tight_of_isNameChar h.isNameChar

/-! ## Items -/

theorem not_mem_of_padded {inner text : List Char} {c : Char} (h : Padded inner text)
    (hblank : isBlank c = false) (hc : c ∉ inner) : c ∉ text := by
  intro hmem
  rcases h.mem hmem with hmem | hmem
  · rw [hblank] at hmem
    cases hmem
  · exact hc hmem

theorem Spells.not_mem {c : Char} (h : Spells word b)
    (hc : Propositional.isNameChar c = false) : c ∉ word := by
  intro hmem
  rw [h.isNameChar hmem] at hc
  cases hc

theorem WritesItem.comma (h : WritesItem item a) : ',' ∉ item := by
  obtain ⟨hlabel, hleft, hword, hright⟩ := h
  have hl := not_mem_of_padded hleft (by decide) hlabel.comma
  have hr := not_mem_of_padded hright (by decide) (hword.not_mem (c := ',') (by decide))
  simp [hl, hr]

/-- An item is split at its only equals sign. -/
theorem WritesItem.ofItem_trim (h : WritesItem item a) : ofItem (trim item) = .ok a := by
  obtain @⟨left, right, word, a, hlabel, hleft, hword, hright⟩ := h
  have htight : Tight word := tight_of_isNameChar fun _ hc => hword.isNameChar hc
  have hleft' : Padded a.label.toList (trimStart left) := hleft.of_trimStart hlabel.tight
  have hright' : Padded word (trimStart right.reverse).reverse := by
    simpa using (hright.reverse.of_trimStart htight.reverse).reverse
  have hequals := not_mem_of_padded hleft' (by decide) hlabel.equals
  have hequals' := not_mem_of_padded hright' (by decide) (hword.not_mem (c := '=') (by decide))
  -- the equals sign is not blank, so that label and word are trimmed apart
  have hsplit : (trim (left ++ '=' :: right)).splitOn '=' =
      [trimStart left, (trimStart right.reverse).reverse] := by
    rw [trim_append_cons (by decide), List.splitOn_append_cons_self_of_not_mem hequals,
      List.splitOn_eq_singleton hequals']
  unfold ofItem
  simp only [hsplit, hleft'.trim hlabel.tight, hright'.trim htight, truthValue?_of_spells hword,
    String.ofList_toList]

theorem WritesItem.trim_ne_nil (h : WritesItem item a) : trim item ≠ [] := by
  obtain ⟨hlabel, hleft, hword, hright⟩ := h
  rw [trim_append_cons (by decide)]
  simp

/-! ## Texts -/

theorem WritesItems.comma (h : WritesItems items as) : ∀ item ∈ items, ',' ∉ item := by
  induction h with
  | nil => exact nofun
  | blank hitem _ ih =>
    refine List.forall_mem_cons.2 ⟨fun hc => ?_, ih⟩
    exact absurd (hitem _ hc) (by decide)
  | item hitem _ ih => exact List.forall_mem_cons.2 ⟨hitem.comma, ih⟩

theorem filter_trim_blank (h : ∀ c ∈ item, isBlank c) :
    ((item :: items).map trim).filter (!·.isEmpty) = (items.map trim).filter (!·.isEmpty) := by
  rw [List.map_cons, trim_eq_nil_iff.2 h]
  rfl

theorem filter_trim_cons (h : trim item ≠ []) :
    ((item :: items).map trim).filter (!·.isEmpty) =
      trim item :: (items.map trim).filter (!·.isEmpty) :=
  List.filter_cons_of_pos (by simpa using h)

theorem WritesItems.mapM_ofItem (h : WritesItems items as) :
    ((items.map trim).filter (!·.isEmpty)).mapM ofItem = .ok as := by
  induction h with
  | nil => rfl
  | @blank item items as hitem _ ih =>
    rw [filter_trim_blank hitem, ih]
  | @item item a items as hitem _ ih =>
    rw [filter_trim_cons hitem.trim_ne_nil, List.mapM_cons, hitem.ofItem_trim, ih]
    rfl

/-- A text that writes assignments is read as these. -/
theorem ofText_of_writes {text : String} (h : Writes text as) : ofText text = .ok as := by
  obtain ⟨items, hitems, htext⟩ := h
  unfold ofText Assignment.items
  rw [htext]
  cases items with
  | nil =>
    cases hitems
    rfl
  | cons item items =>
    rw [List.splitOn_intercalate ',' hitems.comma (List.cons_ne_nil _ _)]
    exact hitems.mapM_ofItem

theorem exists_writesItem (h : Assignable a.label) : ∃ item, WritesItem item a := by
  cases hvalue : a.value with
  | true =>
    have hword : Spells "1".toList a.value := by
      rw [hvalue]
      decide
    exact ⟨_, .item h (.refl _) hword (.refl _)⟩
  | false =>
    have hword : Spells "0".toList a.value := by
      rw [hvalue]
      decide
    exact ⟨_, .item h (.refl _) hword (.refl _)⟩

theorem exists_writes (h : ∀ a ∈ as, Assignable a.label) : ∃ text, Writes text as := by
  have hitems : ∃ items, WritesItems items as := by
    induction as with
    | nil => exact ⟨[], .nil⟩
    | cons a as ih =>
      obtain ⟨ha, has⟩ := List.forall_mem_cons.1 h
      obtain ⟨item, hitem⟩ := exists_writesItem ha
      obtain ⟨items, hitems⟩ := ih has
      exact ⟨item :: items, .item hitem hitems⟩
  obtain ⟨items, hitems⟩ := hitems
  exact ⟨String.ofList ([','].intercalate items), items, hitems, String.toList_ofList⟩

end Assignment

end Propositional
