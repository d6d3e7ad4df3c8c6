import Propositional.Proofs.Grammar.Acceptance
import Propositional.Proofs.Grammar.Writing
import Propositional.Proofs.Symbol.Lexing

/-!
# Round trip

The written form of an expression that was read is read as the same expression. Its symbols
are those that the formula is written with, since labels that were read once are read again,
and their derivation fits into the budget, since the one that was read did and nests no less.
-/

namespace Propositional

open Grammar

/-! ## The symbols of the written form -/

theorem Connective.reads_glyph (op : Connective) {rest : List Char} {symbols : List Symbol}
    (h : Reads rest symbols) :
    Reads (op.glyph.toList ++ rest) (⟨op.token, op.glyph⟩ :: symbols) := by
  cases op <;> exact .symbol (Symbol.read?_glyph (by decide) rest) h

namespace Formula

/-- The three conditions for parentheses in written forms are those of the grammar. -/
theorem encloses_operand (f : Formula) : Rule.operand.encloses f.rule = !f.isLeaf := by
  cases f with
  | constant | var | negation => rfl
  | binary op => cases op <;> rfl

theorem encloses_part (op : Connective) (f : Formula) :
    (Rule.part op.isLoose).encloses f.rule = decide (f.strength ≤ op.strength) := by
  cases f with
  | constant | var | negation => cases op <;> rfl
  | binary op' => cases op <;> cases op' <;> rfl

theorem encloses_rule (op : Connective) (f : Formula) :
    (Rule.whole op.isLoose).encloses f.rule = decide (f.strength < op.strength) := by
  cases f with
  | constant | var | negation => cases op <;> rfl
  | binary op' => cases op <;> cases op' <;> rfl

theorem reads_parenthesize {text : String} {symbols : List Symbol} (wrap : Bool)
    (h : Reads text.toList symbols) :
    Reads (parenthesize wrap text).toList (enclose wrap symbols) := by
  cases wrap with
  | false => exact h
  | true =>
    have hclose : Reads [')'] [⟨.closeParen, ")"⟩] :=
      .symbol (Symbol.read?_glyph (by decide) []) .nil
    have hend : EndsWord [')'] := endsWord_cons (by decide +kernel) []
    have hopen : Symbol.read? ('(' :: (text.toList ++ [')'])) = some (⟨.openParen, "("⟩, _) :=
      Symbol.read?_glyph (by decide) _
    simpa [parenthesize, enclose] using Reads.symbol hopen (h.append hend hclose)

/-- The written form of a formula consists of the symbols it is written with. -/
theorem reads_render {f : Formula} (h : ∀ label ∈ f.labels, IsName label) :
    Reads f.render.toList f.symbols := by
  induction f with
  | constant b =>
    cases b with
    | false => exact .symbol (Symbol.read?_glyph (by decide) []) .nil
    | true => exact .symbol (Symbol.read?_glyph (by decide) []) .nil
  | var label => exact (h label (by simp [labels])).reads
  | negation f ih =>
    have hf := reads_parenthesize (!f.isLeaf) (ih h)
    have hnot : Symbol.read? ('~' :: (parenthesize (!f.isLeaf) f.render).toList) =
        some (⟨.not, "~"⟩, _) :=
      Symbol.read?_glyph (by decide) _
    rw [symbols, encloses_operand]
    simpa [render] using Reads.symbol hnot hf
  | binary op left right ihl ihr =>
    have hleft := reads_parenthesize (decide (left.strength ≤ op.strength))
      (ihl fun label hl => h label (List.mem_append_left _ hl))
    have hright := reads_parenthesize (decide (right.strength < op.strength))
      (ihr fun label hl => h label (List.mem_append_right _ hl))
    have hspace : Text.isBlank ' ' := by decide
    have hafter := Reads.blank hspace (op.reads_glyph (.blank hspace hright))
    have hend := endsWord_cons (Text.isWordChar_of_isBlank hspace)
    rw [symbols, encloses_part, encloses_rule]
    simpa [render] using hleft.append (hend _) hafter

/-- The characters of written forms beside those of names. -/
def signs : List Char :=
  "01~ ()∧∨⊻≡⇒⇐".toList

theorem glyph_subset_signs (op : Connective) : op.glyph.toList ⊆ signs := by
  cases op <;> decide

theorem mem_parenthesize {wrap : Bool} {text : String} {c : Char}
    (h : c ∈ (parenthesize wrap text).toList) : c ∈ text.toList ∨ c ∈ signs := by
  cases wrap with
  | false => exact .inl h
  | true =>
    have hopen : "(".toList ⊆ signs := by decide
    have hclose : ")".toList ⊆ signs := by decide
    simp only [parenthesize, if_true, String.toList_append, List.mem_append] at h
    rcases h with (h | h) | h
    · exact .inr (hopen h)
    · exact .inl h
    · exact .inr (hclose h)

theorem mem_render {f : Formula} (h : ∀ label ∈ f.labels, IsName label) {c : Char}
    (hc : c ∈ f.render.toList) : isNameChar c ∨ c ∈ signs := by
  induction f with
  | constant b =>
    have hdigits : ∀ b, (constant b).render.toList ⊆ signs := by decide
    exact .inr (hdigits b hc)
  | var label => exact .inl ((h label List.mem_cons_self).isNameChar c hc)
  | negation f ih =>
    have hnot : "~".toList ⊆ signs := by decide
    rw [render, String.toList_append, List.mem_append] at hc
    rcases hc with hc | hc
    · exact .inr (hnot hc)
    · exact (mem_parenthesize hc).elim (ih h) .inr
  | binary op left right ihl ihr =>
    have hspace : " ".toList ⊆ signs := by decide
    simp only [render, String.toList_append, List.mem_append] at hc
    have hleft := ihl fun label hl => h label (List.mem_append_left _ hl)
    have hright := ihr fun label hl => h label (List.mem_append_right _ hl)
    rcases hc with (((hc | hc) | hc) | hc) | hc
    · exact (mem_parenthesize hc).elim hleft .inr
    · exact .inr (hspace hc)
    · exact .inr (glyph_subset_signs op hc)
    · exact .inr (hspace hc)
    · exact (mem_parenthesize hc).elim hright .inr

theorem not_mem_render {f : Formula} (h : ∀ label ∈ f.labels, IsName label) {c : Char}
    (hname : isNameChar c = false) (hsign : c ∉ signs) : c ∉ f.render.toList := by
  intro hc
  rcases mem_render h hc with hc | hc
  · rw [hname] at hc
    cases hc
  · exact hsign hc

theorem render_ne_empty {f : Formula} (h : ∀ label ∈ f.labels, IsName label) :
    f.render ≠ "" := by
  cases f with
  | constant b => cases b <;> decide
  | var label =>
    have hne := Symbol.ne_nil_of_read? (h label List.mem_cons_self)
    exact fun hempty => hne (congrArg String.toList hempty)
  | negation | binary => simp [render]

end Formula

/-! ## Reading the written form -/

namespace Formula

theorem lex_render {f : Formula} (h : ∀ label ∈ f.labels, IsName label) :
    lex f.render = .ok f.symbols :=
  lex_eq_ok_iff.2 (reads_render h)

theorem isName_of_ofText {text : String} {f : Formula} (h : ofText text = .ok f) {label : String}
    (hl : label ∈ f.labels) : IsName label := by
  obtain ⟨symbols, d, hlex, hd, _⟩ := derives_of_ofText h
  exact (lex_eq_ok_iff.1 hlex).isName (hd.mem_of_mem_labels hl)

/-- The parts of a formula that was read are read again from their written forms. -/
theorem ofText_render_of_part {text : String} {f g : Formula} (h : ofText text = .ok f)
    (hg : Part g f) : ofText g.render = .ok g := by
  have hnames : ∀ label ∈ g.labels, IsName label := fun label hl =>
    isName_of_ofText h (hg.labels_subset hl)
  obtain ⟨symbols, d, hlex, hd, hlimit⟩ := derives_of_ofText h
  obtain ⟨e, hle, he⟩ := derives_symbols_of_part hd hg
  rw [ofText_of_lex (lex_render hnames), ofSymbols_of_derives he, if_pos (Nat.le_trans hle hlimit)]

/-- A formula that was read is read again from its written form. -/
theorem ofText_render {text : String} {f : Formula} (h : ofText text = .ok f) :
    ofText f.render = .ok f :=
  ofText_render_of_part h .refl

end Formula

namespace Expression

/-- The written form of an expression that was read is accepted, and what it is read as is the
expression itself: node for node, with the same root, and no variable with a value. -/
theorem ofText_text {text : String} {e : Expression} (h : ofText text = .ok e) :
    ofText e.text = .ok e ∧ e.values = .unset e.graph := by
  obtain ⟨f, hf, rfl⟩ := ofText_eq_ok h
  have htext : (ofFormula f).text = f.render := congrArg Formula.render (formula_root f)
  refine ⟨?_, rfl⟩
  rw [htext, ofText_of_formula (Formula.ofText_render hf)]

/-- Words, other spellings and parentheses that are not needed get lost in the written form,
which is `x ⇒ ~y ∨ 1 ⊻ x` here. -/
theorem ofText_text_words : ∃ e, ofText "(x > not(y)) OR (T xor x)" = .ok e ∧
    ofText e.text = .ok e ∧ e.values = .unset e.graph := by
  have h : ofText "(x > not(y)) OR (T xor x)" = .ok (ofFormula
      (.binary .or (.binary .implies (.var "x") (.negation (.var "y")))
        (.binary .xor (.constant true) (.var "x")))) :=
    ofText_of_toOption (by decide +kernel)
  exact ⟨_, h, ofText_text h⟩

end Expression

end Propositional
