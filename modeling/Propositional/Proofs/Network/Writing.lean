import Propositional.Proofs.Expression.RoundTrip
import Propositional.Proofs.Graph.Occupancy

/-!
# Written forms of networks

A network may have been put together in any order and share its nodes in any way, and several of
its variables may have one label. What is written for a node still tells the formula that the node
unfolds to, as long as the labels are such that they can be read, and nothing else about the
network.
-/

namespace Propositional

open Grammar

namespace Network

/-- Every label of the network is read as a variable. -/
def Named (n : Network) : Prop :=
  ∀ label ∈ labelsOf n.graph.nodes, lex label = .ok [⟨.var, label⟩]

instance (n : Network) : Decidable n.Named :=
  inferInstanceAs (Decidable (∀ label ∈ labelsOf n.graph.nodes, lex label = .ok [⟨.var, label⟩]))

variable {n n' : Network}

theorem Named.isName (hn : n.Named) {i : n.graph.Id} {label : String}
    (hl : label ∈ (n.graph.formula i).labels) : IsName label := by
  obtain ⟨x, _, rfl⟩ := Graph.exists_reachable_of_mem_labels hl
  have hx : n.graph.nodes[x.id.val]? = some (.var x.label) := by
    rw [n.graph.getElem?_nodes, x.entry_id]
  have hread := hn x.label (mem_labelsOf.2 ⟨_, hx⟩)
  exact (lex_eq_ok_iff.1 hread).isName List.mem_cons_self

/-- What is written for a node consists of the symbols of its formula. -/
theorem Named.lex_render (hn : n.Named) (i : n.graph.Id) :
    lex (n.render i) = .ok (n.graph.formula i).symbols :=
  Formula.lex_render fun _ => hn.isName

theorem Named.ofText_render (hn : n.Named) (i : n.graph.Id) :
    Formula.ofText (n.render i) = Formula.ofSymbols (n.graph.formula i).symbols :=
  Formula.ofText_of_lex (hn.lex_render i)

/-- Nodes for which the same is written have the same formula. -/
theorem Named.formula_eq (hn : n.Named) (hn' : n'.Named) {i : n.graph.Id} {i' : n'.graph.Id}
    (h : n.render i = n'.render i') : n.graph.formula i = n'.graph.formula i' := by
  have hlex := hn.lex_render i
  rw [h, hn'.lex_render i'] at hlex
  have hderives := (n.graph.formula i).derives_written
  rw [← Except.ok.inj hlex] at hderives
  exact (hderives.unique (n'.graph.formula i').derives_written).1

/-- Whatever parts of a network are shared, in whatever order it was put together and whatever its
variables hold, the written form of a node has a derivation of the formula that the node unfolds
to. It is read as an expression whose root unfolds to the same formula, or it is too deep if the
derivation is. So nodes with the same written form, of one network or of two, unfold to the same
formula. -/
theorem render_faithful (hn : n.Named) :
    (∀ i : n.graph.Id, ∃ f symbols d, Unfolds n.graph.nodes i f ∧
      lex (n.render i) = .ok symbols ∧ Derives .disjunction symbols f d ∧
      (d ≤ 4096 → ∃ e, Expression.ofText (n.render i) = .ok e ∧ Unfolds e.graph.nodes e.root f) ∧
      (4096 < d → Expression.ofText (n.render i) = .error (.grammar .tooDeep))) ∧
    ∀ n' : Network, n'.Named → ∀ (i : n.graph.Id) (i' : n'.graph.Id), n.render i = n'.render i' →
      ∃ f, Unfolds n.graph.nodes i f ∧ Unfolds n'.graph.nodes i' f := by
  constructor
  · intro i
    have hderives := (n.graph.formula i).derives_written
    have hread := (hn.ofText_render i).trans (Formula.ofSymbols_of_derives hderives)
    refine ⟨_, _, _, n.graph.unfolds_formula i, hn.lex_render i, hderives, ?_, ?_⟩
    · intro hd
      rw [if_pos (show _ ≤ depthLimit from hd)] at hread
      exact ⟨_, Expression.ofText_of_formula hread, Expression.unfolds_root _⟩
    · intro hd
      rw [if_neg (show ¬ _ ≤ depthLimit from Nat.not_le.2 hd)] at hread
      rw [Expression.ofText, hread]
      rfl
  · intro n' hn' i i' h
    refine ⟨_, n.graph.unfolds_formula i, ?_⟩
    rw [hn.formula_eq hn' h]
    exact n'.graph.unfolds_formula i'

/-- The first network shares the negation; the second has two variables with one label, a node that
is not needed, and the operands of the conjunction in the other order. -/
theorem render_faithful_shared :
    let n := ((empty.push (.var "A") (some true) (by decide)).push (.negation 0) none
      (by decide)).push (.binary .and 1 1) none (by decide)
    let n' := (((((empty.push (.var "A") none (by decide)).push (.constant true) none
      (by decide)).push (.var "A") (some false) (by decide)).push (.negation 2) none
      (by decide)).push (.negation 0) none (by decide)).push (.binary .and 3 4) none (by decide)
    ∃ (i : n.graph.Id) (i' : n'.graph.Id), n.Named ∧ n'.Named ∧ n.render i = "~A ∧ ~A" ∧
      n'.render i' = "~A ∧ ~A" ∧
      (∃ e f, Expression.ofText (n.render i) = .ok e ∧ Unfolds e.graph.nodes e.root f ∧
        Unfolds n.graph.nodes i f) ∧
      ∃ f, Unfolds n.graph.nodes i f ∧ Unfolds n'.graph.nodes i' f := by
  intro n n'
  let i : n.graph.Id := ⟨2, by decide⟩
  let i' : n'.graph.Id := ⟨5, by decide⟩
  have hn : n.Named := by decide +kernel
  have hn' : n'.Named := by decide +kernel
  have hi : n.render i = "~A ∧ ~A" := by decide +kernel
  have hi' : n'.render i' = "~A ∧ ~A" := by decide +kernel
  obtain ⟨hread, hsame⟩ := render_faithful hn
  obtain ⟨f, symbols, d, hf, -, -, hfits, hdeep⟩ := hread i
  refine ⟨i, i', hn, hn', hi, hi', ?_, hsame n' hn' i i' (hi.trans hi'.symm)⟩
  rcases Nat.lt_or_ge 4096 d with hd | hd
  · have hok : (Expression.ofText (n.render i)).toOption.isSome := by decide +kernel
    rw [hdeep hd] at hok
    cases hok
  · obtain ⟨e, he, hroot⟩ := hfits hd
    exact ⟨e, f, he, hroot, hf⟩

end Network

end Propositional
