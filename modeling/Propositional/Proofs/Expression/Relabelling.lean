import Propositional.Proofs.Expression.Missing
import Propositional.Proofs.Graph.Relabelling
import Propositional.Proofs.Table.Columns
import Propositional.Proofs.Table.Effects
import Propositional.Proofs.Table.Validation

/-!
# Relabelling of expressions

Symbols with the same tokens and with labels that correspond one to one are read as expressions
that are the same up to these labels: they have the same nodes, whatever is evaluated in one is
evaluated alike in the other, and the rows of their tables are the same.
-/

namespace Propositional

variable {ρ : String → String}

def Unassigned.relabel (ρ : String → String) (cause : Unassigned) : Unassigned :=
  ⟨ρ cause.label⟩

/-! ## Formulas -/

namespace Formula

variable {f : Formula}

theorem value_relabel (f : Formula) (σ : String → Bool) :
    (f.relabel ρ).value σ = f.value fun label => σ (ρ label) := by
  induction f with
  | constant | var => rfl
  | negation f ih => rw [relabel, value, value, ih]
  | binary op left right ihl ihr => rw [relabel, value_binary, value_binary, ihl, ihr]

/-- A value or the label that is missing, under maps that say the same. -/
theorem evaluate_relabel {m m' : String → Option Bool}
    (h : ∀ label ∈ f.labels, m' (ρ label) = m label) :
    (f.relabel ρ).evaluate m' = (f.evaluate m).mapError (Unassigned.relabel ρ) := by
  induction f with
  | constant => rfl
  | var label =>
    rw [relabel, evaluate, evaluate, h label List.mem_cons_self]
    cases m label <;> rfl
  | negation f ih =>
    rw [relabel, evaluate, evaluate, ih h]
    cases f.evaluate m <;> rfl
  | binary op left right ihl ihr =>
    obtain ⟨hl, hr⟩ := List.forall_mem_append.1 h
    rw [relabel, evaluate, evaluate, ihl hl, ihr hr]
    cases right.evaluate m with
    | error => rfl
    | ok => cases left.evaluate m <;> rfl

theorem relabel_eq_self (h : ∀ label ∈ f.labels, ρ label = label) : f.relabel ρ = f := by
  induction f with
  | constant => rfl
  | var label => exact congrArg var (h label List.mem_cons_self)
  | negation f ih => exact congrArg negation (ih h)
  | binary op left right ihl ihr =>
    obtain ⟨hl, hr⟩ := List.forall_mem_append.1 h
    rw [relabel, ihl hl, ihr hr]

end Formula

/-! ## Values of nodes -/

namespace Graph.Relabels

variable {g g' : Graph}

/-- Where variables that correspond hold the same, nodes that correspond are evaluated alike. -/
theorem evaluate_eq (h : g.Relabels ρ g') {v : Valuation g} {v' : Valuation g'}
    (hv : ∀ (x : g.Variable) (x' : g'.Variable), x'.label = ρ x.label →
      v'.get x'.id = v.get x.id) {i : g.Id} {i' : g'.Id} (hi : i'.val = i.val) :
    g'.evaluate v' i' = (g.evaluate v i).mapError (Unassigned.relabel ρ) := by
  have hlookup := agrees_lookup h.distinct v
  have hlookup' := agrees_lookup h.distinct_relabelled v'
  rw [hlookup.evaluate, hlookup'.evaluate, h.formula_eq hi]
  refine Formula.evaluate_relabel fun label hl => ?_
  obtain ⟨x, _, rfl⟩ := exists_reachable_of_mem_labels hl
  obtain ⟨x', hx'⟩ := h.exists_variable x
  rw [← hx', ← hlookup' x', ← hlookup x, hv x x' hx']

end Graph.Relabels

/-! ## Tables -/

namespace Expression

variable {e e' : Expression}

theorem mem_labels_of_formula {i : e.graph.Id} {label : String}
    (h : label ∈ (e.graph.formula i).labels) : label ∈ e.labels := by
  obtain ⟨x, _, rfl⟩ := Graph.exists_reachable_of_mem_labels h
  exact List.mem_map_of_mem (Graph.mem_vars x)

theorem tabulation_relabels (h : e.graph.Relabels ρ e'.graph) : e'.tabulation = e.tabulation := by
  rw [tabulation, tabulation, vars, vars, h.map_val_vars, subexpressions, subexpressions,
    h.map_val_compounds]

theorem length_vars_relabels (h : e.graph.Relabels ρ e'.graph) :
    e'.vars.length = e.vars.length := by
  simpa [vars] using congrArg List.length h.map_val_vars

/-- Bits say about a new label what they say about the old one. -/
theorem reading_relabels (h : e.graph.Relabels ρ e'.graph) {bits : List Bool}
    (hbits : bits.length = e.labels.length) {label : String} (hl : label ∈ e.labels) :
    e'.reading bits (ρ label) = e.reading bits label := by
  obtain ⟨k, hlt, hk⟩ := List.mem_iff_getElem.1 hl
  have hk : e.labels[k]? = some label := List.getElem?_eq_some_iff.2 ⟨hlt, hk⟩
  have hk' : e'.labels[k]? = some (ρ label) := by
    rw [labels, vars, h.map_label_vars, List.getElem?_map]
    exact congrArg (Option.map ρ) hk
  have hb : bits[k]? = some bits[k] := List.getElem?_eq_getElem (hbits ▸ hlt)
  rw [reading_label h.distinct hk hb, reading_label h.distinct_relabelled hk' hb]

theorem cell_relabels (h : e.graph.Relabels ρ e'.graph) {bits : List Bool}
    (hbits : bits.length = e.labels.length) {i : e.graph.Id} {i' : e'.graph.Id}
    (hi : i'.val = i.val) :
    e'.cell bits i' = e.cell bits i := by
  rw [cell, cell, h.formula_eq hi, Formula.value_relabel]
  refine congrArg Table.digit (Formula.value_congr fun label hl => ?_)
  exact reading_relabels h hbits (mem_labels_of_formula hl)

theorem rows_tableOf_relabels (h : e.graph.Relabels ρ e'.graph) {columns : List e.graph.Id}
    {columns' : List e'.graph.Id} (hcolumns : columns'.map (·.val) = columns.map (·.val)) :
    (e'.tableOf columns').rows = (e.tableOf columns).rows := by
  rw [← List.forall₂_eq_eq_eq, List.forall₂_map_left_iff, List.forall₂_map_right_iff] at hcolumns
  rw [tableOf, tableOf, length_vars_relabels h]
  refine List.map_congr_left fun r _ => ?_
  rw [← List.forall₂_eq_eq_eq, List.forall₂_map_left_iff, List.forall₂_map_right_iff]
  exact hcolumns.imp fun _ _ hi => cell_relabels h (by simp [labels]) hi

end Expression

namespace Tabulation

variable {e e' : Expression}

/-- A table over all variables has the same rows. -/
theorem finish_relabels (h : e.graph.Relabels ρ e'.graph) {t : Tabulation}
    (hvars : t.vars = e.tabulation.vars) (hnodes : ∀ i ∈ t.nodes, i < e.graph.size) :
    (t.finish e').1.map (·.rows) = (t.finish e).1.map (·.rows) := by
  by_cases hlimit : t.vars.length ≤ t.limit
  · have hvars' : t.vars = e'.tabulation.vars := by rw [Expression.tabulation_relabels h, hvars]
    have hsize : e'.graph.size = e.graph.size := by
      rw [Graph.size, h.nodes_eq, size_relabelNodes]
    obtain ⟨nodes, hn, hfinish⟩ := finish_eq_tableOf h.distinct hvars hlimit hnodes
    obtain ⟨nodes', hn', hfinish'⟩ :=
      finish_eq_tableOf h.distinct_relabelled hvars' hlimit (hsize ▸ hnodes)
    have hcolumns : (e'.vars.map (·.id) ++ nodes').map (·.val) =
        (e.vars.map (·.id) ++ nodes).map (·.val) := by
      rw [List.map_append, List.map_append, hn, hn', List.map_map, List.map_map]
      exact congrArg (· ++ t.nodes) h.map_val_vars
    rw [hfinish, hfinish']
    exact congrArg Except.ok (Expression.rows_tableOf_relabels h hcolumns)
  · rw [finish_of_refused (rows_of_limit_lt (Nat.not_le.1 hlimit)),
      finish_of_refused (rows_of_limit_lt (Nat.not_le.1 hlimit))]

end Tabulation

/-! ## Expressions -/

namespace Expression

variable {f : Formula} {s t : List Symbol}

theorem keepsApart_ofFormula (hρ : Set.InjOn ρ {label | label ∈ f.labels}) :
    KeepsApart ρ (ofFormula f).graph.nodes := by
  refine hρ.mono fun label hl => ?_
  have hlabels : labelsOf (ofFormula f).graph.nodes = (ofFormula f).labels :=
    (Graph.map_label_vars _).symm
  exact mem_labels_ofFormula.1 (hlabels ▸ hl)

/-- The layouts of a formula and of the one with other labels correspond. -/
theorem ofFormula_graph_relabels (hρ : Set.InjOn ρ {label | label ∈ f.labels}) :
    (ofFormula f).graph.Relabels ρ (ofFormula (f.relabel ρ)).graph ∧
      (ofFormula (f.relabel ρ)).root.val = (ofFormula f).root.val := by
  have hapart := keepsApart_ofFormula hρ
  have hlays := (lays_ofFormula f).relabel hapart
  rw [relabelNodes_empty] at hlays
  obtain ⟨hnodes, hroot⟩ := (lays_ofFormula (f.relabel ρ)).unique hlays nofun
  exact ⟨⟨hnodes, hapart, distinct_ofFormula f⟩, hroot⟩

theorem held_ofFormula (f : Formula) :
    (ofFormula f).held = List.replicate (ofFormula f).vars.length none := by
  have hunset : ∀ x : (ofFormula f).graph.Variable, (ofFormula f).values.get x.id = none :=
    fun x => Valuation.get_unset x.id
  simp only [held, hunset, List.map_const']

/-- The expressions are the same up to labels: their nodes, which of them is the root, which are
the variables, and what these hold. -/
structure Relabels (ρ : String → String) (e e' : Expression) : Prop where
  nodes_eq : e'.graph.nodes = relabelNodes ρ e.graph.nodes
  root_eq : e'.root.val = e.root.val
  vars_eq : e'.vars.map (·.id.val) = e.vars.map (·.id.val)
  labels_eq : e'.labels = e.labels.map ρ
  held_eq : e'.held = e.held

theorem ofFormula_relabels (hρ : Set.InjOn ρ {label | label ∈ f.labels}) :
    (ofFormula f).Relabels ρ (ofFormula (f.relabel ρ)) := by
  obtain ⟨hgraph, hroot⟩ := ofFormula_graph_relabels hρ
  exact {
    nodes_eq := hgraph.nodes_eq
    root_eq := hroot
    vars_eq := hgraph.map_val_vars
    labels_eq := hgraph.map_label_vars
    held_eq := by rw [held_ofFormula, held_ofFormula, length_vars_relabels hgraph] }

/-- Where variables that correspond hold the same, nodes that correspond are evaluated alike; an
error names the label that corresponds. -/
def EvaluatesAlike (ρ : String → String) (e e' : Expression) : Prop :=
  ∀ (v : Valuation e.graph) (v' : Valuation e'.graph),
    (∀ (x : e.graph.Variable) (x' : e'.graph.Variable), x'.label = ρ x.label →
      v'.get x'.id = v.get x.id) →
    ∀ (i : e.graph.Id) (i' : e'.graph.Id), i'.val = i.val →
      e'.graph.evaluate v' i' = (e.graph.evaluate v i).mapError (Unassigned.relabel ρ)

/-- The tables over all variables and compound nodes have the same rows or are refused for the same
reason, whatever the variables hold. -/
def TabulatesAlike (e e' : Expression) : Prop :=
  ∀ (v : Valuation e.graph) (v' : Valuation e'.graph) (maxVars : Nat),
    (Tabulation.finish { e'.tabulation with maxVars } (e'.withValues v')).1.map (·.rows) =
      (Tabulation.finish { e.tabulation with maxVars } (e.withValues v)).1.map (·.rows)

theorem ofFormula_evaluatesAlike (hρ : Set.InjOn ρ {label | label ∈ f.labels}) :
    (ofFormula f).EvaluatesAlike ρ (ofFormula (f.relabel ρ)) := by
  intro v v' hv i i' hi
  obtain ⟨hgraph, _⟩ := ofFormula_graph_relabels hρ
  exact hgraph.evaluate_eq hv hi

theorem ofFormula_tabulatesAlike (hρ : Set.InjOn ρ {label | label ∈ f.labels}) :
    (ofFormula f).TabulatesAlike (ofFormula (f.relabel ρ)) := by
  intro v v' maxVars
  obtain ⟨hgraph, _⟩ := ofFormula_graph_relabels hρ
  have hvalues : ((ofFormula f).withValues v).graph.Relabels ρ
      ((ofFormula (f.relabel ρ)).withValues v').graph := hgraph
  rw [tabulation_relabels hgraph]
  refine Tabulation.finish_relabels hvalues rfl ?_
  intro i hi
  obtain ⟨j, _, rfl⟩ := List.mem_map.1 hi
  exact j.isLt

/-- Symbols that have the same tokens are both read or both refused for the same reason, if the
labels of variables correspond one to one. The expressions read are the same up to labels. Under
values that correspond every node is evaluated alike, and the default tables have the same rows. If
no label differs, so that two texts only spell other tokens differently, the same expression is
read. -/
theorem ofSymbols_relabelled (h : List.Forall₂ (Symbol.Relabels ρ) s t)
    (hρ : Set.InjOn ρ {label | ⟨.var, label⟩ ∈ s}) :
    Alike (fun err err' => err'.kind = err.kind ∧ err.Relabels ρ err')
      (fun e e' => e.Relabels ρ e' ∧ e.EvaluatesAlike ρ e' ∧ e.TabulatesAlike e')
      (ofSymbols s) (ofSymbols t) ∧
    ((∀ label, ⟨.var, label⟩ ∈ s → ρ label = label) →
      ∀ text text', lex text = .ok s → lex text' = .ok t →
        ∀ e, ofText text = .ok e ↔ ofText text' = .ok e) := by
  have hread := Formula.ofSymbols_relabels h
  have hlabels : ∀ f, Formula.ofSymbols s = .ok f → ∀ label ∈ f.labels, ⟨.var, label⟩ ∈ s := by
    intro f hf label hl
    obtain ⟨d, hd, _⟩ := Formula.derives_of_ofSymbols hf
    exact hd.mem_of_mem_labels hl
  constructor
  · refine hread.map (fun err err' herr => ⟨herr.kind_eq, herr⟩) ?_
    rintro f _ hf rfl
    have hapart : Set.InjOn ρ {label | label ∈ f.labels} := hρ.mono (hlabels f hf)
    exact ⟨ofFormula_relabels hapart, ofFormula_evaluatesAlike hapart,
      ofFormula_tabulatesAlike hapart⟩
  · intro hfixed text text' hlex hlex' e
    have hsame : Alike (Error.Relabels ρ) (fun e e' : Expression => e' = e) (ofText text)
        (ofText text') := by
      rw [ofText, ofText, Formula.ofText_of_lex hlex, Formula.ofText_of_lex hlex']
      refine hread.map (fun _ _ herr => herr) ?_
      rintro f _ hf rfl
      rw [Formula.relabel_eq_self fun label hl => hfixed label (hlabels f hf label hl)]
    exact hsame.eq_ok_iff

/-- A formula with a shared label, read from other symbols with the labels replaced, and from
another text with the labels kept. -/
theorem ofSymbols_relabelled_spelling :
    let ρ : String → String := fun label => if label = "p" then "A" else "B"
    let s : List Symbol := [⟨.var, "p"⟩, ⟨.implies, ">"⟩, ⟨.not, "!"⟩, ⟨.var, "q"⟩, ⟨.and, "&"⟩,
      ⟨.var, "p"⟩]
    let t : List Symbol := [⟨.var, "A"⟩, ⟨.implies, "⇒"⟩, ⟨.not, "~"⟩, ⟨.var, "B"⟩, ⟨.and, "AND"⟩,
      ⟨.var, "A"⟩]
    ∃ e e', ofSymbols s = .ok e ∧ ofSymbols t = .ok e' ∧ e.Relabels ρ e' ∧
      e'.labels = ["A", "B"] ∧ e.TabulatesAlike e' ∧
      ofText "p > !q & p" = .ok e ∧ ofText "p ⇒ ~q AND p" = .ok e := by
  intro ρ s t
  let kept : List Symbol := [⟨.var, "p"⟩, ⟨.implies, "⇒"⟩, ⟨.not, "~"⟩, ⟨.var, "q"⟩, ⟨.and, "AND"⟩,
    ⟨.var, "p"⟩]
  have hlabels : ∀ label, (⟨.var, label⟩ : Symbol) ∈ s → label = "p" ∨ label = "q" := by
    simp [s]
  have hapart : Set.InjOn ρ {label | ⟨.var, label⟩ ∈ s} := by
    intro label hl label' hl' heq
    rcases hlabels label hl with rfl | rfl <;> rcases hlabels label' hl' with rfl | rfl
    · rfl
    · exact absurd heq (by decide)
    · exact absurd heq (by decide)
    · rfl
  have htokens : List.Forall₂ (Symbol.Relabels ρ) s t :=
    .cons ⟨rfl, fun _ => rfl⟩ <| .cons ⟨rfl, nofun⟩ <| .cons ⟨rfl, nofun⟩ <|
      .cons ⟨rfl, fun _ => rfl⟩ <| .cons ⟨rfl, nofun⟩ <| .cons ⟨rfl, fun _ => rfl⟩ .nil
  have hspelling : List.Forall₂ (Symbol.Relabels id) s kept :=
    .cons ⟨rfl, fun _ => rfl⟩ <| .cons ⟨rfl, nofun⟩ <| .cons ⟨rfl, nofun⟩ <|
      .cons ⟨rfl, fun _ => rfl⟩ <| .cons ⟨rfl, nofun⟩ <| .cons ⟨rfl, fun _ => rfl⟩ .nil
  have hlex : lex "p > !q & p" = .ok s := toOption_eq_some.1 (by decide +kernel)
  have hlex' : lex "p ⇒ ~q AND p" = .ok kept := toOption_eq_some.1 (by decide +kernel)
  let f : Formula := .binary .implies (.var "p") (.binary .and (.negation (.var "q")) (.var "p"))
  have hs : ofSymbols s = .ok (ofFormula f) := rfl
  have ht : ofSymbols t = .ok (ofFormula (f.relabel ρ)) := rfl
  have htext : ofText "p > !q & p" = .ok (ofFormula f) := ofText_of_toOption (by decide +kernel)
  obtain ⟨hread, _⟩ := ofSymbols_relabelled htokens hapart
  obtain ⟨_, hsame⟩ := ofSymbols_relabelled hspelling Function.injective_id.injOn
  rw [hs, ht] at hread
  cases hread with
  | ok h =>
    obtain ⟨hrelabels, _, htables⟩ := h
    refine ⟨_, _, hs, ht, hrelabels, hrelabels.labels_eq.trans (by decide +kernel), htables,
      htext, ?_⟩
    exact (hsame (fun _ _ => rfl) _ _ hlex hlex' _).1 htext

end Expression

end Propositional
