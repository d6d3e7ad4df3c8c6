import Propositional.Proofs.Expression.Runs
import Propositional.Proofs.Table.Effects

/-!
# Usage

An expression that is read, assigned to, evaluated and tabulated, in any order and whether or not
its tables can be finished, keeps its nodes and its root. Only what its variables hold changes, so
to clear them gives back the expression that was read.
-/

namespace Propositional

/-! ## Values that only variables hold -/

namespace Valuation

variable {g : Graph} {u v w : Valuation g} {vars vars' : List g.Variable}

theorem SameOff.trans (h : SameOff vars u v) (h' : SameOff vars v w) : SameOff vars u w :=
  fun i hi => (h i hi).trans (h' i hi)

theorem SameOff.mono (h : SameOff vars v w) (hvars : vars ⊆ vars') : SameOff vars' v w :=
  fun i hi => h i fun x hx => hi x (hvars hx)

/-- No other node than a variable holds a value. -/
def Proper (v : Valuation g) : Prop :=
  SameOff g.vars v (.unset g)

theorem proper_unset (g : Graph) : (unset g).Proper :=
  fun _ _ => rfl

/-- To change variables only keeps all other nodes without value. -/
theorem Proper.of_sameOff (h : v.Proper) (hw : SameOff vars w v) : w.Proper :=
  SameOff.trans (hw.mono fun x _ => Graph.mem_vars x) h

theorem Proper.set (h : v.Proper) (x : g.Variable) (value : Option Bool) :
    (v.set x value).Proper := by
  have hoff : SameOff [x] (v.set x value) v := by
    intro i hi
    rw [get_set, if_neg (Ne.symm (hi x List.mem_cons_self))]
  exact h.of_sameOff hoff

/-- The valuation after variables have been unset one after the other. -/
def unsetAll (v : Valuation g) (vars : List g.Variable) : Valuation g :=
  vars.foldl (fun v x => v.set x none) v

theorem unsetAll_eq (h : SameOff vars v (.unset g)) : v.unsetAll vars = .unset g := by
  induction vars generalizing v with
  | nil => exact ext fun i => h i nofun
  | cons x vars ih =>
    -- once `x` is unset, only the other variables can still hold a value
    refine ih (v := v.set x none) fun i hi => ?_
    rw [get_set, get_unset]
    split
    · rfl
    next hne => exact (h i (List.forall_mem_cons.2 ⟨Ne.symm hne, hi⟩)).trans (get_unset i)

end Valuation

/-! ## Uses -/

/-- What can be done with an expression: an action on its values, an evaluation, a table, or calls
for the rows of one. -/
inductive Use where
  | act (action : Action)
  | evaluate
  | table (t : Tabulation)
  | rows (t : Tabulation) (calls : List Call)

/-- A use that sets no other node than a variable. -/
def Use.Fits (g : Graph) : Use → Prop
  | .act action => action.Fits g
  | .evaluate | .table _ | .rows _ _ => True

namespace Expression

/-- The expression after a use. Rows that are given up leave the values of the last one taken. -/
def use (e : Expression) : Use → Except Graph.Fault Expression
  | .act action => e.perform action
  | .evaluate => .ok e
  | .table t => .ok (t.finish e).2
  | .rows t calls =>
    match t.rows e with
    | .error _ => .ok e
    | .ok rows => .ok (e.withValues (rows.run calls).2.values)

def useAll (e : Expression) (uses : List Use) : Except Graph.Fault Expression :=
  uses.foldlM use e

variable {e : Expression}

theorem perform_proper (h : e.values.Proper) {action : Action} (hfits : action.Fits e.graph) :
    ∃ v, e.perform action = .ok (e.withValues v) ∧ v.Proper := by
  cases action with
  | assign label value =>
    cases hf : e.graph.find? label with
    | none => exact ⟨_, perform_assign_of_none hf, h⟩
    | some x => exact ⟨_, perform_assign_of_some hf, h.set x _⟩
  | set index value =>
    obtain ⟨x, hx⟩ := Graph.exists_variable.2 hfits
    exact ⟨_, perform_set hx, h.set x _⟩
  | clear => exact ⟨_, rfl, Valuation.proper_unset _⟩

/-- A table changes listed variables only, also when it cannot be finished. -/
theorem finish_proper (h : e.values.Proper) (t : Tabulation) :
    ∃ v, (t.finish e).2 = e.withValues v ∧ v.Proper := by
  cases hrows : t.rows e with
  | error error => exact ⟨e.values, by rw [Tabulation.finish_of_refused hrows]; rfl, h⟩
  | ok rows =>
    obtain ⟨_, _, hvalues, hposition⟩ := Tabulation.rows_eq_ok hrows
    rw [← hvalues] at h
    refine ⟨_, Tabulation.finish_snd hrows, ?_⟩
    -- all rows are taken, or the first one fails: either way only listed variables were assigned
    cases hm : rows.missing? with
    | none => exact h.of_sameOff (Rows.assigns_collect_of_none hposition hm).unlisted
    | some x => exact h.of_sameOff (Rows.assigns_collect_of_some hposition hm).unlisted

/-- Whatever is done with an expression, at most the values of its variables are others after it. -/
theorem use_proper (h : e.values.Proper) {use : Use} (hfits : use.Fits e.graph) :
    ∃ v, e.use use = .ok (e.withValues v) ∧ v.Proper := by
  cases use with
  | act action => exact perform_proper h hfits
  | evaluate => exact ⟨e.values, rfl, h⟩
  | table t =>
    obtain ⟨v, hv, hproper⟩ := finish_proper h t
    exact ⟨v, congrArg Except.ok hv, hproper⟩
  | rows t calls =>
    cases hrows : t.rows e with
    | error error => exact ⟨e.values, by rw [Expression.use, hrows]; rfl, h⟩
    | ok rows =>
      obtain ⟨_, _, hvalues, hposition⟩ := Tabulation.rows_eq_ok hrows
      have htaken := ((Rows.taken_zero hposition).run calls).2
      rw [← hvalues] at h
      exact ⟨_, by rw [Expression.use, hrows], h.of_sameOff htaken.follows.values⟩

theorem useAll_proper (h : e.values.Proper) {uses : List Use}
    (hfits : ∀ use ∈ uses, use.Fits e.graph) :
    ∃ v, e.useAll uses = .ok (e.withValues v) ∧ v.Proper := by
  induction uses generalizing e with
  | nil => exact ⟨e.values, rfl, h⟩
  | cons use uses ih =>
    obtain ⟨huse, huses⟩ := List.forall_mem_cons.1 hfits
    obtain ⟨v, hv, hproper⟩ := use_proper h huse
    obtain ⟨w, hw, hproper'⟩ := ih (e := e.withValues v) hproper huses
    refine ⟨w, ?_, hproper'⟩
    unfold useAll
    rw [List.foldlM_cons, hv]
    exact hw

/-- An expression that was read keeps its nodes, its variables and its written forms whatever is
done with it, tables that are refused, that fail or that are given up included. After its variables
have been unset, all at once or one after the other as they are listed, it is the expression that
was read. -/
theorem useAll_keeps {text : String} (he : ofText text = .ok e) {uses : List Use}
    (hfits : ∀ use ∈ uses, use.Fits e.graph) :
    ∃ e', e.useAll uses = .ok e' ∧
      (∀ index, (e'.graph.idAt? index).map e'.render = (e.graph.idAt? index).map e.render) ∧
      e'.labels = e.labels ∧
      e'.vars.map (·.id.val) = e.vars.map (·.id.val) ∧
      (∀ label, (e'.graph.find? label).map (·.id.val) =
        (e.graph.find? label).map (·.id.val)) ∧
      e'.subexpressions.map (·.val) = e.subexpressions.map (·.val) ∧
      e'.clear = e'.withValues (e'.values.unsetAll e'.vars) ∧
      e.useAll (uses ++ [.act .clear]) = .ok e'.clear ∧
      ofText text = .ok e'.clear := by
  obtain ⟨f, hf, rfl⟩ := ofText_eq_ok he
  obtain ⟨v, hv, hproper⟩ := useAll_proper (e := ofFormula f) (Valuation.proper_unset _) hfits
  refine ⟨_, hv, fun _ => rfl, rfl, rfl, fun _ => rfl, rfl, ?_, ?_, he⟩
  · have hunset : v.unsetAll (ofFormula f).vars = .unset (ofFormula f).graph :=
      Valuation.unsetAll_eq hproper
    exact congrArg ((ofFormula f).withValues v).withValues hunset.symm
  · unfold useAll at hv ⊢
    rw [List.foldlM_append, hv]
    rfl

/-- `B` holds no value when the first table is made, which gives up after a row; the second one is
over two rows that are not all taken; the third is refused. -/
theorem useAll_keeps_interrupted :
    let f := Formula.binary .and (.var "A") (.negation (.var "B"))
    let e := ofFormula f
    let uses : List Use := [.act (.assign "A" false), .table { vars := [0], nodes := [3] },
      .act (.set 1 true), .evaluate, .rows { vars := [1], nodes := [2, 3] } [.next],
      .table { vars := [2], nodes := [] }, .act (.assign "C" true)]
    ofText "A & ~B" = .ok e ∧ (∀ use ∈ uses, use.Fits e.graph) ∧
      ∃ e', e.useAll uses = .ok e' ∧ e'.held = [some false, some false] ∧
        e'.labels = ["A", "B"] ∧ ofText "A & ~B" = .ok e'.clear := by
  intro f e uses
  have he : ofText "A & ~B" = .ok e := ofText_of_toOption (by decide +kernel)
  have hfits : ∀ use ∈ uses, use.Fits e.graph := by
    simp only [uses, List.forall_mem_cons]
    exact ⟨trivial, trivial, ⟨"B", by decide +kernel⟩, trivial, trivial, trivial, trivial, nofun⟩
  obtain ⟨e', huses, _, hlabels, _, _, _, _, _, hclear⟩ := useAll_keeps he hfits
  have hheld : (e.useAll uses).toOption.map held = some [some false, some false] := by
    decide +kernel
  rw [huses] at hheld
  exact ⟨he, hfits, e', huses, Option.some.inj hheld, hlabels.trans (by decide +kernel), hclear⟩

end Expression

end Propositional
