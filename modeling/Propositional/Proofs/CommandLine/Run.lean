import Propositional.CommandLine.Run
import Propositional.Proofs.Table.Columns

/-!
# Runs

What comes of an expression in a run, whatever else the run is about: its value under the
assignments given, or its table.
-/

namespace Propositional.CommandLine

variable {o : Options} {text : String} {e : Expression} {as : List Assignment}

/-! ## Single expressions -/

/-- What comes of a text: it is read, then the expression is processed. -/
def outcome (o : Options) (as : List Assignment) (text : String) : Except Error String := do
  let e ← Expression.ofText text
  (process o as e).result

theorem readExpression_snd (text : String) : (readExpression text).2 = Expression.ofText text := by
  unfold readExpression Expression.ofText Formula.ofText
  cases lex text with
  | error => rfl
  | ok symbols =>
    change _ = Expression.ofSymbols symbols
    cases h : Expression.ofSymbols symbols <;> simp only [h]

theorem result_report_eq (o : Options) (as : List Assignment) (text : String) :
    (report o as text).result = outcome o as text := by
  rw [outcome, ← readExpression_snd, report]
  rcases readExpression text with ⟨log, _ | _⟩ <;> rfl

theorem result_report (he : Expression.ofText text = .ok e) (o : Options) (as : List Assignment) :
    (report o as text).result = (process o as e).result := by
  rw [result_report_eq, outcome, he]
  rfl

/-! ## Values -/

/-- To assign all of a list is to run it. -/
theorem run_actionsOf (e : Expression) (as : List Assignment) :
    e.run (actionsOf as) = .ok (assignAll e as).2 := by
  induction as generalizing e with
  | nil => rfl
  | cons a as ih =>
    have hrun : e.run (actionsOf (a :: as)) =
        ((e.assign? a.label a.value).getD e).run (actionsOf as) := rfl
    rw [hrun, assignAll]
    split
    next h => rw [h, ih, Option.getD_some]
    next h => rw [h, ih, Option.getD_none]

theorem result_evaluate {b : Bool} {e' : Expression} (hrun : e.run (actionsOf as) = .ok e')
    (hvalue : e'.value = .ok b) :
    (evaluate as e).result = .ok (Table.digit b).toString := by
  rw [run_actionsOf] at hrun
  obtain rfl := Except.ok.inj hrun
  simp only [evaluate, hvalue]
  rfl

/-! ## Tables -/

/-- The nodes that the options ask for. -/
def Options.nodes (o : Options) (e : Expression) : List e.graph.Id :=
  if o.rootOnly then [e.root] else e.subexpressions

/-- The columns of the table that the options ask for. -/
def Options.columns (o : Options) (e : Expression) : List e.graph.Id :=
  e.vars.map (·.id) ++ o.nodes e

theorem vars_tabulation (o : Options) (e : Expression) :
    (o.tabulation e).vars = e.tabulation.vars := by
  unfold Options.tabulation
  split <;> rfl

theorem limit_tabulation (o : Options) (e : Expression) :
    (o.tabulation e).limit = min o.maxVars 63 := by
  unfold Options.tabulation
  split <;> rfl

theorem nodes_tabulation (o : Options) (e : Expression) :
    (o.tabulation e).nodes = (o.nodes e).map (·.val) := by
  unfold Options.tabulation Options.nodes
  split <;> rfl

/-- The options ask for a table over all variables. -/
theorem finish_tabulation (hd : Distinct e.graph.nodes)
    (hlimit : e.labels.length ≤ min o.maxVars 63) :
    ((o.tabulation e).finish e).1 = .ok (e.tableOf (o.columns e)) := by
  have hwithin : (o.tabulation e).vars.length ≤ (o.tabulation e).limit := by
    rw [vars_tabulation, limit_tabulation]
    simpa [Expression.tabulation, Expression.labels] using hlimit
  have hnodes : ∀ i ∈ (o.tabulation e).nodes, i < e.graph.size := by
    rw [nodes_tabulation]
    intro i hi
    obtain ⟨j, _, rfl⟩ := List.mem_map.1 hi
    exact j.isLt
  obtain ⟨nodes, hn, hfinish⟩ :=
    Tabulation.finish_eq_tableOf hd (vars_tabulation o e) hwithin hnodes
  rw [nodes_tabulation] at hn
  rw [hfinish, List.map_injective_iff.2 (fun _ _ => Fin.ext) hn, Options.columns]

end Propositional.CommandLine
