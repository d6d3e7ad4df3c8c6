import Propositional.Proofs.CommandLine.Agreement
import Propositional.Proofs.Expression.Missing
import Propositional.Proofs.Expression.Variables

/-!
# Values under assignments

What comes of an expression that is evaluated under assignments. Of several assignments to a label
the last one counts, those to labels that do not occur cause a warning each and nothing else, and
where a label that occurs is not assigned the last one of these in the text is named.
-/

namespace Propositional.CommandLine

open Grammar Assignment

variable {o : Options} {text assign : String} {e : Expression} {f : Formula}
  {as as' : List Assignment}

/-! ## Warnings -/

/-- The warning about an assignment to a label that does not occur. -/
def absentEntry (e : Expression) (a : Assignment) : Entry :=
  ⟨.warn, s!"{a.label} does not occur in {e.text}"⟩

/-- The assignments to labels that do not occur. -/
def absent (e : Expression) (as : List Assignment) : List Assignment :=
  as.filter fun a => a.label ∉ e.labels

theorem log_assignAll (e : Expression) (as : List Assignment) :
    (assignAll e as).1 = (absent e as).map (absentEntry e) := by
  induction as generalizing e with
  | nil => rfl
  | cons a as ih =>
    have hassign : (e.assign? a.label a.value).isSome ↔ a.label ∈ e.labels :=
      Expression.isSome_assign?
    cases h : e.assign? a.label a.value with
    | some e' =>
      have hoccurs : a.label ∈ e.labels := hassign.1 (by rw [h, Option.isSome_some])
      have hkept : absent e (a :: as) = absent e as :=
        List.filter_cons_of_neg (by simpa using hoccurs)
      -- labels and text are those of the network, which assigning keeps
      obtain ⟨x, -, rfl⟩ := Option.map_eq_some_iff.1 h
      rw [hkept, assignAll, h]
      exact ih _
    | none =>
      have hoccurs : a.label ∉ e.labels := by
        rw [← hassign, h]
        exact Bool.false_ne_true
      have hkept : absent e (a :: as) = a :: absent e as :=
        List.filter_cons_of_pos (by simpa using hoccurs)
      rw [hkept, List.map_cons, ← ih, assignAll, h]
      rfl

/-! ## Results -/

theorem process_of_eval (hformat : o.format = .eval) (as : List Assignment) (e : Expression) :
    process o as e = evaluate as e := by
  rw [process, hformat]

/-- An evaluation comes to what the formula comes to under the last values. -/
theorem result_evaluate_eq (f : Formula) (as : List Assignment) :
    (evaluate as (.ofFormula f)).result =
      ((f.evaluate (lastValue? as)).map fun b => (Table.digit b).toString).mapError
        .evaluation := by
  obtain ⟨v, hrun, hv⟩ := Expression.run_actionsOf_agrees f as
  rw [run_actionsOf] at hrun
  have hvalue := hv.evaluate (Expression.ofFormula f).root
  rw [Expression.formula_root] at hvalue
  simp only [evaluate, Except.ok.inj hrun, ← hvalue]
  rfl

theorem toString_digit (b : Bool) : (Table.digit b).toString = if b then "1" else "0" := by
  cases b <;> rfl

/-- Where every label that occurs is assigned, the result is the value under the last values. -/
theorem result_evaluate_of_listed (h : ∀ label ∈ f.labels, ∃ a ∈ as, a.label = label) :
    (evaluate as (.ofFormula f)).result =
      .ok (if f.value fun label => (lastValue? as label).getD false then "1" else "0") := by
  have hcovers : f.Covers (lastValue? as) := fun label hl => isSome_lastValue?.2 (h label hl)
  rw [result_evaluate_eq, Formula.evaluate_of_covers hcovers, ← toString_digit]
  rfl

/-- Otherwise the error names the last one of the labels that are not assigned. -/
theorem result_evaluate_of_unlisted (h : ¬ ∀ label ∈ f.labels, ∃ a ∈ as, a.label = label) :
    ∃ label, Formula.LastMissing (lastValue? as) f.labels label ∧
      (evaluate as (.ofFormula f)).result = .error (.evaluation ⟨label⟩) := by
  rw [result_evaluate_eq]
  cases hvalue : f.evaluate (lastValue? as) with
  | ok b =>
    have hcovers : f.Covers (lastValue? as) := Formula.exists_evaluate_eq_ok.1 ⟨b, hvalue⟩
    exact absurd (fun label hl => isSome_lastValue?.1 (hcovers label hl)) h
  | error cause => exact ⟨cause.label, Formula.lastMissing_of_evaluate hvalue, rfl⟩

/-- Assignments with the same last values come to the same. -/
theorem result_evaluate_congr
    (h : ∀ label ∈ f.labels, lastValue? as' label = lastValue? as label) :
    (evaluate as' (.ofFormula f)).result = (evaluate as (.ofFormula f)).result := by
  rw [result_evaluate_eq, result_evaluate_eq, Formula.evaluate_congr h]

/-! ## What is printed -/

/-- The events of a run over one expression are those of its report, behind an entry about the
options. -/
theorem events_toEval (has : Assignment.ofText assign = .ok as) (o : Options) (text : String)
    (content : Except SystemError ByteArray) :
    (run (o.toEval text assign) content).events =
      .log ⟨.debug, (o.toEval text assign).describe⟩ ::
        (report (o.toEval text assign) as text).events text := by
  have hgather : gather (o.toEval text assign) content = .ok ([], [text]) := rfl
  have hprepare : prepare (o.toEval text assign) [text] = .ok as := has
  have hopening : opening (o.toEval text assign) content =
      [⟨.debug, (o.toEval text assign).describe⟩] := rfl
  have hevents : eventsOf (o.toEval text assign).format
      (reportAll (o.toEval text assign) as [text]) =
        (report (o.toEval text assign) as text).events text := List.intercalate_singleton
  simp only [run, hgather, hprepare, hopening, hevents]
  rfl

theorem level_readExpression (text : String) :
    ∀ entry ∈ (readExpression text).1, entry.level = .debug := by
  unfold readExpression
  cases lex text with
  | error => exact nofun
  | ok symbols =>
    dsimp only
    cases Expression.ofSymbols symbols with
    | error => exact List.forall_mem_singleton.2 rfl
    | ok => exact List.forall_mem_cons.2 ⟨rfl, List.forall_mem_singleton.2 rfl⟩

theorem log_report (he : Expression.ofText text = .ok e) (o : Options) (as : List Assignment) :
    (report o as text).log = (readExpression text).1 ++ (process o as e).log := by
  have hread := readExpression_snd text
  rw [he] at hread
  rw [report, ← Prod.mk.eta (p := readExpression text), hread]

def Event.entry? : Event → Option Entry
  | .log entry => some entry
  | _ => none

/-- Beside the log of a report nothing as grave as a warning is logged. -/
theorem log_warn_events (message : String) (r : Report) (text : String)
    (failure : Option Failure) :
    Outcome.log ⟨.log ⟨.debug, message⟩ :: r.events text, failure⟩ .warn =
      r.log.filter fun entry => Level.warn.severity ≤ entry.level.severity := by
  have hlog : (r.log.map Event.log).filterMap Event.entry? = r.log := by
    rw [List.filterMap_map]
    exact List.filterMap_some
  have heq : Outcome.log ⟨.log ⟨.debug, message⟩ :: r.events text, failure⟩ .warn =
      ((r.events text).filterMap Event.entry?).filter
        fun entry => Level.warn.severity ≤ entry.level.severity := rfl
  rw [heq, Report.events, List.filterMap_append, hlog, List.filter_append]
  cases r.result <;> exact List.append_nil _

/-- At the default threshold only the warnings about labels that do not occur are logged. -/
theorem log_toEval (he : Expression.ofText text = .ok e)
    (has : Assignment.ofText assign = .ok as) (o : Options)
    (content : Except SystemError ByteArray) :
    (run (o.toEval text assign) content).log .warn = (absent e as).map (absentEntry e) := by
  have hread : (readExpression text).1.filter
      (fun entry => Level.warn.severity ≤ entry.level.severity) = [] := by
    refine List.filter_eq_nil_iff.2 fun entry hentry => ?_
    rw [level_readExpression text entry hentry]
    decide
  have hwarned : ((absent e as).map (absentEntry e)).filter
      (fun entry => Level.warn.severity ≤ entry.level.severity) =
        (absent e as).map (absentEntry e) := by
    refine List.filter_eq_self.2 fun entry hentry => ?_
    obtain ⟨a, -, rfl⟩ := List.mem_map.1 hentry
    rfl
  have hlog : (evaluate as e).log = (absent e as).map (absentEntry e) := log_assignAll e as
  have hrun : run (o.toEval text assign) content =
      ⟨.log ⟨.debug, (o.toEval text assign).describe⟩ ::
          (report (o.toEval text assign) as text).events text,
        (run (o.toEval text assign) content).failure⟩ :=
    congrArg (Outcome.mk · _) (events_toEval has o text content)
  rw [hrun, log_warn_events, log_report he, process_of_eval rfl, List.filter_append, hread, hlog,
    hwarned, List.nil_append]

theorem outcome_toEval (he : Expression.ofText text = .ok e) (o : Options) (assign : String)
    (as : List Assignment) : outcome (o.toEval text assign) as text = (evaluate as e).result := by
  rw [← result_report_eq, result_report he, process_of_eval rfl]

theorem consists_toEval (has : Assignment.ofText assign = .ok as) (o : Options) (text : String)
    (content : Except SystemError ByteArray) :
    (run (o.toEval text assign) content).Consists [block (o.toEval text assign) as 0 text]
      [errorLine? (o.toEval text assign) as text] := by
  have hgather : gather (o.toEval text assign) content = .ok ([], [text]) := rfl
  exact consists_run hgather (List.cons_ne_nil _ _) has

/-- A value is printed on a line. -/
theorem run_toEval_of_ok (he : Expression.ofText text = .ok e)
    (has : Assignment.ofText assign = .ok as) {output : String}
    (hresult : (evaluate as e).result = .ok output) (o : Options)
    (content : Except SystemError ByteArray) :
    (run (o.toEval text assign) content).output = output ++ "\n" ∧
      (run (o.toEval text assign) content).complaints = "" ∧
      (run (o.toEval text assign) content).exitCode = 0 := by
  have houtcome := (outcome_toEval he o assign as).trans hresult
  have hconsists := consists_toEval has o text content
  have hblock : block (o.toEval text assign) as 0 text = output ++ "\n" := by
    rw [block, houtcome]
    simp [gap]
  have herror : errorLine? (o.toEval text assign) as text = none := by
    rw [errorLine?, houtcome]
  rw [hblock, herror] at hconsists
  exact ⟨hconsists.output.trans (by simp), hconsists.complaints, hconsists.exitCode⟩

/-- An error is complained about, and the run fails. -/
theorem run_toEval_of_error (he : Expression.ofText text = .ok e)
    (has : Assignment.ofText assign = .ok as) {cause : Error}
    (hresult : (evaluate as e).result = .error cause) (o : Options)
    (content : Except SystemError ByteArray) :
    (run (o.toEval text assign) content).output = "" ∧
      (run (o.toEval text assign) content).complaints =
        s!"{text}: {cause.message}\n" ++ summary 1 1 ∧
      (run (o.toEval text assign) content).exitCode = 1 := by
  have houtcome := (outcome_toEval he o assign as).trans hresult
  have hconsists := consists_toEval has o text content
  have hblock : block (o.toEval text assign) as 0 text = "" := by
    rw [block, houtcome]
    simp [gap]
  have herror : errorLine? (o.toEval text assign) as text =
      some s!"{text}: {cause.message}\n" := by
    rw [errorLine?, houtcome]
  rw [hblock, herror] at hconsists
  exact ⟨hconsists.output.trans (by simp), hconsists.complaints.trans (by simp), hconsists.exitCode⟩

/-- To evaluate an expression under assignments comes to its value under the map that gives each of
its labels the value that it is assigned last, `1` if it is true and `0` if it is false, provided
that all are assigned. Otherwise it fails and names the last label in the text that is not. There
is one warning for each assignment to a label that does not occur, in order. What it comes to
depends on the last values of the labels that occur only, so assignments to other labels and
assignments that are overridden can be left out, and assignments to different labels can be
reordered. A run prints the result or complains about it, and logs the warnings. -/
theorem process_eval {text : String} {e : Expression} (he : Expression.ofText text = .ok e)
    {o : Options} (hformat : o.format = .eval) (as : List Assignment) :
    (∃ symbols f d, lex text = .ok symbols ∧ Derives .disjunction symbols f d ∧
      ((∀ label ∈ e.labels, ∃ a ∈ as, a.label = label) →
        (process o as e).result =
          .ok (if f.value fun label => (lastValue? as label).getD false then "1" else "0")) ∧
      ((∃ label ∈ e.labels, ∀ a ∈ as, a.label ≠ label) →
        ∃ before label after, symbols = before ++ ⟨.var, label⟩ :: after ∧
          (∀ a ∈ as, a.label ≠ label) ∧
          (∀ l, ⟨.var, l⟩ ∈ after → ∃ a ∈ as, a.label = l) ∧
          (process o as e).result = .error (.evaluation ⟨label⟩))) ∧
    (process o as e).log =
      (as.filter fun a => a.label ∉ e.labels).map
        (fun a => ⟨.warn, s!"{a.label} does not occur in {e.text}"⟩) ∧
    (∀ as', (∀ label ∈ e.labels, lastValue? as' label = lastValue? as label) →
      (process o as' e).result = (process o as e).result) ∧
    (∀ as', Relation.EqvGen (Adjusts e.labels) as as' →
      (process o as' e).result = (process o as e).result) ∧
    ∀ assign content, Assignment.ofText assign = .ok as →
      (run (o.toEval text assign) content).log .warn = (process o as e).log ∧
      (∀ output, (process o as e).result = .ok output →
        (run (o.toEval text assign) content).output = output ++ "\n" ∧
        (run (o.toEval text assign) content).complaints = "" ∧
        (run (o.toEval text assign) content).exitCode = 0) ∧
      ∀ cause, (process o as e).result = .error cause →
        (run (o.toEval text assign) content).output = "" ∧
        (run (o.toEval text assign) content).complaints =
          s!"{text}: {cause.message}\n" ++ "Error: Input(\x221 of 1 expressions failed\x22)\n" ∧
        (run (o.toEval text assign) content).exitCode = 1 := by
  simp only [process_of_eval hformat]
  refine ⟨?_, log_assignAll e as, ?_, ?_, ?_⟩
  · obtain ⟨f, hf, rfl⟩ := Expression.ofText_eq_ok he
    obtain ⟨symbols, d, hlex, hd, _⟩ := Formula.derives_of_ofText hf
    simp only [Expression.mem_labels_ofFormula]
    refine ⟨symbols, f, d, hlex, hd, result_evaluate_of_listed, ?_⟩
    rintro ⟨missing, hmissing, hnone⟩
    have hunlisted : ¬ ∀ label ∈ f.labels, ∃ a ∈ as, a.label = label := by
      intro hall
      obtain ⟨a, ha, hlabel⟩ := hall missing hmissing
      exact hnone a ha hlabel
    obtain ⟨label, ⟨before, after, hlabels, hunset, hset⟩, hresult⟩ :=
      result_evaluate_of_unlisted hunlisted
    obtain ⟨s₁, s₂, rfl, rfl⟩ := Symbol.exists_split (hd.labels_eq.trans hlabels)
    refine ⟨s₁, label, s₂, rfl, lastValue?_eq_none.1 hunset, fun l hl => ?_, hresult⟩
    exact isSome_lastValue?.1 (hset l (Symbol.mem_filterMap_label?.2 hl))
  · obtain ⟨f, -, rfl⟩ := Expression.ofText_eq_ok he
    intro as' hlast
    exact result_evaluate_congr fun label hl => hlast label (Expression.mem_labels_ofFormula.2 hl)
  · obtain ⟨f, -, rfl⟩ := Expression.ofText_eq_ok he
    intro as' hadjusts
    refine result_evaluate_congr fun label hl => ?_
    exact lastValue?_of_eqvGen hadjusts (Expression.mem_labels_ofFormula.2 hl)
  · intro assign content has
    refine ⟨(log_toEval he has o content).trans (log_assignAll e as).symm, ?_, ?_⟩
    · intro output hresult
      exact run_toEval_of_ok he has hresult o content
    · intro cause hresult
      exact run_toEval_of_error he has hresult o content

/-- `B` is assigned twice, and `C` does not occur. Without an assignment to `A` there is no value. -/
theorem process_eval_repeated :
    let text := "A & (~A | B)"
    let e := Expression.ofFormula
      (.binary .and (.var "A") (.binary .or (.negation (.var "A")) (.var "B")))
    let o : Options := { outFormat := some .eval }
    let as : List Assignment := [⟨"B", true⟩, ⟨"C", false⟩, ⟨"B", false⟩]
    let given : List Assignment := [⟨"B", false⟩, ⟨"C", false⟩, ⟨"A", true⟩, ⟨"B", true⟩]
    Expression.ofText text = .ok e ∧ o.format = .eval ∧
      (process o as e).result = .error (.evaluation ⟨"A"⟩) ∧
      (process o as e).log = [⟨.warn, "C does not occur in A ∧ (~A ∨ B)"⟩] ∧
      (process o [⟨"B", false⟩] e).result = (process o as e).result ∧
      (∃ before after, lex text = .ok (before ++ ⟨.var, "A"⟩ :: after) ∧
        ∀ l, ⟨.var, l⟩ ∈ after → ∃ a ∈ as, a.label = l) ∧
      (process o given e).result = .ok "1" ∧
      (run (o.toEval text "B=0,C=0,A=1,B=1") (.ok .empty)).output = "1\n" ∧
      (run (o.toEval text "B=0,C=0,A=1,B=1") (.ok .empty)).log .warn =
        [⟨.warn, "C does not occur in A ∧ (~A ∨ B)"⟩] := by
  intro text e o as given
  have he : Expression.ofText text = .ok e := Expression.ofText_of_toOption (by decide +kernel)
  have hformat : o.format = .eval := rfl
  have hmissing : ∃ label ∈ e.labels, ∀ a ∈ as, a.label ≠ label := ⟨"A", by decide +kernel⟩
  have hresult : (process o as e).result = .error (.evaluation ⟨"A"⟩) := by decide +kernel
  have habsent : Adjusts e.labels ([⟨"B", true⟩] ++ ⟨"C", false⟩ :: [⟨"B", false⟩])
      ([⟨"B", true⟩] ++ [⟨"B", false⟩]) := .absent (by decide +kernel)
  have hoverridden : Adjusts e.labels ([] ++ ⟨"B", true⟩ :: [⟨"B", false⟩])
      ([] ++ [⟨"B", false⟩]) := .overridden ⟨_, List.mem_cons_self, rfl⟩
  have hgiven : Assignment.ofText "B=0,C=0,A=1,B=1" = .ok given :=
    toOption_eq_some.1 (by decide +kernel)
  have hone : (process o given e).result = .ok "1" := by decide +kernel
  obtain ⟨⟨symbols, f, d, hlex, -, -, hnames⟩, hlog, -, hadjusts, -⟩ := process_eval he hformat as
  obtain ⟨before, label, after, rfl, -, hset, herror⟩ := hnames hmissing
  rw [hresult] at herror
  obtain rfl : "A" = label := by simpa using herror
  obtain ⟨-, hwarned, -, -, hruns⟩ := process_eval he hformat given
  obtain ⟨hrunLog, hprinted, -⟩ := hruns _ (.ok .empty) hgiven
  refine ⟨he, hformat, hresult, hlog.trans (by decide +kernel), ?_, ⟨before, after, hlex, hset⟩,
    hone, (hprinted _ hone).1, hrunLog.trans (hwarned.trans (by decide +kernel))⟩
  exact hadjusts _ (.trans _ _ _ (.rel _ _ habsent) (.rel _ _ hoverridden))

end Propositional.CommandLine
