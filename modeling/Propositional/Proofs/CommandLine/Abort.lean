import Propositional.Proofs.Assignment.Reading
import Propositional.Proofs.CommandLine.Blocks
import Propositional.Proofs.CommandLine.Routes

/-!
# Runs that end at once

Before a run looks at any expression its input, the number of expressions and the assignments are
settled, in this order. The first of them that fails ends the run with a line about it and nothing
else. In all other runs every expression is processed.
-/

namespace Propositional

open Source (Fails Holds)

/-- Behind items that are assignments or blank comes one that is faulty. -/
def Assignment.Malformed (text : String) (cause : InputError) : Prop :=
  ∃ before item after as, text.toList.splitOn ',' = before ++ item :: after ∧
    Assignment.WritesItems before as ∧ Assignment.Faults item cause

namespace CommandLine

variable {o : Options} {content : Except SystemError ByteArray} {texts : List String}
  {as : List Assignment} {failure : Failure}

/-! ## What can end a run -/

/-- The texts of the lines of the input file. Without one there are none. -/
inductive Supplies (o : Options) (content : Except SystemError ByteArray) : List String → Prop where
  | none : o.input = none → Supplies o content []
  | file {path bytes text} :
      o.input = some path → content = .ok bytes → Holds path bytes text →
      Supplies o content (Source.expressions o.comment text.toList)

/-- The assignments among the options. If none are given there are none. -/
inductive Prepares (o : Options) : List Assignment → Prop where
  | none : o.assignments = none → Prepares o []
  | given {text as} :
      o.assignments = some text → Assignment.Writes text as →
      Prepares o as

/-- What ends a run before it looks at any expression. Each of the three takes that those before it
are in order. -/
inductive Aborts (o : Options) (content : Except SystemError ByteArray) : Failure → Prop where
  | source {path cause} :
      o.input = some path → Fails path content cause →
      Aborts o content (.source cause)
  | noExpression {texts : List String} :
      Supplies o content texts → o.expressions ++ texts = [] →
      Aborts o content (.input .noExpression)
  | assignments {texts : List String} {text : String} {cause : InputError} :
      Supplies o content texts → o.expressions ++ texts ≠ [] →
      o.assignments = some text → Assignment.Malformed text cause →
      Aborts o content (.input cause)

/-- What is logged about an input file. -/
def fileLog (o : Options) (texts : List String) : List Entry :=
  if o.input.isSome then [readEntry texts.length] else []

theorem gather_of_supplies (h : Supplies o content texts) :
    gather o content = .ok (fileLog o texts, o.expressions ++ texts) := by
  cases h with
  | none hinput => simp [gather, fileLog, hinput]
  | @file path bytes text hinput hcontent hholds =>
    have hread : Source.read o.comment path (.ok bytes) =
        .ok (Source.expressions o.comment text.toList) := Source.read_of_holds hholds
    simp only [gather, fileLog, hinput, hcontent, hread]
    rfl

theorem gather_of_fails {path : String} {cause : SourceError} (hinput : o.input = some path)
    (h : Fails path content cause) : gather o content = .error cause := by
  simp only [gather, hinput, Source.read_of_fails h]
  rfl

theorem ofText_of_prepares (h : Prepares o as) :
    Assignment.ofText (o.assignments.getD "") = .ok as := by
  cases h with
  | none hnone =>
    rw [hnone]
    rfl
  | given hgiven hwrites =>
    rw [hgiven]
    exact Assignment.ofText_of_writes hwrites

theorem supplies_or_fails (o : Options) (content : Except SystemError ByteArray) :
    (∃ texts, Supplies o content texts) ∨
      ∃ path cause, o.input = some path ∧ Fails path content cause := by
  cases hinput : o.input with
  | none => exact .inl ⟨_, .none hinput⟩
  | some path =>
    rcases Source.fails_or_holds path content with ⟨cause, hfails⟩ | ⟨bytes, text, hcontent, hholds⟩
    · exact .inr ⟨path, cause, rfl, hfails⟩
    · exact .inl ⟨_, .file hinput hcontent hholds⟩

theorem prepares_or_malformed (o : Options) :
    (∃ as, Prepares o as) ∨ ∃ text cause, o.assignments = some text ∧
      Assignment.Malformed text cause := by
  cases hgiven : o.assignments with
  | none => exact .inl ⟨_, .none hgiven⟩
  | some text =>
    rcases Assignment.writes_or_faults text with
      ⟨as, has⟩ | ⟨before, item, after, as, cause, hitems⟩
    · exact .inl ⟨as, .given hgiven has⟩
    · exact .inr ⟨text, cause, rfl, before, item, after, as, hitems⟩

/-- A run that nothing ends has texts and assignments. -/
theorem exists_of_not_aborts (h : ∀ failure, ¬ Aborts o content failure) :
    ∃ texts as, Supplies o content texts ∧ o.expressions ++ texts ≠ [] ∧ Prepares o as := by
  rcases supplies_or_fails o content with ⟨texts, htexts⟩ | ⟨path, cause, hinput, hfails⟩
  · by_cases hempty : o.expressions ++ texts = []
    · exact absurd (.noExpression htexts hempty) (h _)
    · rcases prepares_or_malformed o with ⟨as, has⟩ | ⟨text, cause, hgiven, hmalformed⟩
      · exact ⟨texts, as, htexts, hempty, has⟩
      · exact absurd (.assignments htexts hempty hgiven hmalformed) (h _)
  · exact absurd (.source hinput hfails) (h _)

/-! ## Runs -/

/-- What ends a run is all that comes of it but for the start of the log. -/
theorem run_of_aborts (h : Aborts o content failure) :
    ∃ log : List Entry, (log = [] ∨ ∃ count, log = [readEntry count]) ∧
      run o content = ⟨(opening o content ++ log).map .log, some failure⟩ := by
  have hlog (texts : List String) : fileLog o texts = [] ∨ ∃ count, fileLog o texts =
      [readEntry count] := by
    unfold fileLog
    split
    · exact .inr ⟨_, rfl⟩
    · exact .inl rfl
  cases h with
  | source hinput hfails =>
    refine ⟨[], .inl rfl, ?_⟩
    simp only [run, gather_of_fails hinput hfails, List.append_nil]
  | @noExpression texts htexts hempty =>
    refine ⟨fileLog o texts, hlog texts, ?_⟩
    have hprepare : prepare o (o.expressions ++ texts) = .error .noExpression := by
      rw [hempty]
      rfl
    simp only [run, gather_of_supplies htexts, hprepare]
  | @assignments texts text cause htexts hne hgiven hmalformed =>
    refine ⟨fileLog o texts, hlog texts, ?_⟩
    obtain ⟨before, item, after, as, hitems, hbefore, hfault⟩ := hmalformed
    have hprepare : prepare o (o.expressions ++ texts) = .error cause := by
      rw [prepare, if_neg (by simpa using hne), hgiven]
      exact Assignment.ofText_of_faults hitems hbefore hfault
    simp only [run, gather_of_supplies htexts, hprepare]

/-- The log of a run that is ended has no entry above the lowest level. -/
theorem level_of_mem_log {log : List Entry} (hlog : log = [] ∨ ∃ count, log = [readEntry count])
    {entry : Entry} (h : entry ∈ opening o content ++ log) :
    entry.level = .debug ∧ (entry ∈ opening o content ∨ ∃ count, entry = readEntry count) := by
  rcases List.mem_append.1 h with hopening | hread
  · exact ⟨level_opening o content entry hopening, .inl hopening⟩
  · rcases hlog with rfl | ⟨count, rfl⟩
    · cases hread
    · obtain rfl := List.mem_singleton.1 hread
      exact ⟨rfl, .inr ⟨count, rfl⟩⟩

/-- A run that is not ended writes a piece for each of its texts. -/
theorem run_of_supplies (htexts : Supplies o content texts) (hne : o.expressions ++ texts ≠ [])
    (has : Prepares o as) :
    (run o content).events = (opening o content ++ fileLog o texts).map .log ++
      ((o.expressions ++ texts).mapIdx (piece o as)).flatten := by
  have hprepare : prepare o (o.expressions ++ texts) = .ok as := by
    rw [prepare, if_neg (by simpa using hne), ofText_of_prepares has]
  simp only [run, gather_of_supplies htexts, hprepare, events_eq]

/-! ## The line about a failure -/

theorem not_mem_append {c : Char} {left right : String} (hleft : c ∉ left.toList)
    (hright : c ∉ right.toList) : c ∉ (left ++ right).toList := by
  rw [String.toList_append, List.mem_append]
  exact not_or.2 ⟨hleft, hright⟩

theorem not_mem_quoted {before after : String} (hbefore : '\n' ∉ before.toList) (text : String)
    (hafter : '\n' ∉ after.toList) : '\n' ∉ (before ++ Text.quote text ++ after).toList :=
  not_mem_append (not_mem_append hbefore (Text.not_mem_quote text)) hafter

theorem not_mem_custom {kind : String} (h : '\n' ∉ kind.toList) (detail : String) :
    '\n' ∉ (SourceError.custom kind detail).toList := by
  have hcustom : SourceError.custom kind detail =
      "Custom \x7b kind: " ++ kind ++ ", error: " ++ Text.quote detail ++ " \x7d" := rfl
  rw [hcustom]
  refine not_mem_quoted (not_mem_append (not_mem_append ?_ h) ?_) detail ?_
  · decide +kernel
  · decide +kernel
  · decide +kernel

theorem not_mem_kind (cause : SystemError) : '\n' ∉ cause.kind.toList := by
  have hkinds : ∀ entry ∈ SystemError.kinds, '\n' ∉ entry.2.toList := by decide +kernel
  unfold SystemError.kind
  cases hkind : SystemError.kinds.lookup cause.code with
  | none => decide +kernel
  | some kind =>
    obtain ⟨before, after, hsplit, -⟩ := List.lookup_eq_some_iff.1 hkind
    exact hkinds (cause.code, kind) (by rw [hsplit]; simp)

theorem not_mem_report (cause : SourceError) : '\n' ∉ cause.report.toList := by
  cases cause with
  | system cause =>
    have hreport : (SourceError.system cause).report = "Os \x7b code: " ++ toString cause.code ++
        ", kind: " ++ cause.kind ++ ", message: " ++ Text.quote cause.text ++ " \x7d" := rfl
    have hcode : '\n' ∉ (toString cause.code).toList := fun h =>
      absurd (Text.plain_toString cause.code _ h) (by decide)
    have hkind : '\n' ∉ ("Os \x7b code: " ++ toString cause.code ++ ", kind: " ++
        cause.kind).toList := by
      refine not_mem_append (not_mem_append (not_mem_append ?_ hcode) ?_) (not_mem_kind cause)
      · decide +kernel
      · decide +kernel
    rw [hreport]
    refine not_mem_quoted (not_mem_append hkind ?_) cause.text ?_
    · decide +kernel
    · decide +kernel
  | notText =>
    have hreport : SourceError.notText.report = "Error \x7b kind: InvalidData, message: " ++
        Text.quote SourceError.notText.message ++ " \x7d" := rfl
    rw [hreport]
    refine not_mem_quoted ?_ _ ?_
    · decide +kernel
    · decide +kernel
  | stream fault =>
    -- an end of the stream in front of any data is told without detail
    cases fault with
    | truncated => decide +kernel
    | incompleteData => exact not_mem_custom (by decide +kernel) _
    | badHeader | longField | badData | badChecksum => exact not_mem_custom (by decide +kernel) _

/-- A failure is told in a single line, whatever it quotes. -/
theorem message_eq (failure : Failure) :
    ∃ line, failure.message = "Error: " ++ line ++ "\n" ∧ '\n' ∉ line.toList := by
  cases failure with
  | source cause => exact ⟨cause.report, rfl, not_mem_report cause⟩
  | input cause =>
    have hopen : "Error: Input(" = "Error: " ++ "Input(" := rfl
    have hclose : ")\n" = ")" ++ "\n" := rfl
    have hmessage : (Failure.input cause).message =
        "Error: Input(" ++ Text.quote cause.detail ++ ")\n" := rfl
    refine ⟨"Input(" ++ Text.quote cause.detail ++ ")", ?_, ?_⟩
    · rw [hmessage, hopen, hclose]
      simp only [String.append_assoc]
    · refine not_mem_quoted ?_ _ ?_
      · decide +kernel
      · decide +kernel

/-! ## All runs -/

/-- If one of three failures ends a run, nothing is written but the line about it: no output, no
complaint about an expression, and in the log, at the lowest level, no more than the options, the
name of a compressed file and how many texts the file holds. So at any other level the line is all
that stands in the error stream. In every other case each expression is processed at its place,
those among the options before those of the file. -/
theorem run_aborts (o : Options) (content : Except SystemError ByteArray) :
    (∀ failure, Aborts o content failure →
      (run o content).output = "" ∧
      (run o content).complaints = failure.message ∧
      (∃ line, failure.message = "Error: " ++ line ++ "\n" ∧ '\n' ∉ line.toList) ∧
      (run o content).exitCode = 1 ∧
      (∀ event ∈ (run o content).events, ∃ entry, event = .log entry ∧ entry.level = .debug ∧
        (entry ∈ opening o content ∨ ∃ count, entry = readEntry count)) ∧
      ∀ threshold, threshold ≠ .debug → (run o content).errors threshold = failure.message) ∧
    ((∀ failure, ¬ Aborts o content failure) →
      ∃ texts as, Supplies o content texts ∧ Prepares o as ∧
        (run o content).events = (opening o content ++ fileLog o texts).map .log ++
          ((o.expressions ++ texts).mapIdx (piece o as)).flatten ∧
        (run o content).Consists ((o.expressions ++ texts).mapIdx (block o as))
          ((o.expressions ++ texts).map (errorLine? o as))) := by
  refine ⟨fun failure h => ?_, fun h => ?_⟩
  · obtain ⟨log, hlog, hrun⟩ := run_of_aborts h
    rw [hrun]
    refine ⟨?_, ?_, message_eq failure, rfl, ?_, ?_⟩
    · rw [output_eq, (filterMap_log _).1]
      rfl
    · simp only [complaints_eq, (filterMap_log _).2]
      exact String.empty_append
    · intro event hevent
      obtain ⟨entry, hentry, rfl⟩ := List.mem_map.1 hevent
      exact ⟨entry, rfl, level_of_mem_log hlog hentry⟩
    · intro threshold h
      have hlevels : ∀ entry ∈ opening o content ++ log, entry.level = .debug :=
        fun entry hentry => (level_of_mem_log hlog hentry).1
      have hhidden := errors_of_hidden hlevels h [] (some failure)
      rw [List.append_nil] at hhidden
      exact hhidden.trans String.empty_append
  · obtain ⟨texts, as, htexts, hne, has⟩ := exists_of_not_aborts h
    exact ⟨texts, as, htexts, has, run_of_supplies htexts hne has,
      consists_run (gather_of_supplies htexts) hne (ofText_of_prepares has)⟩

/-- The last item ends the run, though no assignment counts for the format. -/
example :
    let o : Options :=
      { expressions := ["1"], outFormat := some .render, assignments := some "A=1, B" }
    (run o (.ok .empty)).output = "" ∧
      (run o (.ok .empty)).failure = some (.input (.malformedAssignment "B")) := by
  decide +kernel

end CommandLine

end Propositional
