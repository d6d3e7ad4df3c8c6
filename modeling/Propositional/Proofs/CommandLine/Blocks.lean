import Mathlib.Data.List.ReduceOption
import Propositional.Proofs.CommandLine.Run
import Propositional.Proofs.Text.Quoted

/-!
# Blocks

What a run over several expressions writes, put together from what comes of each. Every expression
adds a block to the output, and a line of complaint if it fails. Both depend on its own text and on
the options, not on the other texts, and the block besides on whether it is the first.
-/

namespace Propositional.CommandLine

variable {o o' : Options} {content content' : Except SystemError ByteArray} {log log' : List Entry}
  {texts : List String} {as : List Assignment}

/-! ## One expression among others -/

/-- The options that count for an expression once it has been read. -/
def Options.task (o : Options) : Options where
  outFormat := some o.format
  assignments := o.assignments
  rootOnly := o.rootOnly
  maxVars := o.maxVars

/-- What parts an expression from the one before it in the output. -/
def gap (o : Options) (index : Nat) : String :=
  if o.format = .table ∧ index ≠ 0 then "\n" else ""

/-- What an expression adds to the output. One that fails adds no more than the gap before it. -/
def block (o : Options) (as : List Assignment) (index : Nat) (text : String) : String :=
  match outcome o as text with
  | .ok output => gap o index ++ output ++ "\n"
  | .error _ => gap o index

/-- The line of complaint about an expression that fails. -/
def errorLine? (o : Options) (as : List Assignment) (text : String) : Option String :=
  match outcome o as text with
  | .ok _ => none
  | .error e => some s!"{text}: {e.message}\n"

/-- The line that ends a run in which expressions failed. -/
def summary (failed total : Nat) : String :=
  if failed = 0 then "" else s!"Error: Input(\x22{failed} of {total} expressions failed\x22)\n"

/-- What a run wrote and how it ended, told by the blocks of its expressions and by the lines of
complaint about those that failed. -/
structure Outcome.Consists (r : Outcome) (blocks : List String) (errors : List (Option String)) :
    Prop where
  output : r.output = String.join blocks
  complaints : r.complaints =
    String.join errors.reduceOption ++ summary errors.reduceOption.length errors.length
  exitCode : r.exitCode = if errors.reduceOption = [] then 0 else 1

theorem block_task (o : Options) : block o.task = block o :=
  rfl

theorem errorLine?_task (o : Options) : errorLine? o.task = errorLine? o :=
  rfl

theorem failed_report (o : Options) (as : List Assignment) (text : String) :
    (report o as text).failed = (errorLine? o as text).isSome := by
  rw [Report.failed, errorLine?, result_report_eq]
  cases outcome o as text <;> rfl

/-! ## The events of a run -/

def Event.output? : Event → Option String
  | .output text => some text
  | _ => none

def Event.complaint? : Event → Option String
  | .complaint text => some text
  | _ => none

theorem output_eq (r : Outcome) : r.output = String.join (r.events.filterMap Event.output?) :=
  rfl

theorem complaints_eq (r : Outcome) :
    r.complaints = String.join (r.events.filterMap Event.complaint?) ++
      (r.failure.map Failure.message).getD "" :=
  rfl

/-- What is written about an expression, with what parts it from the one before it. -/
def piece (o : Options) (as : List Assignment) (index : Nat) (text : String) : List Event :=
  (if index = 0 then [] else separator o.format) ++ (report o as text).events text

theorem intercalate_cons {α : Type} (sep x : List α) (xs : List (List α)) :
    sep.intercalate (x :: xs) = x ++ (xs.map (sep ++ ·)).flatten := by
  induction xs generalizing x with
  | nil => simp
  | cons y xs ih =>
    rw [List.intercalate_cons_cons, ih, List.map_cons, List.flatten_cons, List.append_assoc,
      List.append_assoc]

/-- To put a list between others is to put it before all but the first. -/
theorem intercalate_eq_flatten {α : Type} (sep : List α) (xs : List (List α)) :
    sep.intercalate xs =
      (xs.mapIdx fun index x => (if index = 0 then [] else sep) ++ x).flatten := by
  cases xs with
  | nil => rfl
  | cons x xs =>
    -- from the second list on the place makes no difference
    have hrest : (xs.mapIdx fun index y => (if index + 1 = 0 then [] else sep) ++ y) =
        xs.map (sep ++ ·) :=
      List.mapIdx_eq_iff.2 fun _ => List.getElem?_map
    rw [intercalate_cons, List.mapIdx_cons, hrest, List.flatten_cons, if_pos rfl, List.nil_append]

theorem events_eq (o : Options) (as : List Assignment) (texts : List String) :
    eventsOf o.format (reportAll o as texts) = (texts.mapIdx (piece o as)).flatten := by
  rw [eventsOf, reportAll, intercalate_eq_flatten]
  simp only [List.map_map]
  refine congrArg List.flatten (List.mapIdx_eq_iff.2 fun index => ?_)
  rw [List.getElem?_mapIdx, List.getElem?_map, Option.map_map]
  rfl

/-- The output of all pieces, one after the other. -/
theorem join_output_flatten (pieces : List (List Event)) :
    String.join (pieces.flatten.filterMap Event.output?) =
      String.join (pieces.map fun events => String.join (events.filterMap Event.output?)) := by
  induction pieces with
  | nil => rfl
  | cons events pieces ih =>
    rw [List.flatten_cons, List.filterMap_append, String.join_append, ih, List.map_cons,
      String.join_cons]

theorem output_separator (o : Options) (index : Nat) :
    String.join ((if index = 0 then [] else separator o.format).filterMap Event.output?) =
      gap o index := by
  unfold gap separator
  cases index <;> cases o.format <;> rfl

theorem complaint_separator (o : Options) (index : Nat) :
    (if index = 0 then [] else separator o.format).filterMap Event.complaint? = [] := by
  unfold separator
  cases index <;> cases o.format <;> rfl

/-- Log entries show neither in the output nor among the complaints. -/
theorem filterMap_log (log : List Entry) :
    (log.map Event.log).filterMap Event.output? = [] ∧
      (log.map Event.log).filterMap Event.complaint? = [] := by
  constructor <;> exact List.filterMap_eq_nil_iff.2 (by simp [Event.output?, Event.complaint?])

theorem output_piece (o : Options) (as : List Assignment) (index : Nat) (text : String) :
    String.join ((piece o as index text).filterMap Event.output?) = block o as index text := by
  rw [piece, Report.events, result_report_eq, block, List.filterMap_append, List.filterMap_append,
    (filterMap_log _).1, List.nil_append, String.join_append, output_separator]
  cases outcome o as text with
  | ok output => simp [Event.output?, String.append_assoc]
  | error e => exact String.append_empty

theorem complaint_piece (o : Options) (as : List Assignment) (index : Nat) (text : String) :
    (piece o as index text).filterMap Event.complaint? = (errorLine? o as text).toList := by
  rw [piece, Report.events, result_report_eq, errorLine?, List.filterMap_append,
    List.filterMap_append, (filterMap_log _).2, complaint_separator, List.nil_append,
    List.nil_append]
  cases outcome o as text <;> rfl

theorem output_eventsOf (o : Options) (as : List Assignment) (texts : List String) :
    String.join ((eventsOf o.format (reportAll o as texts)).filterMap Event.output?) =
      String.join (texts.mapIdx (block o as)) := by
  rw [events_eq, join_output_flatten]
  refine congrArg String.join (Eq.symm (List.mapIdx_eq_iff.2 fun index => ?_))
  rw [List.getElem?_map, List.getElem?_mapIdx, Option.map_map]
  exact congrArg (texts[index]?.map ·) (funext (output_piece o as index))

theorem complaints_eventsOf (o : Options) (as : List Assignment) (texts : List String) :
    (eventsOf o.format (reportAll o as texts)).filterMap Event.complaint? =
      (texts.map (errorLine? o as)).reduceOption := by
  have hpieces : (texts.mapIdx (piece o as)).map (List.filterMap Event.complaint?) =
      (texts.map (errorLine? o as)).map Option.toList := by
    rw [List.map_map]
    refine List.ext_getElem? fun index => ?_
    rw [List.getElem?_map, List.getElem?_mapIdx, List.getElem?_map, Option.map_map]
    exact congrArg (texts[index]?.map ·) (funext (complaint_piece o as index))
  rw [events_eq, List.filterMap_flatten, hpieces, List.reduceOption,
    List.filterMap_eq_flatMap_toList]
  rfl

/-! ## The run -/

theorem countP_failed (o : Options) (as : List Assignment) (texts : List String) :
    (reportAll o as texts).countP (·.2.failed) =
      (texts.map (errorLine? o as)).reduceOption.length := by
  rw [reportAll, List.countP_map, List.reduceOption, List.filterMap_map,
    List.length_filterMap_eq_countP]
  exact congrArg (texts.countP ·) (funext (failed_report o as))

theorem message_failures (failed total : Nat) :
    (Failure.input (.failures failed total)).message =
      s!"Error: Input(\x22{failed} of {total} expressions failed\x22)\n" := by
  have hof : Text.Plain " of " := by decide
  have hend : Text.Plain " expressions failed" := by decide
  have hdetail : (InputError.failures failed total).detail =
      toString failed ++ " of " ++ toString total ++ " expressions failed" := rfl
  have hplain : Text.Plain (InputError.failures failed total).detail := by
    rw [hdetail]
    exact (((Text.plain_toString failed).append hof).append (Text.plain_toString total)).append hend
  have hopen : "Error: Input(\x22" = "Error: Input(" ++ "\x22" := rfl
  have hclose : " expressions failed\x22)\n" = " expressions failed" ++ "\x22" ++ ")\n" := rfl
  calc (Failure.input (.failures failed total)).message
      = "Error: Input(" ++ Text.quote (InputError.failures failed total).detail ++ ")\n" := rfl
    _ = "Error: Input(\x22" ++ toString failed ++ " of " ++ toString total ++
          " expressions failed\x22)\n" := by
      rw [hplain.quote, hdetail, hopen, hclose]
      simp only [String.append_assoc]

/-- A run is made up of what comes of its expressions. -/
theorem consists_run (hgather : gather o content = .ok (log, texts)) (hne : texts ≠ [])
    (has : Assignment.ofText (o.assignments.getD "") = .ok as) :
    (run o content).Consists (texts.mapIdx (block o as)) (texts.map (errorLine? o as)) := by
  have hprepare : prepare o texts = .ok as := by
    rw [prepare, if_neg (by simpa using hne), has]
  have hrun : run o content =
      { events := (opening o content ++ log).map .log ++ eventsOf o.format (reportAll o as texts)
        failure :=
          if (reportAll o as texts).countP (·.2.failed) = 0 then none
          else some (.input (.failures ((reportAll o as texts).countP (·.2.failed))
            texts.length)) } := by
    simp only [run, hgather, hprepare]
  rw [hrun, countP_failed]
  constructor
  case output =>
    simp only [output_eq, List.filterMap_append, (filterMap_log _).1, List.nil_append,
      output_eventsOf]
  case complaints =>
    simp only [complaints_eq, List.filterMap_append, (filterMap_log _).2, List.nil_append,
      complaints_eventsOf, List.length_map, summary]
    split
    · rfl
    · exact congrArg (_ ++ ·) (message_failures _ _)
  case exitCode =>
    simp only [Outcome.exitCode, List.length_eq_zero_iff]
    split <;> rfl

/-- A run over one expression that is processed ends well and writes what comes of it. -/
theorem run_single {text output : String} (hinput : o.input = none)
    (htexts : o.expressions = [text])
    (has : Assignment.ofText (o.assignments.getD "") = .ok as)
    (hresult : (report o as text).result = .ok output) (content : Except SystemError ByteArray) :
    (run o content).failure = none ∧ (run o content).output = output ++ "\n" := by
  have hgather : gather o content = .ok ([], [text]) := by
    simp only [gather, hinput, htexts]
  rw [result_report_eq] at hresult
  have hblock : block o as 0 text = output ++ "\n" := by
    rw [block, hresult]
    simp [gap]
  have herror : errorLine? o as text = none := by
    rw [errorLine?, hresult]
  -- the failure of a run is told from its exit code alone
  obtain ⟨houtput, -, hexit⟩ := consists_run hgather (List.cons_ne_nil _ _) has
  rw [List.mapIdx_singleton, hblock] at houtput
  rw [List.map_singleton, herror, Outcome.exitCode] at hexit
  refine ⟨?_, houtput.trans (by simp)⟩
  cases hfailure : (run o content).failure with
  | none => rfl
  | some cause =>
    rw [hfailure] at hexit
    cases hexit

/-- The output of a run over texts is that of its expressions in order, and it complains about
exactly those that fail. Another run with the same task over the same texts but one has all blocks
and all lines of complaint in common with it but those of this one. -/
theorem run_blocks (hgather : gather o content = .ok (log, texts)) (hne : texts ≠ [])
    (has : Assignment.ofText (o.assignments.getD "") = .ok as) :
    (run o content).Consists (texts.mapIdx (block o as)) (texts.map (errorLine? o as)) ∧
      ∀ (o' : Options) (content' : Except SystemError ByteArray) (log' : List Entry) (index : Nat)
        (text : String), o'.task = o.task →
        gather o' content' = .ok (log', texts.set index text) →
        (run o' content').Consists ((texts.mapIdx (block o as)).set index (block o as index text))
          ((texts.map (errorLine? o as)).set index (errorLine? o as text)) := by
  refine ⟨consists_run hgather hne has, ?_⟩
  intro o' content' log' index text htask hgather'
  -- the assignments belong to the task, so the other run prepares the same ones
  have has' : Assignment.ofText (o'.task.assignments.getD "") = .ok as := by
    rw [htask]
    exact has
  have hblock : block o' as = block o as := by
    rw [← block_task o', htask, block_task]
  have herror : errorLine? o' as = errorLine? o as := by
    rw [← errorLine?_task o', htask, errorLine?_task]
  have h := consists_run hgather' (by simpa using hne) has'
  rwa [List.mapIdx_set, List.map_set, hblock, herror] at h

/-- The first expression is not read and the last one is not tabulated. Each but the first has an
empty line before its block, also the last one, which becomes the table of `1` in the other run. -/
theorem run_blocks_failing :
    let o : Options := { expressions := ["(A", "0", "A & B"], maxVars := 1 }
    let o' : Options := { o with expressions := ["(A", "0", "1"] }
    gather o (.ok .empty) = .ok ([], ["(A", "0", "A & B"]) ∧
      Assignment.ofText (o.assignments.getD "") = .ok [] ∧
      (run o (.ok .empty)).output = "" ++ "\n0\n\n\n\n\n" ++ "\n" ∧
      (run o (.ok .empty)).complaints = "(A: SyntaxError: closing parenthesis not found\n" ++
        "A & B: TooManyVariables: 2 variables exceeds the limit of 1\n" ++
        "Error: Input(\x222 of 3 expressions failed\x22)\n" ∧
      (run o (.ok .empty)).exitCode = 1 ∧
      (run o' (.ok .empty)).output = "" ++ "\n0\n\n\n\n\n" ++ "\n1\n\n\n\n\n" := by
  intro o o'
  have hgather : gather o (.ok .empty) = .ok ([], ["(A", "0", "A & B"]) := rfl
  have has : Assignment.ofText (o.assignments.getD "") = .ok [] := rfl
  obtain ⟨hrun, hother⟩ := run_blocks hgather (by decide) has
  refine ⟨hgather, has, hrun.output.trans ?_, hrun.complaints.trans ?_, hrun.exitCode.trans ?_, ?_⟩
  · decide +kernel
  · decide +kernel
  · decide +kernel
  · exact (hother o' (.ok .empty) [] 2 "1" rfl rfl).output.trans (by decide +kernel)

end Propositional.CommandLine
