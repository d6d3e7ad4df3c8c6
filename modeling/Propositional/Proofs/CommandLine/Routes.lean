import Propositional.Proofs.CommandLine.Blocks
import Propositional.Proofs.Source.Lines

/-!
# Routes

Texts reach a run as arguments or as the lines of its input file. A run does the same with them
either way. Only its log starts otherwise, at the lowest level.
-/

namespace Propositional.CommandLine

open Source

/-- The options with texts among the arguments, and an input file. -/
def Options.withFile (o : Options) (texts : List String) (path : String) : Options :=
  { o with expressions := texts, input := some path }

/-- The options with texts among the arguments only. -/
def Options.withTexts (o : Options) (texts : List String) : Options :=
  { o with expressions := texts, input := none }

/-- The entry about an input file. -/
def readEntry (count : Nat) : Entry :=
  ⟨.debug, s!"read {count} expressions"⟩

/-- The lines that show entries. -/
def shown (log : List Entry) : String :=
  String.join (log.map fun entry => entry.describe ++ "\n")

variable {o : Options} {first second : List String} {path content : String} {bytes : ByteArray}

/-! ## The start of the log -/

theorem level_opening (o : Options) (content : Except SystemError ByteArray) :
    ∀ entry ∈ opening o content, entry.level = .debug := by
  unfold opening
  refine List.forall_mem_cons.2 ⟨rfl, ?_⟩
  split
  · split
    · exact List.forall_mem_singleton.2 rfl
    · exact nofun
  · exact nofun

/-- Entries at the lowest level do not show under a threshold above it. -/
theorem errors_of_hidden {log : List Entry} (hlog : ∀ entry ∈ log, entry.level = .debug)
    {threshold : Level} (h : threshold ≠ .debug) (events : List Event) (failure : Option Failure) :
    Outcome.errors ⟨log.map .log ++ events, failure⟩ threshold =
      Outcome.errors ⟨events, failure⟩ threshold := by
  have hhidden : (log.map Event.log).filterMap (Event.error? threshold) = [] := by
    rw [List.filterMap_map, List.filterMap_eq_nil_iff]
    intro entry hentry
    have hlevel : ¬ threshold.severity ≤ entry.level.severity := by
      rw [hlog entry hentry]
      cases threshold with
      | debug => exact absurd rfl h
      | info | warn | error => decide
    exact if_neg hlevel
  simp only [Outcome.errors, List.filterMap_append, hhidden, List.nil_append]

/-- Under the lowest threshold all entries show. -/
theorem errors_of_shown (log : List Entry) (events : List Event) (failure : Option Failure) :
    Outcome.errors ⟨log.map .log ++ events, failure⟩ .debug =
      shown log ++ Outcome.errors ⟨events, failure⟩ .debug := by
  have hentry (entry : Entry) :
      Event.error? .debug (.log entry) = some (entry.describe ++ "\n") := by
    rw [Event.error?]
    exact if_pos (Nat.zero_le _)
  have hshown : (log.map Event.log).filterMap (Event.error? .debug) =
      log.map fun entry => entry.describe ++ "\n" := by
    rw [List.filterMap_map]
    exact List.filterMap_eq_map_iff_forall_eq_some.2 fun entry _ => hentry entry
  simp only [Outcome.errors, List.filterMap_append, hshown, String.join_append, shown,
    String.append_assoc]

/-! ## Both routes -/

theorem gather_withFile (hwrites : Writes o.comment content second)
    (hholds : Holds path bytes content) :
    gather (o.withFile first path) (.ok bytes) =
      .ok ([readEntry second.length], first ++ second) := by
  have hread : read o.comment path (.ok bytes) = .ok second := by
    rw [read_of_holds hholds, expressions_of_writes hwrites]
  simp only [gather, Options.withFile, hread]
  rfl

/-- A run over a file is one over all texts behind another start of the log. -/
theorem run_withFile (hwrites : Writes o.comment content second)
    (hholds : Holds path bytes content) (ignored : Except SystemError ByteArray) :
    ∃ events failure,
      run (o.withFile first path) (.ok bytes) =
        ⟨(opening (o.withFile first path) (.ok bytes) ++ [readEntry second.length]).map .log ++
          events, failure⟩ ∧
      run (o.withTexts (first ++ second)) ignored =
        ⟨(opening (o.withTexts (first ++ second)) ignored).map .log ++ events, failure⟩ := by
  have hgather : gather (o.withTexts (first ++ second)) ignored = .ok ([], first ++ second) := rfl
  -- from here on a run depends on the texts and on options that both have in common
  have hprepare : prepare (o.withFile first path) (first ++ second) =
      prepare (o.withTexts (first ++ second)) (first ++ second) := rfl
  simp only [run, gather_withFile hwrites hholds, hgather, hprepare, List.append_nil]
  cases prepare (o.withTexts (first ++ second)) (first ++ second) with
  | error cause => exact ⟨[], _, by rw [List.append_nil], by rw [List.append_nil]⟩
  | ok as => exact ⟨_, _, rfl, rfl⟩

/-- Whatever can stand in lines can be passed in a file, after any other texts and with any blanks
and comments around it, and the run writes and ends as if all texts were passed as arguments. Only
at the lowest level its log starts otherwise: with the options it has, with the name of the file if
it is compressed, and with the number of texts in it. -/
theorem run_routes (o : Options) (first : List String)
    (hsecond : ∀ text ∈ second, Writable o.comment text) :
    (∃ content, Writes o.comment content second) ∧
      ∀ content path bytes ignored,
        Writes o.comment content second → Holds path bytes content →
        let filed := run (o.withFile first path) (.ok bytes)
        let given := run (o.withTexts (first ++ second)) ignored
        let filedLog := opening (o.withFile first path) (.ok bytes) ++ [readEntry second.length]
        let givenLog := opening (o.withTexts (first ++ second)) ignored
        filed.output = given.output ∧
          filed.complaints = given.complaints ∧
          filed.exitCode = given.exitCode ∧
          (o.threshold ≠ .debug → filed.errors o.threshold = given.errors o.threshold) ∧
          (∃ common, filed.errors .debug = shown filedLog ++ common ∧
            given.errors .debug = shown givenLog ++ common) ∧
          ∀ entry ∈ filedLog ++ givenLog, entry.level = .debug := by
  refine ⟨exists_writes hsecond, ?_⟩
  intro content path bytes ignored hwrites hholds filed given filedLog givenLog
  obtain ⟨events, failure, hfiled, hgiven⟩ : ∃ events failure,
      filed = ⟨filedLog.map .log ++ events, failure⟩ ∧
        given = ⟨givenLog.map .log ++ events, failure⟩ := run_withFile hwrites hholds ignored
  have hgivenLog : ∀ entry ∈ givenLog, entry.level = .debug := level_opening _ _
  have hfiledLog : ∀ entry ∈ filedLog, entry.level = .debug :=
    List.forall_mem_append.2 ⟨level_opening _ _, List.forall_mem_singleton.2 rfl⟩
  rw [hfiled, hgiven]
  refine ⟨?_, ?_, ?_, ?_, ⟨Outcome.errors ⟨events, failure⟩ .debug, ?_, ?_⟩,
    List.forall_mem_append.2 ⟨hfiledLog, hgivenLog⟩⟩
  · simp only [output_eq, List.filterMap_append, (filterMap_log _).1]
  · simp only [complaints_eq, List.filterMap_append, (filterMap_log _).2]
  · simp only [Outcome.exitCode]
  · intro h
    rw [errors_of_hidden hfiledLog h, errors_of_hidden hgivenLog h]
  · exact errors_of_shown filedLog events failure
  · exact errors_of_shown givenLog events failure

/-- The file starts with a comment, and a blank line parts the two texts, of which the first has
blanks around it and the last is not read. -/
theorem run_routes_decorated :
    let o : Options := { comment := '%', outFormat := some .render }
    let content := "% two\n\t A & B \n\n(A"
    let filed := run (o.withFile ["0"] "texts.txt") (.ok content.toUTF8)
    (∀ text ∈ ["A & B", "(A"], Writable o.comment text) ∧
      Writes o.comment content ["A & B", "(A"] ∧
      Holds "texts.txt" content.toUTF8 content ∧
      filed.output = "0\nA ∧ B\n" ∧
      o.threshold ≠ .debug ∧
      filed.errors o.threshold = "(A: SyntaxError: closing parenthesis not found\n" ++
        "Error: Input(\x221 of 3 expressions failed\x22)\n" := by
  intro o content filed
  let given := run (o.withTexts (["0"] ++ ["A & B", "(A"])) (.ok .empty)
  have hconjunction : Writable o.comment "A & B" := by decide
  have hunclosed : Writable o.comment "(A" := by decide
  have hwritable : ∀ text ∈ ["A & B", "(A"], Writable o.comment text :=
    List.forall_mem_cons.2 ⟨hconjunction, List.forall_mem_singleton.2 hunclosed⟩
  have hspaces : ∀ c ∈ "\t ".toList, Text.isBlank c := List.all_eq_true.1 (by decide)
  have hspace : ∀ c ∈ " ".toList, Text.isBlank c := List.all_eq_true.1 (by decide)
  have hpadded : Text.Padded "A & B".toList "\t A & B ".toList :=
    ⟨_, _, hspaces, hspace, by decide⟩
  have hlines : Lists o.comment ["% two".toList, "\t A & B ".toList, [], "(A".toList]
      ["A & B", "(A"] :=
    .comment (by decide) (by decide) <| .text hconjunction hpadded (by decide) <|
      .blank nofun nofun <| .text hunclosed (.refl _) (by decide) .nil
  have hwrites : Writes o.comment content ["A & B", "(A"] := ⟨_, hlines, by decide⟩
  have hholds : Holds "texts.txt" content.toUTF8 content := by
    rw [Holds, if_neg (by decide +kernel)]
  have hthreshold : o.threshold ≠ .debug := by decide
  have hcomplaint : String.join (given.events.filterMap (Event.error? o.threshold)) =
      "(A: SyntaxError: closing parenthesis not found\n" := by decide +kernel
  have hfailure : given.failure = some (.input (.failures 1 3)) := by decide +kernel
  have hgiven : given.errors o.threshold = "(A: SyntaxError: closing parenthesis not found\n" ++
      "Error: Input(\x221 of 3 expressions failed\x22)\n" := by
    rw [Outcome.errors, hcomplaint, hfailure]
    exact congrArg (_ ++ ·) (message_failures 1 3)
  obtain ⟨houtput, -, -, herrors, -⟩ :=
    (run_routes o ["0"] hwritable).2 content _ _ (.ok .empty) hwrites hholds
  exact ⟨hwritable, hwrites, hholds, houtput.trans (by decide +kernel), hthreshold,
    (herrors hthreshold).trans hgiven⟩

/-- At the lowest level the error stream tells the routes apart, and not only by the options that it
shows first. -/
theorem errors_ne_of_debug :
    let o : Options := { logLevel := some .debug, outFormat := some .render }
    let filed := run (o.withFile [] "x.txt") (.ok "A\n".toUTF8)
    let given := run (o.withTexts ["A"]) (.ok .empty)
    Writable o.comment "A" ∧ Writes o.comment "A\n" ["A"] ∧ Holds "x.txt" "A\n".toUTF8 "A\n" ∧
      filed.log o.threshold = [⟨.debug, (o.withFile [] "x.txt").describe⟩,
        ⟨.debug, "read 1 expressions"⟩, ⟨.debug, "symbols: [VAR(A)]"⟩, ⟨.debug, "parsed: A"⟩] ∧
      given.log o.threshold = [⟨.debug, (o.withTexts ["A"]).describe⟩,
        ⟨.debug, "symbols: [VAR(A)]"⟩, ⟨.debug, "parsed: A"⟩] ∧
      filed.errors o.threshold ≠ given.errors o.threshold := by
  intro o filed given
  have hwritable : Writable o.comment "A" := by decide
  have hlines : Lists o.comment ["A".toList, []] ["A"] :=
    .text hwritable (.refl _) (by decide) (.blank nofun nofun .nil)
  have hholds : Holds "x.txt" "A\n".toUTF8 "A\n" := by
    rw [Holds, if_neg (by decide +kernel)]
  refine ⟨hwritable, ⟨_, hlines, by decide⟩, hholds, ?_, ?_, ?_⟩
  · decide +kernel
  · decide +kernel
  · decide +kernel

end Propositional.CommandLine
