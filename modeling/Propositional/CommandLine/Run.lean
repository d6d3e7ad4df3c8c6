import Propositional.Assignment
import Propositional.CommandLine.Options
import Propositional.Source
import Propositional.Tabulation

/-!
# Runs

What a run writes and how it ends. Everything that can stop a run is settled before the
first expression is looked at: the input, then whether there is any expression, then
the assignments. After that every expression is processed, whatever became of the
others, and the run fails if one of them did.
-/

namespace Propositional.CommandLine

-- ---------------------------------------------------------------------------
-- One expression
-- ---------------------------------------------------------------------------

/-- What came of an expression, and what was logged on the way. -/
structure Report where
  log : List Entry
  result : Except Error String

/-- The expression that a text stands for. -/
def readExpression (text : String) : List Entry × Except Error Expression :=
  match lex text with
  | .error e => ([], .error (.lex e))
  | .ok symbols =>
    let seen : Entry :=
      ⟨.debug, "symbols: [" ++ ", ".intercalate (symbols.map Symbol.describe) ++ "]"⟩
    match Expression.ofSymbols symbols with
    | .error e => ([seen], .error e)
    | .ok e => ([seen, ⟨.debug, s!"parsed: {e.text}"⟩], .ok e)

/-- Assigns in order, with a warning for each label that does not occur. -/
def assignAll (e : Expression) : List Assignment → List Entry × Expression
  | [] => ([], e)
  | a :: assignments =>
    match e.assign? a.label a.value with
    | some e => assignAll e assignments
    | none =>
      let (log, e') := assignAll e assignments
      (⟨.warn, s!"{a.label} does not occur in {e.text}"⟩ :: log, e')

/-- The value of an expression under assignments. -/
def evaluate (assignments : List Assignment) (e : Expression) : Report :=
  let (log, e) := assignAll e assignments
  { log, result := (e.value.map fun b => (Table.digit b).toString).mapError .evaluation }

/-- The table that the options ask for. -/
def Options.tabulation (o : Options) (e : Expression) : Tabulation :=
  let t := { e.tabulation with maxVars := o.maxVars }
  if o.rootOnly then t.rootOnly e else t

/-- What is logged about a request for a table. -/
def tabulationLog (t : Tabulation) (e : Expression) : List Entry :=
  match t.rows e with
  | .ok rows =>
    let columns := t.vars.length + t.nodes.length
    [⟨.debug, s!"tabulating {rows.total.toNat} rows over {columns} columns"⟩]
  | .error (.tooManyVariables count _) => [⟨.warn, s!"refusing to tabulate {count} variables"⟩]
  | .error _ => []

/-- The table of an expression, written by `write`. -/
def tabulate (o : Options) (write : Table → String) (e : Expression) : Report :=
  let t := o.tabulation e
  { log := tabulationLog t e, result := (t.finish e).1.map write }

def process (o : Options) (assignments : List Assignment) (e : Expression) : Report :=
  match o.format with
  | .render => { log := [], result := .ok e.text }
  | .vars => { log := [], result := .ok (" ".intercalate e.labels) }
  | .eval => evaluate assignments e
  | .tsv => tabulate o Table.tsv e
  | .table => tabulate o (fun table => e.text ++ "\n\n" ++ table.text) e

def report (o : Options) (assignments : List Assignment) (text : String) : Report :=
  match readExpression text with
  | (log, .error e) => { log, result := .error e }
  | (log, .ok e) =>
    let r := process o assignments e
    { r with log := log ++ r.log }

-- ---------------------------------------------------------------------------
-- All expressions
-- ---------------------------------------------------------------------------

/-- What a run writes, piece by piece. -/
inductive Event where
  | output (text : String)
  | complaint (text : String)
  | log (entry : Entry)
deriving DecidableEq

/-- What an event adds to the error stream under a threshold. -/
def Event.error? (threshold : Level) : Event → Option String
  | .output _ => none
  | .complaint text => some text
  | .log entry =>
    if threshold.severity ≤ entry.level.severity then some (entry.describe ++ "\n") else none

/-- What is written about one expression. -/
def Report.events (r : Report) (text : String) : List Event :=
  r.log.map .log ++
    match r.result with
    | .ok output => [.output (output ++ "\n")]
    | .error e =>
      [.log ⟨.info, s!"failed on {Text.quote text}"⟩, .complaint s!"{text}: {e.message}\n"]

def Report.failed (r : Report) : Bool :=
  match r.result with
  | .ok _ => false
  | .error _ => true

/-- What is written between two expressions. -/
def separator : Format → List Event
  | .table => [.output "\n"]
  | _ => []

/-- The reports on all expressions, each with its text. -/
def reportAll (o : Options) (assignments : List Assignment) (texts : List String) :
    List (String × Report) :=
  texts.map fun text => (text, report o assignments text)

/-- What is written about all expressions, in order. -/
def eventsOf (format : Format) (reports : List (String × Report)) : List Event :=
  (separator format).intercalate (reports.map fun (text, r) => r.events text)

-- ---------------------------------------------------------------------------
-- The run
-- ---------------------------------------------------------------------------

/-- What ends a run before or after its work. -/
inductive Failure where
  | source (cause : SourceError)
  | input (cause : InputError)
deriving DecidableEq

def Failure.message : Failure → String
  | source cause => s!"Error: {cause.report}\n"
  | input cause => s!"Error: Input({Text.quote cause.detail})\n"

/-- What a run wrote, and the failure that it ended with. -/
structure Outcome where
  events : List Event
  failure : Option Failure

/-- What is logged before the texts are read: the options, and which compressed file is opened. -/
def opening (o : Options) (content : Except SystemError ByteArray) : List Entry :=
  ⟨.debug, o.describe⟩ ::
    match o.input, content with
    | some path, .ok _ =>
      if Source.isCompressed path then [⟨.debug, s!"reading gzip input {path}"⟩] else []
    | _, _ => []

/-- The texts to process: those among the options, then those of the input file, whose
content is given. -/
def gather (o : Options) (content : Except SystemError ByteArray) :
    Except SourceError (List Entry × List String) :=
  match o.input with
  | none => .ok ([], o.expressions)
  | some path => do
    let lines ← Source.read o.comment path content
    return ([⟨.debug, s!"read {lines.length} expressions"⟩], o.expressions ++ lines)

/-- The assignments among the options, if there is anything to process. -/
def prepare (o : Options) (texts : List String) : Except InputError (List Assignment) :=
  if texts.isEmpty then .error .noExpression
  else Assignment.ofText (o.assignments.getD "")

def run (o : Options) (content : Except SystemError ByteArray) : Outcome :=
  let begun := opening o content
  match gather o content with
  | .error cause => { events := begun.map .log, failure := some (.source cause) }
  | .ok (log, texts) =>
    match prepare o texts with
    | .error cause => { events := (begun ++ log).map .log, failure := some (.input cause) }
    | .ok assignments =>
      let reports := reportAll o assignments texts
      let failed := reports.countP (·.2.failed)
      { events := (begun ++ log).map .log ++ eventsOf o.format reports
        failure := if failed = 0 then none else some (.input (.failures failed texts.length)) }

namespace Outcome

def exitCode (r : Outcome) : Nat :=
  if r.failure.isNone then 0 else 1

def output (r : Outcome) : String :=
  String.join (r.events.filterMap fun
    | .output text => some text
    | _ => none)

/-- Complaints about expressions, then the failure of the run. -/
def complaints (r : Outcome) : String :=
  String.join (r.events.filterMap fun
    | .complaint text => some text
    | _ => none) ++ (r.failure.map Failure.message).getD ""

/-- All of the error stream under a threshold: the log between the complaints, then the failure of
the run. -/
def errors (r : Outcome) (threshold : Level) : String :=
  String.join (r.events.filterMap (Event.error? threshold)) ++
    (r.failure.map Failure.message).getD ""

/-- The entries that a threshold lets through. -/
def log (r : Outcome) (threshold : Level) : List Entry :=
  (r.events.filterMap fun
    | .log entry => some entry
    | _ => none).filter fun entry => threshold.severity ≤ entry.level.severity

end Outcome

end Propositional.CommandLine
