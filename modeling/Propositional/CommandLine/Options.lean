import Propositional.CommandLine.Log
import Propositional.Text.Quoted

/-!
# Options

What a run is asked to do, and how arguments say it. Every flag but `--root-only` takes
a value, after an equals sign or as the next argument; only `--expr` may be repeated.
Arguments that follow no rule are refused without a reason.
-/

namespace Propositional.CommandLine

/-- What is printed for an expression. -/
inductive Format where
  | table
  | tsv
  | render
  | vars
  | eval
deriving DecidableEq

def Format.name : Format → String
  | table => "TABLE"
  | tsv => "TSV"
  | render => "RENDER"
  | vars => "VARS"
  | eval => "EVAL"

structure Options where
  logLevel : Option Level := none
  expressions : List String := []
  input : Option String := none
  comment : Char := '#'
  outFormat : Option Format := none
  assignments : Option String := none
  rootOnly : Bool := false
  maxVars : Nat := 16
deriving DecidableEq

namespace Options

def format (o : Options) : Format :=
  o.outFormat.getD .table

def threshold (o : Options) : Level :=
  o.logLevel.getD .warn

/-- The options as the log shows them. -/
def describe (o : Options) : String :=
  let optional (shown : Option String) := (shown.map ("Some(" ++ · ++ ")")).getD "None"
  "Opt \x7b log_level: " ++ optional (o.logLevel.map Level.name) ++
    ", exprs: [" ++ ", ".intercalate (o.expressions.map Text.quote) ++ "]" ++
    ", input: " ++ optional (o.input.map Text.quotePath) ++
    ", comment: " ++ Text.quoteChar o.comment ++
    ", out_format: " ++ optional (o.outFormat.map Format.name) ++
    ", assign: " ++ optional (o.assignments.map Text.quote) ++
    ", root_only: " ++ toString o.rootOnly ++
    ", max_vars: " ++ toString o.maxVars ++ " \x7d"

end Options

-- ---------------------------------------------------------------------------
-- Values
-- ---------------------------------------------------------------------------

/-- The value with a name, which is given in small letters and matched in any case. -/
def named? (choices : List (String × α)) (text : String) : Option α :=
  choices.lookup (String.ofList (text.toList.map Char.toLower))

def Format.ofText? : String → Option Format :=
  named? [("table", .table), ("tsv", .tsv), ("render", .render), ("vars", .vars), ("eval", .eval)]

def Level.ofText? : String → Option Level :=
  named? [("debug", .debug), ("info", .info), ("warn", .warn), ("error", .error)]

/-- The character that is the whole text. -/
def onlyChar? (text : String) : Option Char :=
  match text.toList with
  | [c] => some c
  | _ => none

/-- The number that decimal digits write. -/
def decimal (digits : List Char) : Nat :=
  digits.foldl (fun n d => 10 * n + (d.toNat - '0'.toNat)) 0

/-- The 64-bit number that a text writes in decimal digits, perhaps after a plus sign. -/
def word? (text : String) : Option Nat :=
  let digits := match text.toList with
    | '+' :: digits => digits
    | digits => digits
  if digits ≠ [] ∧ digits.all Char.isDigit ∧ decimal digits < UInt64.size then some (decimal digits)
  else none

-- ---------------------------------------------------------------------------
-- Arguments
-- ---------------------------------------------------------------------------

inductive Flag where
  | expr
  | input
  | comment
  | format
  | assign
  | rootOnly
  | maxVars
  | logLevel
deriving DecidableEq

namespace Flag

def ofName? (name : String) : Option Flag :=
  [("expr", expr), ("input", input), ("comment", comment), ("format", format),
    ("assign", assign), ("root-only", rootOnly), ("max-vars", maxVars),
    ("log-level", logLevel)].lookup name

def ofLetter? (letter : Char) : Option Flag :=
  [('e', expr), ('i', input), ('f', format), ('a', assign)].lookup letter

end Flag

/-- A flag in front of the arguments, with the value written in the same argument. -/
def flag? (argument : String) : Option (Flag × Option String) :=
  match argument.toList with
  | '-' :: '-' :: rest =>
    let name := rest.takeWhile (· != '=')
    (Flag.ofName? (String.ofList name)).map fun flag =>
      (flag, ((rest.drop name.length).tail?).map String.ofList)
  | '-' :: letter :: rest =>
    (Flag.ofLetter? letter).map fun flag =>
      (flag,
        match rest with
        | [] => none
        | '=' :: value => some (String.ofList value)
        | value => some (String.ofList value))
  | _ => none

/-- Whether an argument can be the value of the flag before it. -/
def isValue (argument : String) : Bool :=
  argument == "-" || argument.toList.head? != some '-'

/-- The flags of a list of arguments, each with its value. -/
def settings? : List String → Option (List (Flag × String))
  | [] => some []
  | argument :: arguments =>
    match flag? argument with
    | none => none
    | some (.rootOnly, some _) => none
    | some (.rootOnly, none) => (settings? arguments).map ((.rootOnly, "") :: ·)
    | some (flag, some value) => (settings? arguments).map ((flag, value) :: ·)
    | some (flag, none) =>
      match arguments with
      | value :: arguments =>
        if isValue value then (settings? arguments).map ((flag, value) :: ·) else none
      | [] => none

namespace Options

/-- The options with one more flag. -/
def set? (o : Options) : Flag × String → Option Options
  | (.expr, value) => some { o with expressions := o.expressions ++ [value] }
  | (.input, value) => some { o with input := some value }
  | (.comment, value) => (onlyChar? value).map fun c => { o with comment := c }
  | (.format, value) => (Format.ofText? value).map fun format => { o with outFormat := some format }
  | (.assign, value) => some { o with assignments := some value }
  | (.rootOnly, _) => some { o with rootOnly := true }
  | (.maxVars, value) => (word? value).map fun n => { o with maxVars := n }
  | (.logLevel, value) => (Level.ofText? value).map fun level => { o with logLevel := some level }

/-- The options that arguments ask for. -/
def ofArguments? (arguments : List String) : Option Options := do
  let settings ← settings? arguments
  let single := (settings.map Prod.fst).filter (· != .expr)
  if single.Nodup then settings.foldlM set? {} else none

end Options

end Propositional.CommandLine
