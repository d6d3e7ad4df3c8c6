/-!
# Log

What a run tells about its progress, by level. A threshold hides the levels below it. An entry
is shown without the time and the module that its line begins with.
-/

namespace Propositional.CommandLine

inductive Level where
  | debug
  | info
  | warn
  | error
deriving DecidableEq

namespace Level

def name : Level → String
  | debug => "DEBUG"
  | info => "INFO"
  | warn => "WARN"
  | error => "ERROR"

def severity : Level → Nat
  | debug => 0
  | info => 1
  | warn => 2
  | error => 3

end Level

structure Entry where
  level : Level
  message : String
deriving DecidableEq

def Entry.describe (e : Entry) : String :=
  e.level.name ++ " " ++ e.message

end Propositional.CommandLine
