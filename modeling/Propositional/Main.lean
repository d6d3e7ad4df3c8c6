import Propositional.CommandLine.Run

/-!
# Program

Reads the arguments and the input file, and writes what the run says. `-` names the
standard input.
-/

open Propositional CommandLine

namespace Propositional.CommandLine

partial def readToEnd (input : IO.FS.Stream) (done : ByteArray) : IO ByteArray := do
  let more ← input.read 65536
  if more.isEmpty then return done else readToEnd input (done ++ more)

/-- What the system says of a file. An error that it does not number has the number zero. -/
def reason : IO.Error → SystemError
  | .noFileOrDirectory _ code text | .permissionDenied _ code text | .inappropriateType _ code text
  | .invalidArgument _ code text | .resourceExhausted _ code text | .noSuchThing _ code text
  | .interrupted _ code text | .resourceBusy code text | .timeExpired code text
  | .hardwareFault code text | .illegalOperation code text | .unsupportedOperation code text
  | .unsatisfiedConstraints code text | .resourceVanished code text | .protocolError code text
  | .alreadyExists _ code text | .otherError code text => ⟨code.toNat, text⟩
  | .unexpectedEof => ⟨0, "end of file"⟩
  | .userError text => ⟨0, text⟩

/-- The content of a file. -/
def fetch (path : String) : IO (Except SystemError ByteArray) := do
  try
    if path == "-" then return .ok (← readToEnd (← IO.getStdin) .empty)
    return .ok (← IO.FS.readBinFile path)
  catch cause => return .error (reason cause)

def write (threshold : Level) : Event → IO Unit
  | .output text => IO.print text
  | event => IO.eprint ((event.error? threshold).getD "")

end Propositional.CommandLine

def main (arguments : List String) : IO UInt32 := do
  let some options := Options.ofArguments? arguments
    | IO.eprintln "error: invalid arguments"
      return 1
  let content ← match options.input with
    | some path => fetch path
    | none => pure (.ok .empty)
  let outcome := run options content
  outcome.events.forM (write options.threshold)
  match outcome.failure with
  | some failure => IO.eprint failure.message
  | none => pure ()
  return outcome.exitCode.toUInt32
