import Propositional.Gzip
import Propositional.Text.Blank
import Propositional.Text.Quoted

/-!
# Sources

Where expressions come from: files of UTF-8 text with one expression a line. Blank lines
and comment lines are skipped. A file whose name has the extension `gz` holds a gzip
stream of such a text.
-/

namespace Propositional

/-- What the system says of a file that it does not give: the number of the error and its text. -/
structure SystemError where
  code : Nat
  text : String
deriving DecidableEq

namespace SystemError

/-- The kinds of the errors that opening or reading a file can meet, by number. -/
def kinds : List (Nat × String) :=
  [(1, "PermissionDenied"), (2, "NotFound"), (11, "WouldBlock"), (12, "OutOfMemory"),
    (13, "PermissionDenied"), (16, "ResourceBusy"), (20, "NotADirectory"), (21, "IsADirectory"),
    (22, "InvalidInput"), (26, "ExecutableFileBusy"), (27, "FileTooLarge"),
    (36, "InvalidFilename"), (40, "FilesystemLoop"), (110, "TimedOut"),
    (116, "StaleNetworkFileHandle")]

def kind (e : SystemError) : String :=
  (kinds.lookup e.code).getD "Uncategorized"

end SystemError

inductive SourceError where
  | system (cause : SystemError)
  | stream (fault : Gzip.Fault)
  | notText
deriving DecidableEq

namespace SourceError

def message : SourceError → String
  | system cause => s!"{cause.text} (os error {cause.code})"
  | stream fault => fault.message
  | notText => "stream did not contain valid UTF-8"

/-- The report of an error of some kind that says more. -/
def custom (kind detail : String) : String :=
  s!"Custom \x7b kind: {kind}, error: {Text.quote detail} \x7d"

/-- The form in which a run reports the error that ends it. -/
def report : SourceError → String
  | system cause =>
    s!"Os \x7b code: {cause.code}, kind: {cause.kind}, message: {Text.quote cause.text} \x7d"
  | stream .truncated => "Kind(UnexpectedEof)"
  | stream .incompleteData => custom "UnexpectedEof" Gzip.Fault.incompleteData.message
  | stream fault => custom "InvalidInput" fault.message
  | notText => s!"Error \x7b kind: InvalidData, message: {Text.quote notText.message} \x7d"

end SourceError

namespace Source

-- ---------------------------------------------------------------------------
-- Names
-- ---------------------------------------------------------------------------

/-- The last component of a path, unless it leads to a parent directory. Slashes at the
end and components that stay in place do not count. -/
def fileName? (path : String) : Option (List Char) :=
  let components := (path.toList.splitOn '/').filter fun c => c != [] && c != ['.']
  components.getLast?.filter (· != ['.', '.'])

/-- Whether a path names a compressed file. A name is more than its extension. -/
def isCompressed (path : String) : Bool :=
  (fileName? path).any fun name => ['.', 'g', 'z'].isSuffixOf name && 3 < name.length

-- ---------------------------------------------------------------------------
-- Lines
-- ---------------------------------------------------------------------------

/-- The pieces between newlines as lines, with the newlines behind them. Behind the last newline
there is a line only if something stands there. -/
def endLines {α : Type} (newline : α) : (pieces : List (List α)) → List (List α)
  | [] => []
  | [last] => if last.isEmpty then [] else [last]
  | piece :: pieces => (piece ++ [newline]) :: endLines newline pieces

/-- The lines of some bytes. -/
def rawLines (bytes : ByteArray) : List (List UInt8) :=
  endLines 10 (bytes.data.toList.splitOn 10)

/-- A line without the newline at its end and a carriage return before it. -/
def stripEnd (line : List Char) : List Char :=
  match line.reverse with
  | '\n' :: '\r' :: rest | '\n' :: rest => rest.reverse
  | _ => line

/-- The text of a line. -/
def decodeLine (line : List UInt8) : Except SourceError (List Char) :=
  match String.fromUTF8? line.toByteArray with
  | some text => .ok (stripEnd text.toList)
  | none => .error .notText

/-- The expressions of lines, without blanks around them. -/
def expressionsOf (comment : Char) (lines : List (List Char)) : List String :=
  ((lines.map Text.trim).filter fun line =>
    !line.isEmpty && line.head? != some comment).map String.ofList

/-- The expressions that bytes hold. Each line has to be text, also one that holds none. -/
def lines (comment : Char) (bytes : ByteArray) : Except SourceError (List String) := do
  let texts ← (rawLines bytes).mapM decodeLine
  return expressionsOf comment texts

/-- The bytes of the lines that come to an end. -/
def completeLines (bytes : ByteArray) : ByteArray :=
  (bytes.toList.reverse.dropWhile (· ≠ 10)).reverse.toByteArray

/-- The expressions that a stream holds. A fault shows when the lines before it have been
read. -/
def linesOfStream (comment : Char) (content : Gzip.Content) :
    Except SourceError (List String) :=
  match content.fault with
  | none => lines comment content.bytes
  | some fault => do
    discard (lines comment (completeLines content.bytes))
    throw (.stream fault)

/-- The expressions of a file of given name and content. One that cannot be read to its end counts
as one that cannot be opened, whatever could be had of it. -/
def read (comment : Char) (path : String) :
    (content : Except SystemError ByteArray) → Except SourceError (List String)
  | .error cause => throw (.system cause)
  | .ok bytes =>
    if isCompressed path then linesOfStream comment (Gzip.decode bytes) else lines comment bytes

end Source

end Propositional
