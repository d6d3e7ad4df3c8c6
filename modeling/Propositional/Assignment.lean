import Propositional.Error
import Propositional.Text.Blank

/-!
# Assignments

Texts such as `A=1, b = false`: items between commas, blank items skipped, each a
label, an equals sign and a truth value. Blanks around labels and values do not count,
nor does the case of a value.
-/

namespace Propositional

structure Assignment where
  label : String
  value : Bool
deriving DecidableEq

namespace Assignment

/-- The spellings of a truth value, in small letters. -/
def spellings : Bool → List String
  | true => ["1", "t", "true"]
  | false => ["0", "f", "false"]

/-- The truth value that a text spells. Only the case of ASCII letters is disregarded. -/
def truthValue? (text : List Char) : Option Bool :=
  let word := String.ofList (text.map Char.toLower)
  if word ∈ spellings true then some true
  else if word ∈ spellings false then some false
  else none

/-- The assignment that an item without blanks around it stands for. -/
def ofItem (item : List Char) : Except InputError Assignment :=
  match item.splitOn '=' with
  | [label, text] =>
    let label := String.ofList (Text.trim label)
    match truthValue? (Text.trim text) with
    | some value => .ok { label, value }
    | none => .error (.unknownValue label (String.ofList text))
  | _ => .error (.malformedAssignment (String.ofList item))

/-- The items of a text that are not blank. -/
def items (text : String) : List (List Char) :=
  ((text.toList.splitOn ',').map Text.trim).filter (!·.isEmpty)

/-- The assignments of a text, in order. -/
def ofText (text : String) : Except InputError (List Assignment) :=
  (items text).mapM ofItem

end Assignment

end Propositional
