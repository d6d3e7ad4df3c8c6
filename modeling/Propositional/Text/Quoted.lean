import Propositional.Text.Printable

/-!
# Quoted text

Messages show characters and lexemes between quote marks. What cannot be seen is
written by its code point, so two different texts never look alike.
-/

namespace Propositional.Text

def hexadecimal (n : Nat) : String :=
  String.ofList (Nat.toDigits 16 n)

/-- A character as it is written between two marks `mark`. -/
def escape (mark c : Char) : String :=
  if c = '\x00' then "\\0"
  else if c = '\t' then "\\t"
  else if c = '\r' then "\\r"
  else if c = '\n' then "\\n"
  else if c = mark ∨ c = '\x5c' then "\\" ++ c.toString
  else if isPrintable c then c.toString
  else "\\u\x7b" ++ hexadecimal c.toNat ++ "\x7d"

/-- A character between single quote marks. -/
def quoteChar (c : Char) : String :=
  "\x27" ++ escape '\x27' c ++ "\x27"

/-- A text between double quote marks. -/
def quote (s : String) : String :=
  "\x22" ++ String.join (s.toList.map (escape '\x22')) ++ "\x22"

/-- A path between double quote marks. Marks of both kinds are escaped in it. -/
def quotePath (path : String) : String :=
  let piece (c : Char) := if c = '\x27' then escape '\x27' c else escape '\x22' c
  "\x22" ++ String.join (path.toList.map piece) ++ "\x22"

end Propositional.Text
