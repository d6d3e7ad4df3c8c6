/-!
# Tables

A table of single characters under a header, and its two texts: lines of cells
separated by tabs, and columns aligned under their headers.
-/

namespace Propositional

structure Table where
  header : List String
  rows : List (List Char)
deriving DecidableEq

namespace Table

/-- The cell that shows a truth value. -/
def digit (b : Bool) : Char :=
  if b then '1' else '0'

/-- Header and rows as lines of cells separated by tabs. -/
def tsv (t : Table) : String :=
  "\n".intercalate
    ("\t".intercalate t.header ::
      t.rows.map fun row => "\t".intercalate (row.map Char.toString))

/-- A character in the middle of `width` places, a place more on the right if they are not
even. -/
def centre (width : Nat) (c : Char) : String :=
  let blanks := width - 1
  String.ofList
    (List.replicate (blanks / 2) ' ' ++ c :: List.replicate (blanks - blanks / 2) ' ')

/-- Header, rule and rows with columns as wide as their headers. Cells without a header are
left out. -/
def text (t : Table) : String :=
  let widths := t.header.map String.length
  "\n".intercalate
    (" | ".intercalate t.header ::
      "-+-".intercalate (widths.map fun w => String.ofList (List.replicate w '-')) ::
      t.rows.map fun row => " | ".intercalate (List.zipWith centre widths row))

end Table

end Propositional
