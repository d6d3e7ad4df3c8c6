import Propositional.Formula.Grammar
import Propositional.Graph.Layout
import Propositional.Network

/-!
# Expressions

A formula that was read, laid out as a network with the node of the whole formula
marked. Its variables are numbered by first occurrence and hold no values at first.
-/

namespace Propositional

structure Expression extends Network where
  root : graph.Id
deriving DecidableEq

namespace Expression

/-- The layout of a formula, no variable holding a value. -/
def ofFormula (f : Formula) : Expression :=
  let l := Graph.empty.add f
  { graph := l.graph, values := .unset l.graph, root := l.root }

/-- The expression that a list of symbols stands for. -/
def ofSymbols (symbols : List Symbol) : Except Error Expression :=
  (Formula.ofSymbols symbols).map ofFormula

/-- The expression that a text stands for. -/
def ofText (text : String) : Except Error Expression :=
  (Formula.ofText text).map ofFormula

/-- The expression with other values. -/
def withValues (e : Expression) (values : Valuation e.graph) : Expression :=
  { e with values }

def vars (e : Expression) : List e.graph.Variable :=
  e.graph.vars

/-- The labels of the variables in the order of first occurrence. -/
def labels (e : Expression) : List String :=
  e.vars.map (·.label)

/-- The values that the variables hold, in the order of first occurrence. -/
def held (e : Expression) : List (Option Bool) :=
  e.vars.map fun x => e.values.get x.id

def set (e : Expression) (x : e.graph.Variable) (value : Bool) : Expression :=
  e.withValues (e.values.set x (some value))

/-- Sets the variable with a label, if the label occurs. -/
def assign? (e : Expression) (label : String) (value : Bool) : Option Expression :=
  (e.graph.find? label).map fun x => e.set x value

def clear (e : Expression) : Expression :=
  e.withValues (.unset e.graph)

/-- Every negation and connective of the formula, the whole formula last. -/
def subexpressions (e : Expression) : List e.graph.Id :=
  e.graph.compounds

/-- The value of the whole formula. -/
def value (e : Expression) : Except Unassigned Bool :=
  e.evaluate e.root

/-- The written form of the whole formula. -/
def text (e : Expression) : String :=
  e.render e.root

end Expression

end Propositional
