import Propositional.Error
import Propositional.Graph

/-!
# Networks

A graph together with the values that its variables hold. A variable may hold none;
a node that needs its value cannot be evaluated then. Both operands of a connective
are always evaluated, `lhs` first, so the variable reported is the first one without
a value in this order, whatever the connective.
-/

namespace Propositional

-- ---------------------------------------------------------------------------
-- Values
-- ---------------------------------------------------------------------------

/-- A value or none for each node; only variables are ever given one. -/
structure Valuation (g : Graph) where
  cells : Vector (Option Bool) g.size
deriving DecidableEq

namespace Valuation

variable {g : Graph}

def unset (g : Graph) : Valuation g where
  cells := Vector.replicate g.size none

def get (v : Valuation g) (i : g.Id) : Option Bool :=
  v.cells[i.val]

def set (v : Valuation g) (x : g.Variable) (value : Option Bool) : Valuation g where
  cells := v.cells.set x.id value

@[ext] theorem ext {v w : Valuation g} (h : ∀ i, v.get i = w.get i) : v = w := by
  cases v
  cases w
  congr
  exact Vector.ext fun i hi => h ⟨i, hi⟩

@[simp] theorem get_unset (i : g.Id) : (unset g).get i = none := by
  simp [get, unset]

theorem get_set (v : Valuation g) (x : g.Variable) (value : Option Bool) (i : g.Id) :
    (v.set x value).get i = if i = x.id then value else v.get i := by
  simp [get, set, Vector.getElem_set, Fin.ext_iff, eq_comm]

end Valuation

-- ---------------------------------------------------------------------------
-- Evaluation
-- ---------------------------------------------------------------------------

/-- The value of a node, given what it holds and what its children come to. -/
def Node.evaluate (held : Option Bool) :
    Node (Except Unassigned Bool) → Except Unassigned Bool
  | constant b => .ok b
  | var label =>
    match held with
    | some b => .ok b
    | none => .error ⟨label⟩
  | negation c => do
    let b ← c
    return !b
  | binary op lhs rhs => do
    let l ← lhs
    let r ← rhs
    return op.apply l r

/-- The value of a node under a valuation. -/
def Graph.evaluate (g : Graph) (v : Valuation g) : g.Id → Except Unassigned Bool :=
  g.fold fun i n => n.evaluate (v.get i)

-- ---------------------------------------------------------------------------
-- Networks
-- ---------------------------------------------------------------------------

structure Network where
  graph : Graph
  values : Valuation graph
deriving DecidableEq

namespace Network

def empty : Network where
  graph := .empty
  values := .unset _

/-- The network with one more node that holds `value`. -/
def push (n : Network) (node : Node Nat) (value : Option Bool)
    (h : ∀ c ∈ node.children, c < n.graph.size) : Network where
  graph := n.graph.push node h
  values := ⟨(n.values.cells.push value).cast (by simp [Graph.push, Graph.size])⟩

/-- The network with one more node, if it has the node's children. -/
def push? (n : Network) (node : Node Nat) (value : Option Bool) :
    Except Graph.Fault Network := do
  match h : node.children.find? (n.graph.size ≤ ·) with
  | some c => throw (.outOfBounds n.graph.size c)
  | none => return n.push node value (by simpa using h)

def set (n : Network) (x : n.graph.Variable) (value : Option Bool) : Network :=
  { n with values := n.values.set x value }

def evaluate (n : Network) (i : n.graph.Id) : Except Unassigned Bool :=
  n.graph.evaluate n.values i

def render (n : Network) (i : n.graph.Id) : String :=
  (n.graph.formula i).render

end Network

end Propositional
