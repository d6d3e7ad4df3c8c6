import Propositional.Formula

/-!
# Graphs

Formulas with shared parts, as nodes numbered in the order of their creation. A node
refers only to nodes created before it, so every node stands for a formula, and
whatever is computed at a node can be computed from its children upward (`fold`).

A node keeps the operand written after a connective as `lhs` and the one written
before it as `rhs`.
-/

namespace Propositional

/-- A node whose children are given by values of `ι`. -/
inductive Node (ι : Type) where
  | constant (value : Bool)
  | var (label : String)
  | negation (child : ι)
  | binary (op : Connective) (lhs rhs : ι)
deriving DecidableEq

namespace Node

def children : Node ι → List ι
  | constant _ | var _ => []
  | negation c => [c]
  | binary _ lhs rhs => [lhs, rhs]

def map (f : ι → κ) : Node ι → Node κ
  | constant b => constant b
  | var label => var label
  | negation c => negation (f c)
  | binary op lhs rhs => binary op (f lhs) (f rhs)

theorem children_map (f : ι → κ) (n : Node ι) : (n.map f).children = n.children.map f := by
  cases n <;> rfl

def isLeaf : Node ι → Bool
  | constant _ | var _ => true
  | negation _ | binary _ _ _ => false

def isBinary : Node ι → Bool
  | binary _ _ _ => true
  | _ => false

/-- The form in messages of a node that is no variable. -/
def describe : (node : Node Nat) → (∀ label, node ≠ var label) → String
  | constant b, _ => s!"Value({b})"
  | var label, h => absurd rfl (h label)
  | negation c, _ => s!"Not(NodeId({c}))"
  | binary op lhs rhs, _ =>
    s!"Binary \x7b op: {op.name}, lhs: NodeId({lhs}), rhs: NodeId({rhs}) \x7d"

end Node

structure Graph where
  nodes : Array (Node Nat)
  children_lt : ∀ i (h : i < nodes.size), ∀ c ∈ nodes[i].children, c < i
deriving DecidableEq

namespace Graph

abbrev size (g : Graph) : Nat := g.nodes.size

/-- The number of a node of the graph. -/
abbrev Id (g : Graph) : Type := Fin g.size

def empty : Graph where
  nodes := #[]
  children_lt := by simp

/-- The graph with one more node, over children that it has. -/
def push (g : Graph) (node : Node Nat) (h : ∀ c ∈ node.children, c < g.size) : Graph where
  nodes := g.nodes.push node
  children_lt i hi c hc := by
    rw [Array.getElem_push] at hc
    split at hc
    next h' => exact g.children_lt i h' c hc
    next h' =>
      have := h c hc
      simp only [Array.size_push] at hi
      simp only [size] at this
      omega

def ids (g : Graph) : List g.Id :=
  List.finRange g.size

/-- A node as it is kept, its children given by their numbers. -/
def entry (g : Graph) (i : g.Id) : Node Nat :=
  g.nodes[i.val]

theorem lt_of_mem_entry {g : Graph} {i : g.Id} {c : Nat} (h : c ∈ (g.entry i).children) : c < i :=
  g.children_lt i i.isLt c h

/-- A node with its children as nodes of the graph. -/
def node (g : Graph) (i : g.Id) : Node g.Id :=
  match h : g.entry i with
  | .constant b => .constant b
  | .var label => .var label
  | .negation c =>
    have : c < i := lt_of_mem_entry (by simp [h, Node.children])
    .negation ⟨c, by omega⟩
  | .binary op lhs rhs =>
    have : lhs < i := lt_of_mem_entry (by simp [h, Node.children])
    have : rhs < i := lt_of_mem_entry (by simp [h, Node.children])
    .binary op ⟨lhs, by omega⟩ ⟨rhs, by omega⟩

theorem map_val_node (g : Graph) (i : g.Id) : (g.node i).map Fin.val = g.entry i := by
  rw [node]
  split <;> simp_all [Node.map]

theorem lt_of_mem_children {g : Graph} {i c : g.Id} (h : c ∈ (g.node i).children) : c < i := by
  refine lt_of_mem_entry (c := c.val) ?_
  rw [← g.map_val_node i, Node.children_map]
  exact List.mem_map_of_mem h

/-- What a node comes to if `combine` says what it comes to given its children. -/
def fold (g : Graph) (combine : g.Id → Node α → α) (i : g.Id) : α :=
  combine i <|
    match h : g.node i with
    | .constant b => .constant b
    | .var label => .var label
    | .negation c =>
      have : c < i := lt_of_mem_children (by simp [h, Node.children])
      .negation (g.fold combine c)
    | .binary op lhs rhs =>
      have : lhs < i := lt_of_mem_children (by simp [h, Node.children])
      have : rhs < i := lt_of_mem_children (by simp [h, Node.children])
      .binary op (g.fold combine lhs) (g.fold combine rhs)
termination_by i.val

theorem fold_eq (g : Graph) (combine : g.Id → Node α → α) (i : g.Id) :
    g.fold combine i = combine i ((g.node i).map (g.fold combine)) := by
  rw [fold]
  split <;> simp_all [Node.map]

/-- Proof by induction from the children of a node upward. -/
theorem induction {g : Graph} {P : g.Id → Prop}
    (step : ∀ i, (∀ c ∈ (g.node i).children, P c) → P i) (i : g.Id) : P i :=
  step i fun c h => have := lt_of_mem_children h; induction step c
termination_by i.val

end Graph

/-- The formula of a node, given those of its children. -/
def Node.toFormula : Node Formula → Formula
  | constant b => .constant b
  | var label => .var label
  | negation f => .negation f
  | binary op lhs rhs => .binary op rhs lhs

namespace Graph

/-- The formula that a node stands for. -/
def formula (g : Graph) : g.Id → Formula :=
  g.fold fun _ => Node.toFormula

/-- The nodes that are neither constants nor variables, in the order of their creation. -/
def compounds (g : Graph) : List g.Id :=
  g.ids.filter fun i => !(g.node i).isLeaf

-- ---------------------------------------------------------------------------
-- Variables
-- ---------------------------------------------------------------------------

/-- A node of the graph that is a variable. -/
structure Variable (g : Graph) where
  id : g.Id
  label : String
  entry_id : g.entry id = .var label
deriving DecidableEq

def asVariable? (g : Graph) (i : g.Id) : Option g.Variable :=
  match h : g.entry i with
  | .var label => some ⟨i, label, h⟩
  | _ => none

theorem entry_ne_var {g : Graph} {i : g.Id} (h : g.asVariable? i = none) (label : String) :
    g.entry i ≠ .var label := by
  intro hi
  unfold asVariable? at h
  split at h
  · cases h
  next hother => exact hother label hi

/-- The variables in the order of their creation. -/
def vars (g : Graph) : List g.Variable :=
  g.ids.filterMap g.asVariable?

/-- The first variable with a label. -/
def find? (g : Graph) (label : String) : Option g.Variable :=
  match h : g.nodes.findFinIdx? (· == .var label) with
  | some i => some ⟨i, label, by simpa [entry] using (Array.findFinIdx?_eq_some_iff.1 h).1⟩
  | none => none

-- ---------------------------------------------------------------------------
-- Nodes by number
-- ---------------------------------------------------------------------------

/-- Why a number does not name what it should. -/
inductive Fault where
  | outOfBounds (size index : Nat)
  | notVariable (index : Nat) (node : Node Nat) (h : ∀ label, node ≠ .var label)
deriving DecidableEq

def Fault.message : Fault → String
  | outOfBounds size index => s!"index out of bounds: the len is {size} but the index is {index}"
  | notVariable index node h => s!"node NodeId({index}) is not a variable: {node.describe h}"

/-- The node of a given number. -/
def idAt? (g : Graph) (index : Nat) : Except Fault g.Id :=
  if h : index < g.size then .ok ⟨index, h⟩ else .error (.outOfBounds g.size index)

/-- The variable of a given number. -/
def variableAt? (g : Graph) (index : Nat) : Except Fault g.Variable := do
  let i ← g.idAt? index
  match h : g.asVariable? i with
  | some x => return x
  | none => throw (.notVariable index (g.entry i) (entry_ne_var h))

end Graph

end Propositional
