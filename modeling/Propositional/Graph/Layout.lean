import Propositional.Graph

/-!
# Layout of a formula

A formula is laid out in a graph from left to right and from the operands upward:
the operand written before a connective, the one written after it, then the
connective. All occurrences of a label share one variable; nothing else is shared.
-/

namespace Propositional

/-- A graph of at least `n` nodes, with one of its nodes. -/
structure Graph.Layout (n : Nat) where
  graph : Graph
  root : graph.Id
  le : n ≤ graph.size

namespace Graph

/-- The graph with one more node, which is the one returned. -/
def top (g : Graph) (node : Node Nat) (h : ∀ c ∈ node.children, c < g.size) : Layout g.size where
  graph := g.push node h
  root := ⟨g.size, by simp [push, size]⟩
  le := by simp [push, size]

/-- The graph with a formula added to it. -/
def add (g : Graph) : Formula → Layout g.size
  | .constant b => g.top (.constant b) (by simp [Node.children])
  | .var label =>
    match g.find? label with
    | some x => ⟨g, x.id, Nat.le_refl _⟩
    | none => g.top (.var label) (by simp [Node.children])
  | .negation f =>
    match g.add f with
    | ⟨g₁, c, h₁⟩ =>
      let t := g₁.top (.negation c) (by simp [Node.children])
      ⟨t.graph, t.root, Nat.le_trans h₁ t.le⟩
  | .binary op left right =>
    match g.add left with
    | ⟨g₁, before, h₁⟩ =>
      match g₁.add right with
      | ⟨g₂, after, h₂⟩ =>
        let t := g₂.top (.binary op after before) (by simp [Node.children]; omega)
        ⟨t.graph, t.root, Nat.le_trans (Nat.le_trans h₁ h₂) t.le⟩

end Graph

end Propositional
