import Propositional.Graph.Layout

/-!
# Unfolding

The formula that a node stands for, as a relation that follows the entries of a graph, and
what laying a formula out does to it: the new root unfolds to the formula, and older nodes
unfold to what they did before. Both are told by numbers and entries alone, so that nodes of
a graph and of a larger one can be spoken of together.
-/

namespace Propositional

/-! ## Unfolding -/

/-- The node of a number stands for a formula. The operand written before a connective is
found at `rhs` and the one written after it at `lhs`. -/
inductive Unfolds (nodes : Array (Node Nat)) : Nat → Formula → Prop where
  | constant {i b} : nodes[i]? = some (.constant b) → Unfolds nodes i (.constant b)
  | var {i label} : nodes[i]? = some (.var label) → Unfolds nodes i (.var label)
  | negation {i c f} :
      nodes[i]? = some (.negation c) → Unfolds nodes c f → Unfolds nodes i (.negation f)
  | binary {i op lhs rhs before after} :
      nodes[i]? = some (.binary op lhs rhs) → Unfolds nodes rhs before →
      Unfolds nodes lhs after → Unfolds nodes i (.binary op before after)

/-- The first nodes are also the first of the second. -/
def Extends (nodes nodes' : Array (Node Nat)) : Prop :=
  ∀ (i : Nat) (node : Node Nat), nodes[i]? = some node → nodes'[i]? = some node

theorem Extends.refl (nodes : Array (Node Nat)) : Extends nodes nodes :=
  fun _ _ h => h

theorem Extends.trans {n₁ n₂ n₃ : Array (Node Nat)} (h : Extends n₁ n₂) (h' : Extends n₂ n₃) :
    Extends n₁ n₃ :=
  fun i node hi => h' i node (h i node hi)

theorem Extends.push (nodes : Array (Node Nat)) (node : Node Nat) :
    Extends nodes (nodes.push node) := by
  intro i old hi
  have hlt : i < nodes.size := (Array.getElem?_eq_some_iff.1 hi).1
  rw [Array.getElem?_push_lt hlt, ← hi, Array.getElem?_eq_getElem hlt]

/-- Older nodes unfold alike when nodes are added. -/
theorem Unfolds.mono {nodes nodes' : Array (Node Nat)} (hn : Extends nodes nodes') {i : Nat}
    {f : Formula} (h : Unfolds nodes i f) : Unfolds nodes' i f := by
  induction h with
  | constant h => exact .constant (hn _ _ h)
  | var h => exact .var (hn _ _ h)
  | negation h _ ih => exact .negation (hn _ _ h) ih
  | binary h _ _ ihb iha => exact .binary (hn _ _ h) ihb iha

theorem Unfolds.unique {nodes : Array (Node Nat)} {i : Nat} {f f' : Formula}
    (h : Unfolds nodes i f) (h' : Unfolds nodes i f') : f = f' := by
  induction h generalizing f' with
  | constant h | var h => cases h' <;> simp_all
  | negation h _ ih =>
    cases h' with
    | negation h' hc =>
      obtain rfl : _ = _ := by simpa [h] using h'
      rw [ih hc]
    | _ => simp_all
  | binary h _ _ ihb iha =>
    cases h' with
    | binary h' hb ha =>
      obtain ⟨rfl, rfl, rfl⟩ : _ ∧ _ ∧ _ := by simpa [h] using h'
      rw [ihb hb, iha ha]
    | _ => simp_all

namespace Graph

theorem getElem?_nodes (g : Graph) (i : g.Id) : g.nodes[i.val]? = some (g.entry i) :=
  Array.getElem?_eq_getElem i.isLt

theorem formula_eq (g : Graph) (i : g.Id) : g.formula i = ((g.node i).map g.formula).toFormula :=
  g.fold_eq _ i

/-- Induction from the children of a node upward, by what the node is. -/
theorem node_induction {g : Graph} {P : g.Id → Prop}
    (constant : ∀ i b, g.node i = .constant b → P i)
    (var : ∀ i label, g.node i = .var label → P i)
    (negation : ∀ i c, g.node i = .negation c → P c → P i)
    (binary : ∀ i op lhs rhs, g.node i = .binary op lhs rhs → P lhs → P rhs → P i)
    (i : g.Id) : P i := by
  induction i using Graph.induction with
  | step i ih =>
    cases hn : g.node i with
    | constant b => exact constant i b hn
    | var label => exact var i label hn
    | negation c => exact negation i c hn (ih c (by simp [hn, Node.children]))
    | binary op lhs rhs =>
      exact binary i op lhs rhs hn (ih lhs (by simp [hn, Node.children]))
        (ih rhs (by simp [hn, Node.children]))

theorem getElem?_nodes_of_node {g : Graph} {i : g.Id} {n : Node g.Id} (h : g.node i = n) :
    g.nodes[i.val]? = some (n.map Fin.val) := by
  rw [g.getElem?_nodes, ← g.map_val_node, h]

/-- The computed formula of a node is the one that it unfolds to. -/
theorem unfolds_formula (g : Graph) (i : g.Id) : Unfolds g.nodes i (g.formula i) := by
  induction i using node_induction with
  | constant i b hn =>
    rw [formula_eq, hn]
    exact .constant (getElem?_nodes_of_node hn)
  | var i label hn =>
    rw [formula_eq, hn]
    exact .var (getElem?_nodes_of_node hn)
  | negation i c hn ih =>
    rw [formula_eq, hn]
    exact .negation (getElem?_nodes_of_node hn) ih
  | binary i op lhs rhs hn ihl ihr =>
    rw [formula_eq, hn]
    exact .binary (getElem?_nodes_of_node hn) ihr ihl

theorem formula_eq_of_unfolds {g : Graph} {i : g.Id} {f : Formula} (h : Unfolds g.nodes i f) :
    g.formula i = f :=
  (g.unfolds_formula i).unique h

end Graph

/-! ## Layout -/

/-- Laying a formula out after some nodes gives more nodes, with the formula at the node of
a number. -/
inductive Lays : Array (Node Nat) → Formula → Array (Node Nat) → Nat → Prop where
  | constant {nodes b} : Lays nodes (.constant b) (nodes.push (.constant b)) nodes.size
  | known {nodes label i} : nodes[i]? = some (.var label) → Lays nodes (.var label) nodes i
  | new {nodes label} :
      (∀ i : Nat, nodes[i]? ≠ some (.var label)) →
      Lays nodes (.var label) (nodes.push (.var label)) nodes.size
  | negation {nodes f nodes' c} :
      Lays nodes f nodes' c →
      Lays nodes (.negation f) (nodes'.push (.negation c)) nodes'.size
  | binary {nodes left n₁ before right n₂ after op} :
      Lays nodes left n₁ before → Lays n₁ right n₂ after →
      Lays nodes (.binary op left right) (n₂.push (.binary op after before)) n₂.size

theorem Graph.label_of_find? {g : Graph} {label : String} {x : g.Variable}
    (h : g.find? label = some x) : x.label = label := by
  unfold find? at h
  split at h <;> cases h
  rfl

theorem Graph.getElem?_of_find? {g : Graph} {label : String} {x : g.Variable}
    (h : g.find? label = some x) : g.nodes[x.id.val]? = some (.var label) := by
  rw [g.getElem?_nodes, x.entry_id, label_of_find? h]

theorem Graph.find?_eq_none {g : Graph} {label : String} (h : g.find? label = none) (i : Nat) :
    g.nodes[i]? ≠ some (.var label) := by
  unfold find? at h
  split at h
  · cases h
  next hf =>
    intro hi
    obtain ⟨hlt, he⟩ := Array.getElem?_eq_some_iff.1 hi
    simpa [he] using Array.findFinIdx?_eq_none_iff.1 hf _ (Array.getElem_mem hlt)

theorem Graph.add_var (g : Graph) (label : String) :
    g.add (.var label) = (g.find? label).elim
      (g.top (.var label) fun _ hc => absurd hc List.not_mem_nil)
      fun x => ⟨g, x.id, Nat.le_refl _⟩ := by
  conv => lhs; whnf
  cases g.find? label <;> rfl

theorem Graph.lays_add (g : Graph) (f : Formula) :
    Lays g.nodes f (g.add f).graph.nodes (g.add f).root := by
  induction f generalizing g with
  | constant b => exact .constant
  | var label =>
    cases hf : g.find? label with
    | none =>
      rw [add_var, hf]
      exact .new (find?_eq_none hf)
    | some x =>
      rw [add_var, hf]
      exact .known (getElem?_of_find? hf)
  | negation f ih => exact .negation (ih g)
  | binary op left right ihl ihr => exact .binary (ihl g) (ihr _)

/-- Laying out a formula adds nodes and changes none. -/
theorem Lays.extends {nodes nodes' : Array (Node Nat)} {f : Formula} {r : Nat}
    (h : Lays nodes f nodes' r) : Extends nodes nodes' := by
  induction h with
  | constant | new => exact .push _ _
  | known => exact .refl _
  | negation _ ih => exact ih.trans (.push _ _)
  | binary _ _ ihl ihr => exact ihl.trans (ihr.trans (.push _ _))

/-- The root of a layout unfolds to the formula laid out. -/
theorem Lays.unfolds {nodes nodes' : Array (Node Nat)} {f : Formula} {r : Nat}
    (h : Lays nodes f nodes' r) : Unfolds nodes' r f := by
  induction h with
  | constant => exact .constant Array.getElem?_push_size
  | known hi => exact .var hi
  | new => exact .var Array.getElem?_push_size
  | negation _ ih => exact .negation Array.getElem?_push_size (ih.mono (.push _ _))
  | binary _ hr ihl ihr =>
    exact .binary Array.getElem?_push_size (ihl.mono (hr.extends.trans (.push _ _)))
      (ihr.mono (.push _ _))

/-! ## Shared labels -/

/-- No label has two variables. -/
def Distinct (nodes : Array (Node Nat)) : Prop :=
  ∀ (i j : Nat) (label : String),
    nodes[i]? = some (.var label) → nodes[j]? = some (.var label) → i = j

theorem Distinct.push {nodes : Array (Node Nat)} {node : Node Nat} (h : Distinct nodes)
    (hnew : ∀ label, node = .var label → ∀ i : Nat, nodes[i]? ≠ some (.var label)) :
    Distinct (nodes.push node) := by
  intro i j label hi hj
  rw [Array.getElem?_push] at hi hj
  split at hi <;> split at hj
  · omega
  · exact absurd hj (hnew label (by simpa using hi) j)
  · exact absurd hi (hnew label (by simpa using hj) i)
  · exact h i j label hi hj

theorem Lays.distinct {nodes nodes' : Array (Node Nat)} {f : Formula} {r : Nat}
    (h : Lays nodes f nodes' r) (hd : Distinct nodes) : Distinct nodes' := by
  induction h with
  | constant => exact hd.push nofun
  | known => exact hd
  | new hn =>
    refine hd.push fun label hl => ?_
    cases hl
    exact hn
  | negation _ ih => exact (ih hd).push nofun
  | binary _ _ ihl ihr => exact (ihr (ihl hd)).push nofun

end Propositional
