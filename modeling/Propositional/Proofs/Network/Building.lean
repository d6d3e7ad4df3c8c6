import Propositional.Proofs.Graph.Descent
import Propositional.Proofs.Network.Access

/-!
# Building

Networks made from the empty one by adding nodes and setting values, and what each of these
leaves alone. Nodes are named by their numbers, so a request may be refused, and nodes of the
networks before and after can be spoken of together.
-/

namespace Propositional

/-! ## The same node later -/

/-- It makes no difference what the children of a node are named by. -/
theorem Node.map_eq_map {ι κ μ α : Type} {m : Node ι} {n : Node κ} {p : ι → μ} {q : κ → μ}
    {f : ι → α} {k : κ → α} (h : m.map p = n.map q)
    (hf : ∀ c ∈ m.children, ∀ d ∈ n.children, p c = q d → f c = k d) : m.map f = n.map k := by
  cases m <;> cases n <;> simp_all [map, children]

namespace Graph

variable {g g' : Graph} {i : g.Id} {j : g'.Id}

theorem entry_of_extends (hn : Extends g.nodes g'.nodes) (hij : j.val = i.val) :
    g'.entry j = g.entry i := by
  have hentry := hn i _ (g.getElem?_nodes i)
  rw [← hij, g'.getElem?_nodes] at hentry
  exact Option.some.inj hentry

/-- A node stands for the same formula in a larger graph. -/
theorem formula_of_extends (hn : Extends g.nodes g'.nodes) (hij : j.val = i.val) :
    g'.formula j = g.formula i := by
  apply formula_eq_of_unfolds
  rw [hij]
  exact (g.unfolds_formula i).mono hn

/-- A node evaluates alike in a larger graph, as long as the variables below it hold what they
did. -/
theorem evaluate_of_extends {v : Valuation g} {v' : Valuation g'}
    (hn : Extends g.nodes g'.nodes) (hij : j.val = i.val)
    (hv : ∀ x : g.Variable, g.Reaches i x.id →
      v'.cells.toArray[x.id.val]? = v.cells.toArray[x.id.val]?) :
    g'.evaluate v' j = g.evaluate v i := by
  induction i using Graph.induction generalizing j with
  | step i ih =>
    have hnode : (g'.node j).map Fin.val = (g.node i).map Fin.val := by
      simpa only [map_val_node] using entry_of_extends hn hij
    have hmap : (g'.node j).map (g'.evaluate v') = (g.node i).map (g.evaluate v) :=
      Node.map_eq_map hnode fun d _ c hc hdc =>
        ih c hc hdc fun x hx => hv x (.of_child hc hx)
    rw [evaluate_eq, evaluate_eq, hmap]
    -- only a variable has a look at what it holds itself
    cases hi : g.node i with
    | var label =>
      have hcell := hv ⟨i, label, entry_of_node_var hi⟩ (.refl i)
      rw [← hij, v'.getElem?_cells, hij, v.getElem?_cells] at hcell
      rw [Option.some.inj hcell]
    | constant | negation | binary => rfl

theorem variableAt?_of_size_le {index : Nat} (h : g.size ≤ index) :
    g.variableAt? index = .error (.outOfBounds g.size index) := by
  rw [variableAt?, idAt?, dif_neg (Nat.not_lt.2 h)]
  rfl

theorem variableAt?_of_not_var (h : ∀ label, g.entry i ≠ .var label) :
    g.variableAt? i = .error (.notVariable i (g.entry i) h) := by
  refine bind_eq_error.2 (.inr ⟨i, idAt?_eq_ok.2 rfl, ?_⟩)
  split
  next x hx =>
    obtain rfl := asVariable?_eq_some.1 hx
    exact absurd x.entry_id (h x.label)
  next => rfl

end Graph

/-! ## Edits -/

namespace Network

/-- A request to a network. -/
inductive Edit where
  | push (node : Node Nat) (value : Option Bool)
  | set (index : Nat) (value : Option Bool)
deriving DecidableEq

def Edit.node? : Edit → Option (Node Nat)
  | push node _ => some node
  | set _ _ => none

/-- The network that a request leads to. Only variables can be set. -/
def edit? (n : Network) : Edit → Except Graph.Fault Network
  | .push node value => n.push? node value
  | .set index value => (n.graph.variableAt? index).map fun x => n.set x value

/-- The network after a request; it is left as it was if the request is refused. -/
def edit (n : Network) (e : Edit) : Network :=
  (n.edit? e).toOption.getD n

def editAll (n : Network) (edits : List Edit) : Network :=
  edits.foldl edit n

/-- The children of each node pushed are there by then, if there are `size` nodes at first. -/
def Fits : (size : Nat) → List Edit → Prop
  | _, [] => True
  | size, .push node _ :: edits => (∀ c ∈ node.children, c < size) ∧ Fits (size + 1) edits
  | size, .set _ _ :: edits => Fits size edits

/-- The values that are kept for the nodes. -/
def cells (n : Network) : Array (Option Bool) :=
  n.values.cells.toArray

variable {n : Network} {node : Node Nat} {value : Option Bool} {e : Edit} {edits : List Edit}
  {index : Nat}

theorem size_cells (n : Network) : n.cells.size = n.graph.size :=
  n.values.cells.size_toArray

@[simp] theorem nodes_push (h : ∀ c ∈ node.children, c < n.graph.size) :
    (n.push node value h).graph.nodes = n.graph.nodes.push node :=
  rfl

@[simp] theorem cells_push (h : ∀ c ∈ node.children, c < n.graph.size) :
    (n.push node value h).cells = n.cells.push value := by
  simp [push, cells]

@[simp] theorem graph_set (x : n.graph.Variable) : (n.set x value).graph = n.graph :=
  rfl

@[simp] theorem cells_set (x : n.graph.Variable) :
    (n.set x value).cells = n.cells.setIfInBounds x.id value := by
  simp [set, cells, Valuation.set, Array.setIfInBounds]

/-! ## One request -/

theorem edit?_push (h : ∀ c ∈ node.children, c < n.graph.size) :
    n.edit? (.push node value) = .ok (n.push node value h) := by
  rw [edit?, push?]
  split
  next c hc =>
    have hle : n.graph.size ≤ c := by simpa using List.find?_some hc
    exact absurd (h c (List.mem_of_find?_eq_some hc)) (Nat.not_lt.2 hle)
  next => rfl

theorem edit?_set (x : n.graph.Variable) : n.edit? (.set x.id value) = .ok (n.set x value) := by
  rw [edit?, Graph.variableAt?_eq_ok.2 rfl]
  rfl

theorem edit_of_ok {m : Network} (h : n.edit? e = .ok m) : n.edit e = m := by
  rw [edit, h]
  rfl

theorem edit_of_error {fault : Graph.Fault} (h : n.edit? e = .error fault) : n.edit e = n := by
  rw [edit, h]
  rfl

/-- What a request can do. -/
theorem edit?_cases (n : Network) (e : Edit) :
    (∃ node value, ∃ h : ∀ c ∈ node.children, c < n.graph.size,
      e = .push node value ∧ n.edit e = n.push node value h) ∨
    (∃ x : n.graph.Variable, ∃ value, e = .set x.id value ∧ n.edit e = n.set x value) ∨
    (∃ fault, n.edit? e = .error fault ∧ n.edit e = n) := by
  cases h : n.edit? e with
  | error fault => exact .inr (.inr ⟨fault, rfl, edit_of_error h⟩)
  | ok m =>
    cases e with
    | push node value =>
      rw [edit?, push?] at h
      split at h
      next => cases h
      next hfind =>
        cases h
        have hc : ∀ c ∈ node.children, c < n.graph.size := by simpa using hfind
        exact .inl ⟨node, value, hc, rfl, edit_of_ok (edit?_push hc)⟩
    | set index value =>
      obtain ⟨x, hx, rfl⟩ := map_eq_ok.1 h
      obtain rfl := Graph.variableAt?_eq_ok.1 hx
      exact .inr (.inl ⟨x, value, rfl, edit_of_ok (edit?_set x)⟩)

theorem extends_edit (n : Network) (e : Edit) : Extends n.graph.nodes (n.edit e).graph.nodes := by
  obtain ⟨node, value, h, rfl, hedit⟩ | ⟨x, value, rfl, hedit⟩ | ⟨fault, _, hedit⟩ :=
    n.edit?_cases e
  · rw [hedit]
    exact .push _ _
  · rw [hedit]
    exact .refl _
  · rw [hedit]
    exact .refl _

theorem getElem?_cells_edit (hlt : index < n.graph.size) (hset : ∀ value, e ≠ .set index value) :
    (n.edit e).cells[index]? = n.cells[index]? := by
  obtain ⟨node, value, h, rfl, hedit⟩ | ⟨x, value, rfl, hedit⟩ | ⟨fault, _, hedit⟩ :=
    n.edit?_cases e
  · rw [← size_cells] at hlt
    rw [hedit, cells_push, Array.getElem?_push_lt hlt, Array.getElem?_eq_getElem hlt]
  · have hne : x.id.val ≠ index := fun hx => hset value (by rw [hx])
    rw [hedit, cells_set, Array.getElem?_setIfInBounds_ne hne]
  · rw [hedit]

/-! ## Runs -/

theorem extends_editAll (n : Network) (edits : List Edit) :
    Extends n.graph.nodes (n.editAll edits).graph.nodes := by
  induction edits generalizing n with
  | nil => exact .refl _
  | cons e edits ih => exact (n.extends_edit e).trans (ih _)

theorem getElem?_cells_editAll (hlt : index < n.graph.size)
    (hset : ∀ value, .set index value ∉ edits) :
    (n.editAll edits).cells[index]? = n.cells[index]? := by
  induction edits generalizing n with
  | nil => rfl
  | cons e edits ih =>
    simp only [List.mem_cons, not_or] at hset
    have hsize : index < (n.edit e).graph.size := by
      have hnode := n.extends_edit e index _ (Array.getElem?_eq_getElem hlt)
      exact (Array.getElem?_eq_some_iff.1 hnode).1
    calc ((n.edit e).editAll edits).cells[index]?
      _ = (n.edit e).cells[index]? := ih hsize fun value => (hset value).2
      _ = n.cells[index]? := getElem?_cells_edit hlt fun value he => (hset value).1 he.symm

/-- Whatever is asked of a network later, a node stays what it is and is written alike, and it
evaluates alike until one of the variables below it is set. -/
theorem editAll_frame (edits : List Edit) {i : n.graph.Id} {j : (n.editAll edits).graph.Id}
    (hij : j.val = i.val) :
    (n.editAll edits).graph.entry j = n.graph.entry i ∧
    (n.editAll edits).render j = n.render i ∧
    ((∀ x : n.graph.Variable, n.graph.Reaches i x.id → ∀ value, .set x.id value ∉ edits) →
      (n.editAll edits).evaluate j = n.evaluate i) := by
  have hextends := n.extends_editAll edits
  refine ⟨Graph.entry_of_extends hextends hij, ?_, fun hset => ?_⟩
  · exact congrArg Formula.render (Graph.formula_of_extends hextends hij)
  · exact Graph.evaluate_of_extends hextends hij fun x hx =>
      getElem?_cells_editAll x.id.isLt (hset x hx)

theorem nodes_editAll (h : Fits n.graph.size edits) :
    (n.editAll edits).graph.nodes.toList = n.graph.nodes.toList ++ edits.filterMap Edit.node? := by
  induction edits generalizing n with
  | nil => exact (List.append_nil _).symm
  | cons e edits ih =>
    cases e with
    | push node value =>
      obtain ⟨hchildren, hrest⟩ := h
      have hsize : (n.push node value hchildren).graph.size = n.graph.size + 1 :=
        Array.size_push _
      have hih := ih (n := n.push node value hchildren) (hsize ▸ hrest)
      rw [editAll, List.foldl_cons, edit_of_ok (edit?_push hchildren)]
      simpa [editAll, Edit.node?] using hih
    | set index value =>
      have hgraph : (n.edit (.set index value)).graph = n.graph := by
        obtain ⟨_, _, _, he, _⟩ | ⟨x, _, _, hedit⟩ | ⟨_, _, hedit⟩ :=
          n.edit?_cases (.set index value)
        · cases he
        · rw [hedit, graph_set]
        · rw [hedit]
      have hih := ih (n := n.edit (.set index value)) (by rw [hgraph]; exact h)
      rw [hgraph] at hih
      exact hih

/-! ## Soundness and locality -/

/-- Children come before what they are children of. So to evaluate or write a node, no visit
leads out of the nodes that are there, and no more visits nest than there are nodes up to it. -/
structure Sound (n : Network) : Prop where
  children_lt : ∀ (i : Nat) (node : Node Nat), n.graph.nodes[i]? = some node →
    ∀ c ∈ node.children, c < i
  evaluates : ∀ i : n.graph.Id,
    evaluateWithin n.graph.nodes n.cells (i + 1) i = some (n.evaluate i)
  renders : ∀ i : n.graph.Id, renderWithin n.graph.nodes (i + 1) i = some (n.render i)

/-- All that can be known of the nodes of the first network is the same in the second. -/
def Keeps (n m : Network) : Prop :=
  ∀ (i : n.graph.Id) (j : m.graph.Id), j.val = i.val →
    m.graph.entry j = n.graph.entry i ∧ m.values.get j = n.values.get i ∧
    m.evaluate j = n.evaluate i ∧ m.render j = n.render i

theorem sound (n : Network) : n.Sound where
  children_lt i node hi c hc := by
    obtain ⟨hlt, rfl⟩ := Array.getElem?_eq_some_iff.1 hi
    exact n.graph.children_lt i hlt c hc
  evaluates i := Graph.evaluateWithin_eq n.values (Graph.height_formula_le i)
  renders i := Graph.renderWithin_eq (Graph.height_formula_le i)

theorem keeps_push (h : ∀ c ∈ node.children, c < n.graph.size) :
    n.Keeps (n.push node value h) := by
  intro i j hij
  have hextends : Extends n.graph.nodes (n.push node value h).graph.nodes := .push _ _
  have hcell (i : n.graph.Id) : (n.push node value h).cells[i.val]? = n.cells[i.val]? := by
    rw [cells_push, Array.getElem?_push, if_neg (by rw [size_cells]; exact i.isLt.ne)]
  refine ⟨Graph.entry_of_extends hextends hij, ?_, ?_, ?_⟩
  · have hheld := hcell i
    rw [← hij, cells, Valuation.getElem?_cells, hij, cells, Valuation.getElem?_cells] at hheld
    exact Option.some.inj hheld
  · exact Graph.evaluate_of_extends hextends hij fun x _ => hcell x.id
  · exact congrArg Formula.render (Graph.formula_of_extends hextends hij)

theorem evaluate_set {x : n.graph.Variable} {i : n.graph.Id} (h : ¬ n.graph.Reaches i x.id) :
    (n.set x value).evaluate i = n.evaluate i := by
  refine Graph.evaluate_of_extends (.refl _) rfl fun y hy => ?_
  have hne : x.id.val ≠ y.id.val := fun hxy => h (Fin.ext hxy ▸ hy)
  change (n.set x value).cells[y.id.val]? = n.cells[y.id.val]?
  rw [cells_set, Array.getElem?_setIfInBounds_ne hne]

theorem edit?_set_of_size_le (h : n.graph.size ≤ index) :
    n.edit? (.set index value) = .error (.outOfBounds n.graph.size index) := by
  rw [edit?, Graph.variableAt?_of_size_le h]
  rfl

theorem edit?_set_of_not_var (hi : n.graph.nodes[index]? = some node)
    (h : ∀ label, node ≠ .var label) :
    n.edit? (.set index value) = .error (.notVariable index node h) := by
  obtain ⟨hlt, rfl⟩ := Array.getElem?_eq_some_iff.1 hi
  rw [edit?, Graph.variableAt?_of_not_var (i := ⟨index, hlt⟩) h]
  rfl

/-- What requests make of the empty network, if children are there when they are referred to. It
holds the nodes pushed, in order, and all of them can be evaluated and written. One more node
changes none of them, and another value of a variable at most what the nodes above it evaluate to.
To set anything else is refused, and leaves the network as it is. -/
theorem editAll_local {edits : List Edit} (h : Fits 0 edits) :
    let n := empty.editAll edits
    n.graph.nodes.toList = edits.filterMap Edit.node? ∧ n.Sound ∧
    (∀ node value, (∀ c ∈ node.children, c < n.graph.size) →
      ∃ m, n.edit? (.push node value) = .ok m ∧
        m.graph.nodes = n.graph.nodes.push node ∧ m.cells = n.cells.push value ∧ n.Keeps m) ∧
    (∀ (x : n.graph.Variable) value,
      n.edit? (.set x.id value) = .ok (n.set x value) ∧ (n.set x value).graph = n.graph ∧
      (n.set x value).cells = n.cells.setIfInBounds x.id value ∧
      (∀ i, (n.set x value).render i = n.render i) ∧
      ∀ i, ¬ n.graph.Reaches i x.id → (n.set x value).evaluate i = n.evaluate i) ∧
    (∀ index value, n.graph.size ≤ index →
      n.edit? (.set index value) = .error (.outOfBounds n.graph.size index) ∧
      n.edit (.set index value) = n) ∧
    (∀ index node value, n.graph.nodes[index]? = some node → ∀ h : ∀ label, node ≠ .var label,
      n.edit? (.set index value) = .error (.notVariable index node h) ∧
      n.edit (.set index value) = n) := by
  intro n
  refine ⟨nodes_editAll h, n.sound, ?_, ?_, ?_, ?_⟩
  · intro node value hchildren
    exact ⟨_, edit?_push hchildren, rfl, cells_push hchildren, keeps_push hchildren⟩
  · intro x value
    exact ⟨edit?_set x, rfl, cells_set x, fun _ => rfl, fun _ => evaluate_set⟩
  · intro index value hle
    have herror : n.edit? (.set index value) = _ := edit?_set_of_size_le hle
    exact ⟨herror, edit_of_error herror⟩
  · intro index node value hi hvar
    have herror : n.edit? (.set index value) = _ := edit?_set_of_not_var hi hvar
    exact ⟨herror, edit_of_error herror⟩

/-- `A ∧ ~A` over one variable, which is set before the negation is; the negation cannot be. -/
theorem editAll_local_shared :
    let edits : List Edit := [.push (.var "A") none, .set 0 (some true), .push (.negation 0) none,
      .set 1 (some true), .push (.binary .and 1 0) none]
    Fits 0 edits ∧ (empty.editAll edits).graph.nodes.toList =
      [.var "A", .negation 0, .binary .and 1 0] := by
  intro edits
  have h : Fits 0 edits := by
    simp [edits, Fits, Node.children]
  exact ⟨h, (editAll_local h).1⟩

end Network

end Propositional
