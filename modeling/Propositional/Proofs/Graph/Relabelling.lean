import Mathlib.Data.Set.Function
import Propositional.Proofs.Expression.Structure
import Propositional.Proofs.Graph.Variables
import Propositional.Proofs.Grammar.Relabelling

/-!
# Relabelling of graphs

Whether an occurrence of a label is a new node or an old one is decided by comparing labels. If no
two labels become one, replacing them changes nothing else in a layout: all nodes stay where they
are and refer to the same nodes.
-/

namespace Propositional

/-- The node with its label replaced, if it is a variable. -/
def Node.relabel {ι : Type} (ρ : String → String) : Node ι → Node ι
  | constant b => constant b
  | var label => var (ρ label)
  | negation c => negation c
  | binary op lhs rhs => binary op lhs rhs

/-- The nodes with their labels replaced. -/
def relabelNodes (ρ : String → String) (nodes : Array (Node Nat)) : Array (Node Nat) :=
  nodes.map (Node.relabel ρ)

variable {ρ : String → String} {nodes nodes' : Array (Node Nat)}

@[simp] theorem size_relabelNodes (ρ : String → String) (nodes : Array (Node Nat)) :
    (relabelNodes ρ nodes).size = nodes.size :=
  Array.size_map ..

theorem relabelNodes_empty : relabelNodes ρ #[] = #[] :=
  Array.map_empty

theorem relabelNodes_push (node : Node Nat) :
    relabelNodes ρ (nodes.push node) = (relabelNodes ρ nodes).push (node.relabel ρ) :=
  Array.map_push ..

theorem getElem?_relabelNodes (i : Nat) :
    (relabelNodes ρ nodes)[i]? = (nodes[i]?).map (Node.relabel ρ) :=
  Array.getElem?_map ..

theorem getElem?_relabelNodes_of {i : Nat} {node : Node Nat} (h : nodes[i]? = some node) :
    (relabelNodes ρ nodes)[i]? = some (node.relabel ρ) := by
  rw [getElem?_relabelNodes, h, Option.map_some]

theorem exists_of_getElem?_relabelNodes {i : Nat} {label : String}
    (h : (relabelNodes ρ nodes)[i]? = some (.var label)) :
    ∃ old, nodes[i]? = some (.var old) ∧ ρ old = label := by
  rw [getElem?_relabelNodes] at h
  obtain ⟨node, hnode, hvar⟩ := Option.map_eq_some_iff.1 h
  cases node with
  | var old => exact ⟨old, hnode, Node.var.inj hvar⟩
  | constant | negation | binary => cases hvar

/-! ## What nodes stand for -/

/-- The nodes unfold to the same formulas up to labels. -/
theorem Unfolds.relabel {i : Nat} {f : Formula} (h : Unfolds nodes i f) :
    Unfolds (relabelNodes ρ nodes) i (f.relabel ρ) := by
  induction h with
  | constant h => exact .constant (getElem?_relabelNodes_of h)
  | var h => exact .var (getElem?_relabelNodes_of h)
  | negation h _ ih => exact .negation (getElem?_relabelNodes_of h) ih
  | binary h _ _ ihb iha => exact .binary (getElem?_relabelNodes_of h) ihb iha

theorem label?_relabel (node : Node Nat) : (node.relabel ρ).label? = node.label?.map ρ := by
  cases node <;> rfl

/-- The variables come in the same order. -/
theorem labelsOf_relabelNodes : labelsOf (relabelNodes ρ nodes) = (labelsOf nodes).map ρ := by
  simp only [labelsOf, relabelNodes, Array.toList_map, List.filterMap_map, List.map_filterMap,
    Function.comp_def, label?_relabel]

theorem variablesOf_relabelNodes : variablesOf (relabelNodes ρ nodes) = variablesOf nodes := by
  simp only [variablesOf, size_relabelNodes, getElem?_relabelNodes, Option.any_map,
    label?_relabel, Option.isSome_map]

theorem compoundsOf_relabelNodes : compoundsOf (relabelNodes ρ nodes) = compoundsOf nodes := by
  have hleaf : ∀ node : Node Nat, (node.relabel ρ).isLeaf = node.isLeaf := by
    rintro (_ | _ | _ | _) <;> rfl
  simp only [compoundsOf, size_relabelNodes, getElem?_relabelNodes, Option.any_map,
    hleaf]

/-! ## Layouts -/

/-- The labels of the nodes are kept apart. -/
def KeepsApart (ρ : String → String) (nodes : Array (Node Nat)) : Prop :=
  Set.InjOn ρ {label | label ∈ labelsOf nodes}

theorem KeepsApart.of_extends (h : KeepsApart ρ nodes') (hn : Extends nodes nodes') :
    KeepsApart ρ nodes := by
  refine h.mono fun label hl => ?_
  obtain ⟨i, hi⟩ := mem_labelsOf.1 hl
  exact mem_labelsOf.2 ⟨i, hn _ _ hi⟩

theorem KeepsApart.distinct (h : KeepsApart ρ nodes) (hd : Distinct nodes) :
    Distinct (relabelNodes ρ nodes) := by
  intro i j label hi hj
  obtain ⟨old, hold, rfl⟩ := exists_of_getElem?_relabelNodes hi
  obtain ⟨old', hold', heq⟩ := exists_of_getElem?_relabelNodes hj
  obtain rfl : old' = old := h (mem_labelsOf.2 ⟨j, hold'⟩) (mem_labelsOf.2 ⟨i, hold⟩) heq
  exact hd i j old' hold hold'

/-- As long as labels are kept apart, to replace them after a layout or before it is the same. -/
theorem Lays.relabel {f : Formula} {r : Nat} (h : Lays nodes f nodes' r)
    (hρ : KeepsApart ρ nodes') :
    Lays (relabelNodes ρ nodes) (f.relabel ρ) (relabelNodes ρ nodes') r := by
  induction h with
  | @constant nodes b =>
    rw [relabelNodes_push, ← size_relabelNodes ρ]
    exact .constant
  | known hi => exact .known (getElem?_relabelNodes_of hi)
  | @new nodes label hnew =>
    have hfresh : ∀ i : Nat, (relabelNodes ρ nodes)[i]? ≠ some (.var (ρ label)) := by
      intro i hi
      obtain ⟨old, hold, heq⟩ := exists_of_getElem?_relabelNodes hi
      -- the old label and the new one are both among those kept apart
      have hsame : old = label :=
        hρ (mem_labelsOf.2 ⟨i, Extends.push _ _ _ _ hold⟩)
          (mem_labelsOf.2 ⟨nodes.size, Array.getElem?_push_size⟩) heq
      exact hnew i (hsame ▸ hold)
    rw [relabelNodes_push, ← size_relabelNodes ρ]
    exact .new hfresh
  | negation _ ih =>
    rw [relabelNodes_push, ← size_relabelNodes ρ]
    exact .negation (ih (hρ.of_extends (.push _ _)))
  | binary _ hr ihl ihr =>
    have hall := hρ.of_extends (.push _ _)
    rw [relabelNodes_push, ← size_relabelNodes ρ]
    exact .binary (ihl (hall.of_extends hr.extends)) (ihr hall)

/-- There is one way to lay a formula out after nodes whose labels are different. -/
theorem Lays.unique {nodes₁ nodes₂ : Array (Node Nat)} {f : Formula} {r₁ r₂ : Nat}
    (h₁ : Lays nodes f nodes₁ r₁) (h₂ : Lays nodes f nodes₂ r₂) (hd : Distinct nodes) :
    nodes₁ = nodes₂ ∧ r₁ = r₂ := by
  induction h₁ generalizing nodes₂ r₂ with
  | constant =>
    cases h₂
    exact ⟨rfl, rfl⟩
  | known hi =>
    cases h₂ with
    | known hj => exact ⟨rfl, hd _ _ _ hi hj⟩
    | new hnew => exact absurd hi (hnew _)
  | new hnew =>
    cases h₂ with
    | known hj => exact absurd hj (hnew _)
    | new => exact ⟨rfl, rfl⟩
  | negation _ ih =>
    cases h₂ with
    | negation h₂ =>
      obtain ⟨rfl, rfl⟩ := ih h₂ hd
      exact ⟨rfl, rfl⟩
  | binary hl _ ihl ihr =>
    cases h₂ with
    | binary hl₂ hr₂ =>
      obtain ⟨rfl, rfl⟩ := ihl hl₂ hd
      obtain ⟨rfl, rfl⟩ := ihr hr₂ (hl.distinct hd)
      exact ⟨rfl, rfl⟩

/-! ## Graphs -/

/-- The graphs have the same nodes up to labels, and no two labels became one. A label has one
variable at most. -/
structure Graph.Relabels (ρ : String → String) (g g' : Graph) : Prop where
  nodes_eq : g'.nodes = relabelNodes ρ g.nodes
  apart : KeepsApart ρ g.nodes
  distinct : Distinct g.nodes

namespace Graph.Relabels

variable {g g' : Graph}

theorem distinct_relabelled (h : g.Relabels ρ g') : Distinct g'.nodes := by
  rw [h.nodes_eq]
  exact h.apart.distinct h.distinct

theorem map_label_vars (h : g.Relabels ρ g') :
    g'.vars.map (·.label) = (g.vars.map (·.label)).map ρ := by
  rw [g'.map_label_vars, g.map_label_vars, h.nodes_eq, labelsOf_relabelNodes]

theorem map_val_vars (h : g.Relabels ρ g') :
    g'.vars.map (·.id.val) = g.vars.map (·.id.val) := by
  rw [g'.map_val_vars, g.map_val_vars, h.nodes_eq, variablesOf_relabelNodes]

theorem map_val_compounds (h : g.Relabels ρ g') :
    g'.compounds.map (·.val) = g.compounds.map (·.val) := by
  rw [g'.map_val_compounds, g.map_val_compounds, h.nodes_eq, compoundsOf_relabelNodes]

theorem formula_eq (h : g.Relabels ρ g') {i : g.Id} {i' : g'.Id} (hi : i'.val = i.val) :
    g'.formula i' = (g.formula i).relabel ρ := by
  refine formula_eq_of_unfolds ?_
  rw [h.nodes_eq, hi]
  exact (g.unfolds_formula i).relabel

/-- The variable of a label has the new label in the other graph. -/
theorem exists_variable (h : g.Relabels ρ g') (x : g.Variable) :
    ∃ x' : g'.Variable, x'.label = ρ x.label := by
  have hlabel : ρ x.label ∈ g'.vars.map (·.label) := by
    rw [h.map_label_vars]
    exact List.mem_map_of_mem (List.mem_map_of_mem (mem_vars x))
  obtain ⟨x', _, hx'⟩ := List.mem_map.1 hlabel
  exact ⟨x', hx'⟩

end Graph.Relabels

end Propositional
