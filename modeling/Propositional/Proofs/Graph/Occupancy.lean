import Mathlib.Data.List.Forall2
import Propositional.Proofs.Formula.Parts
import Propositional.Proofs.Graph.Unfolding
import Propositional.Proofs.Network.Evaluation

/-!
# Occupancy

What laying a formula out adds to a list of nodes: which operand slots refer to the new nodes,
which labels and which compound parts they stand for. Every new node is needed exactly once, by
a slot or as the root, except that variables may be needed more often; this is carried through
a layout as a balance between the slots filled and the nodes added.
-/

namespace Propositional

/-! ## Lists of nodes -/

namespace Node

variable {ι : Type}

def label? : Node ι → Option String
  | var label => some label
  | _ => none

end Node

/-- All operand slots, by the node that each refers to. -/
def slots (nodes : Array (Node Nat)) : List Nat :=
  nodes.toList.flatMap Node.children

/-- The labels of the variables in order. -/
def labelsOf (nodes : Array (Node Nat)) : List String :=
  nodes.toList.filterMap Node.label?

/-- The numbers of the variables. -/
def variablesOf (nodes : Array (Node Nat)) : List Nat :=
  (List.range nodes.size).filter fun i => (nodes[i]?).any fun node => node.label?.isSome

/-- The numbers of the nodes that are neither constants nor variables. -/
def compoundsOf (nodes : Array (Node Nat)) : List Nat :=
  (List.range nodes.size).filter fun i => (nodes[i]?).any fun n => !n.isLeaf

theorem slots_push (nodes : Array (Node Nat)) (n : Node Nat) :
    slots (nodes.push n) = slots nodes ++ n.children := by
  simp [slots]

theorem labelsOf_push (nodes : Array (Node Nat)) (n : Node Nat) :
    labelsOf (nodes.push n) = labelsOf nodes ++ n.label?.toList := by
  cases h : n.label? <;> simp [labelsOf, h]

theorem compoundsOf_push (nodes : Array (Node Nat)) (n : Node Nat) :
    compoundsOf (nodes.push n) =
      compoundsOf nodes ++ if n.isLeaf then [] else [nodes.size] := by
  have hold : ∀ i ∈ List.range nodes.size, (nodes.push n)[i]? = nodes[i]? := by
    intro i hi
    have hlt := List.mem_range.1 hi
    rw [Array.getElem?_push_lt hlt, Array.getElem?_eq_getElem hlt]
  rw [compoundsOf, Array.size_push, List.range_succ, List.filter_append, compoundsOf,
    List.filter_congr fun i hi => by rw [hold i hi]]
  cases hn : n.isLeaf <;> simp [hn]

theorem mem_labelsOf {nodes : Array (Node Nat)} {label : String} :
    label ∈ labelsOf nodes ↔ ∃ i : Nat, nodes[i]? = some (.var label) := by
  have hvar : ∀ n : Node Nat, n.label? = some label ↔ n = .var label := by
    rintro (_ | _ | _ | _) <;> simp [Node.label?]
  simp only [labelsOf, List.mem_filterMap, hvar, exists_eq_right]
  simp only [List.mem_iff_getElem?, Array.getElem?_toList]

/-! ## The slots that a layout fills -/

/-- The slots filled and the root refer to each new node, and beyond that to variables only. -/
theorem Lays.slots_perm {nodes nodes' : Array (Node Nat)} {f : Formula} {r : Nat}
    (h : Lays nodes f nodes' r) :
    ∃ k shared, nodes'.size = nodes.size + k ∧
      (r :: slots nodes').Perm (shared ++ List.range' nodes.size k ++ slots nodes) ∧
      ∀ i ∈ shared, ∃ label, nodes'[i]? = some (.var label) := by
  induction h with
  | @constant nodes b =>
    refine ⟨1, [], by simp, ?_, nofun⟩
    rw [slots_push]
    simp [Node.children]
  | @known nodes label i hi =>
    exact ⟨0, [i], rfl, by simp, by simpa using ⟨label, hi⟩⟩
  | @new nodes label =>
    refine ⟨1, [], by simp, ?_, nofun⟩
    rw [slots_push]
    simp [Node.children]
  | @negation nodes f nodes' c hf ih =>
    obtain ⟨k, shared, hsize, hperm, hshared⟩ := ih
    refine ⟨k + 1, shared, by rw [Array.size_push, hsize, Nat.add_assoc], ?_, ?_⟩
    · rw [slots_push, List.range'_1_concat, ← hsize]
      refine List.perm_iff_count.2 fun i => ?_
      have hcount := hperm.count_eq i
      simp only [Node.children, List.count_append, List.count_cons, List.count_nil] at hcount ⊢
      omega
    · intro i hi
      obtain ⟨label, hl⟩ := hshared i hi
      exact ⟨label, Extends.push _ _ _ _ hl⟩
  | @binary nodes left n₁ before right n₂ after op hl hr ihl ihr =>
    obtain ⟨k, shared, hsize, hperm, hshared⟩ := ihl
    obtain ⟨k', shared', hsize', hperm', hshared'⟩ := ihr
    refine ⟨k + k' + 1, shared ++ shared', by rw [Array.size_push]; omega, ?_, ?_⟩
    · have hnew : List.range' nodes.size (k + k' + 1) =
          List.range' nodes.size k ++ List.range' n₁.size k' ++ [n₂.size] := by
        rw [List.range'_1_concat, hsize', hsize, ← List.range'_append_1, Nat.add_assoc]
      rw [slots_push, hnew]
      refine List.perm_iff_count.2 fun i => ?_
      have hcount := hperm.count_eq i
      have hcount' := hperm'.count_eq i
      simp only [Node.children, List.count_append, List.count_cons, List.count_nil]
        at hcount hcount' ⊢
      omega
    · intro i hi
      rcases List.mem_append.1 hi with hi | hi
      · obtain ⟨label, hl⟩ := hshared i hi
        exact ⟨label, Extends.push _ _ _ _ (hr.extends _ _ hl)⟩
      · obtain ⟨label, hl⟩ := hshared' i hi
        exact ⟨label, Extends.push _ _ _ _ hl⟩

/-! ## The variables and the number of nodes of a layout -/

/-- The labels come in the order in which they occur first. -/
theorem Lays.labelsOf_eq {nodes nodes' : Array (Node Nat)} {f : Formula} {r : Nat}
    (h : Lays nodes f nodes' r) {labels : List String} (hl : labelsOf nodes = labels.eraseDups) :
    labelsOf nodes' = (labels ++ f.labels).eraseDups := by
  induction h generalizing labels with
  | constant => simp [labelsOf_push, Node.label?, Formula.labels, hl]
  | @known nodes label i hi =>
    have hmem : label ∈ labels := by
      rw [← List.mem_eraseDups, ← hl]
      exact mem_labelsOf.2 ⟨i, hi⟩
    simp [Formula.labels, List.eraseDups_append, List.removeAll, hmem, hl]
  | @new nodes label hnew =>
    have hmem : label ∉ labels := by
      rw [← List.mem_eraseDups, ← hl]
      intro hmem
      obtain ⟨i, hi⟩ := mem_labelsOf.1 hmem
      exact hnew i hi
    have hlast : [label].eraseDups = [label] := by simp [List.eraseDups_cons]
    simp [labelsOf_push, Node.label?, Formula.labels, List.eraseDups_append, List.removeAll, hmem,
      hl, hlast]
  | negation _ ih => simp [labelsOf_push, Node.label?, Formula.labels, ih hl]
  | binary _ _ ihl ihr =>
    simp [labelsOf_push, Node.label?, Formula.labels, ihr (ihl hl)]

/-- A layout adds a node for each new label and for each place that is not a variable. -/
theorem Lays.size_eq {nodes nodes' : Array (Node Nat)} {f : Formula} {r : Nat}
    (h : Lays nodes f nodes' r) :
    nodes'.size + (labelsOf nodes).length =
      nodes.size + (labelsOf nodes').length + f.operations := by
  induction h with
  | known => rfl
  | constant =>
    simp only [labelsOf_push, Node.label?, Formula.operations, Array.size_push, Option.toList_none,
      List.append_nil]
    omega
  | new =>
    simp only [labelsOf_push, Node.label?, Formula.operations, Array.size_push, Option.toList_some,
      List.length_append, List.length_singleton]
    omega
  | negation _ ih =>
    simp only [labelsOf_push, Node.label?, Formula.operations, Array.size_push, Option.toList_none,
      List.append_nil]
    omega
  | binary _ _ ihl ihr =>
    simp only [labelsOf_push, Node.label?, Formula.operations, Array.size_push, Option.toList_none,
      List.append_nil]
    omega

/-- The root is the last node, unless it is a variable that was there before. -/
theorem Lays.root_eq {nodes nodes' : Array (Node Nat)} {f : Formula} {r : Nat}
    (h : Lays nodes f nodes' r) : r + 1 = nodes'.size ∨ ∃ label, nodes[r]? = some (.var label) := by
  cases h with
  | known hi => exact .inr ⟨_, hi⟩
  | constant | new | negation | binary =>
    left
    rw [Array.size_push]

/-! ## The compound parts of a layout -/

/-- The compound nodes that a layout adds stand for the compound parts of the formula, in
order. -/
theorem Lays.compounds {nodes nodes' : Array (Node Nat)} {f : Formula} {r : Nat}
    (h : Lays nodes f nodes' r) :
    ∃ added, compoundsOf nodes' = compoundsOf nodes ++ added ∧
      List.Forall₂ (Unfolds nodes') added f.compounds := by
  induction h with
  | constant | new => exact ⟨[], by simp [compoundsOf_push, Node.isLeaf], .nil⟩
  | known => exact ⟨[], by simp, .nil⟩
  | @negation nodes f nodes' c hf ih =>
    obtain ⟨added, hadded, hparts⟩ := ih
    refine ⟨added ++ [nodes'.size], ?_, ?_⟩
    · simp [compoundsOf_push, Node.isLeaf, hadded]
    · refine List.rel_append (hparts.imp fun _ _ hu => hu.mono (.push _ _)) ?_
      exact .cons (Lays.negation hf).unfolds .nil
  | @binary nodes left n₁ before right n₂ after op hl hr ihl ihr =>
    obtain ⟨added, hadded, hparts⟩ := ihl
    obtain ⟨added', hadded', hparts'⟩ := ihr
    refine ⟨added ++ added' ++ [n₂.size], ?_, ?_⟩
    · simp [compoundsOf_push, Node.isLeaf, hadded', hadded]
    · refine List.rel_append (List.rel_append ?_ ?_) ?_
      · exact hparts.imp fun _ _ hu => hu.mono (hr.extends.trans (.push _ _))
      · exact hparts'.imp fun _ _ hu => hu.mono (.push _ _)
      · exact .cons (Lays.binary hl hr).unfolds .nil

end Propositional
