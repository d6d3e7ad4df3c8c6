import Mathlib.Data.List.Count
import Mathlib.Data.List.Nodup
import Propositional.Proofs.Grammar.Acceptance
import Propositional.Proofs.Graph.Occupancy

/-!
# Structure of expressions

The graph of an expression that was read holds the formula and nothing else: the root is the
last node and everything hangs below it, only variables are shared, and the compound nodes are
the compound parts of the formula in order.
-/

namespace Propositional

open Grammar

/-! ## Nodes of a graph as a list -/

namespace Graph

variable {g : Graph}

/-- All operand slots of the nodes of a graph, by the node that each refers to. -/
def slots (g : Graph) : List g.Id :=
  g.ids.flatMap fun p => (g.node p).children

theorem map_entry_ids (g : Graph) : g.ids.map g.entry = g.nodes.toList := by
  apply List.ext_getElem
  · simp [ids]
  · intro i _ _
    simp [ids, entry]

theorem map_val_ids (g : Graph) : g.ids.map Fin.val = List.range g.size :=
  List.map_coe_finRange_eq_range

theorem map_val_children (g : Graph) (i : g.Id) :
    (g.node i).children.map Fin.val = (g.entry i).children := by
  rw [← Node.children_map, g.map_val_node]

theorem map_val_slots (g : Graph) : g.slots.map Fin.val = Propositional.slots g.nodes := by
  rw [Propositional.slots, ← g.map_entry_ids, List.flatMap_map, slots, List.map_flatMap]
  simp only [map_val_children]

theorem isLeaf_node (g : Graph) (i : g.Id) : (g.node i).isLeaf = (g.entry i).isLeaf := by
  rw [← g.map_val_node i]
  cases g.node i <;> rfl

theorem map_val_compounds (g : Graph) : g.compounds.map Fin.val = compoundsOf g.nodes := by
  rw [compoundsOf, ← map_val_ids, List.filter_map, compounds]
  congr 1
  refine List.filter_congr fun i _ => ?_
  simp [g.isLeaf_node, entry]

theorem mem_compounds {i : g.Id} : i ∈ g.compounds ↔ (g.node i).isLeaf = false := by
  simp [compounds, ids]

/-- Nodes only reach nodes before them. -/
theorem Reaches.le {i j : g.Id} (h : g.Reaches i j) : j ≤ i := by
  induction h with
  | refl => exact Nat.le_refl _
  | tail _ hc ih => exact Nat.le_trans (Nat.le_of_lt (lt_of_mem_children hc)) ih

theorem part_of_mem_children {i c : g.Id} (hc : c ∈ (g.node i).children) :
    Formula.Part (g.formula c) (g.formula i) := by
  rw [g.formula_eq i]
  cases hn : g.node i with
  | constant | var => simp [hn, Node.children] at hc
  | negation d =>
    obtain rfl : c = d := by simpa [hn, Node.children] using hc
    exact .negation .refl
  | binary op lhs rhs =>
    obtain rfl | rfl : c = lhs ∨ c = rhs := by simpa [hn, Node.children] using hc
    · exact .right .refl
    · exact .left .refl

/-- The nodes below a node stand for parts of its formula. -/
theorem Reaches.part {i j : g.Id} (h : g.Reaches i j) :
    Formula.Part (g.formula j) (g.formula i) := by
  induction h with
  | refl => exact .refl
  | tail _ hc ih => exact (part_of_mem_children hc).trans ih

theorem compounds_pairwise_lt (g : Graph) : g.compounds.Pairwise (· < ·) :=
  (List.pairwise_lt_finRange g.size).filter _

/-- In the order of creation no node comes before one below it. -/
theorem compounds_pairwise_not_reaches (g : Graph) :
    g.compounds.Pairwise fun i j => ¬ g.Reaches i j :=
  g.compounds_pairwise_lt.imp fun hlt hreach => absurd hreach.le (Nat.not_le.2 hlt)

/-- A compound node that no other one comes after is the last one listed. -/
theorem getLast?_compounds {i : g.Id} (hi : (g.node i).isLeaf = false) (hlast : ∀ j, j ≤ i) :
    g.compounds.getLast? = some i := by
  obtain ⟨before, after, hsplit⟩ := List.append_of_mem (mem_compounds.2 hi)
  have hafter : after = [] := by
    rw [List.eq_nil_iff_forall_not_mem]
    intro j hj
    have hpairs := g.compounds_pairwise_lt
    rw [hsplit, List.pairwise_append, List.pairwise_cons] at hpairs
    exact absurd (hpairs.2.1.1 j hj) (Nat.not_lt.2 (hlast j))
  rw [hsplit, hafter, List.getLast?_concat]

/-- The labels of the variables in order. -/
theorem map_label_vars (g : Graph) : g.vars.map (·.label) = labelsOf g.nodes := by
  rw [labelsOf, ← g.map_entry_ids, List.filterMap_map, vars, List.map_filterMap]
  refine List.filterMap_congr fun i _ => ?_
  unfold asVariable?
  split
  next label hi => simp [hi, Node.label?]
  next hne =>
    cases hi : g.entry i <;> simp_all [Node.label?]

/-- The numbers of the variables in order. -/
theorem map_val_vars (g : Graph) : g.vars.map (·.id.val) = variablesOf g.nodes := by
  rw [variablesOf, ← map_val_ids, List.filter_map, ← List.filterMap_eq_filter, List.map_filterMap,
    vars, List.map_filterMap]
  refine List.filterMap_congr fun i _ => ?_
  simp only [Function.comp_apply, g.getElem?_nodes, Option.any_some]
  unfold asVariable?
  split
  next label hi => simp [hi, Node.label?, Option.guard]
  next hne => cases hi : g.entry i <;> simp_all [Node.label?, Option.guard]

end Graph

/-! ## The graph of a formula -/

namespace Expression

theorem lays_ofFormula (f : Formula) :
    Lays #[] f (ofFormula f).graph.nodes (ofFormula f).root :=
  Graph.lays_add .empty f

/-- The labels of an expression are those of its formula, without repetitions. -/
theorem labels_ofFormula (f : Formula) : (ofFormula f).labels = f.labels.eraseDups := by
  have hlabels : labelsOf (ofFormula f).graph.nodes = ([] ++ f.labels).eraseDups :=
    (lays_ofFormula f).labelsOf_eq rfl
  rw [labels, vars, Graph.map_label_vars, hlabels, List.nil_append]

theorem mem_labels_ofFormula {f : Formula} {label : String} :
    label ∈ (ofFormula f).labels ↔ label ∈ f.labels := by
  rw [labels_ofFormula, List.mem_eraseDups]

theorem size_ofFormula (f : Formula) :
    (ofFormula f).graph.size = f.labels.eraseDups.length + f.operations := by
  have hsize := (lays_ofFormula f).size_eq
  rw [← Graph.map_label_vars] at hsize
  rw [← labels_ofFormula, labels, vars]
  simpa [labelsOf] using hsize

theorem root_ofFormula (f : Formula) : (ofFormula f).root.val + 1 = (ofFormula f).graph.size := by
  rcases (lays_ofFormula f).root_eq with h | ⟨label, h⟩
  · exact h
  · simp at h

theorem slots_perm_ofFormula (f : Formula) :
    ∃ shared, ((ofFormula f).root.val :: slots (ofFormula f).graph.nodes).Perm
        (shared ++ List.range (ofFormula f).graph.size) ∧
      ∀ i ∈ shared, ∃ label, (ofFormula f).graph.nodes[i]? = some (.var label) := by
  obtain ⟨k, shared, hsize, hperm, hshared⟩ := (lays_ofFormula f).slots_perm
  obtain rfl : (ofFormula f).graph.size = k := by simpa using hsize
  exact ⟨shared, by simpa [slots, List.range_eq_range'] using hperm, hshared⟩

/-- Every node but the root is an operand of a node. -/
theorem exists_parent {f : Formula} {i : (ofFormula f).graph.Id} (hi : i ≠ (ofFormula f).root) :
    ∃ p, i ∈ ((ofFormula f).graph.node p).children := by
  obtain ⟨shared, hperm, _⟩ := slots_perm_ofFormula f
  have hmem : i.val ∈ (ofFormula f).root.val :: slots (ofFormula f).graph.nodes :=
    hperm.mem_iff.2 (List.mem_append_right _ (List.mem_range.2 i.isLt))
  rw [List.mem_cons, ← Graph.map_val_slots, List.mem_map] at hmem
  rcases hmem with hroot | ⟨j, hj, hval⟩
  · exact absurd (Fin.ext hroot) hi
  · obtain rfl : j = i := Fin.ext hval
    obtain ⟨p, _, hp⟩ := List.mem_flatMap.1 hj
    exact ⟨p, hp⟩

/-- All nodes hang below the root. -/
theorem reaches_root (f : Formula) (i : (ofFormula f).graph.Id) :
    (ofFormula f).graph.Reaches (ofFormula f).root i := by
  by_cases hi : i = (ofFormula f).root
  · rw [hi]
    exact .refl _
  · obtain ⟨p, hp⟩ := exists_parent hi
    have hlt : i.val < p.val := Graph.lt_of_mem_children hp
    exact (reaches_root f p).tail hp
termination_by (ofFormula f).graph.size - i.val
decreasing_by omega

/-- Every node stands for a part of the formula. -/
theorem part_formula (f : Formula) (i : (ofFormula f).graph.Id) :
    Formula.Part ((ofFormula f).graph.formula i) f := by
  have hpart := (reaches_root f i).part
  rwa [formula_root] at hpart

/-- Only variables are shared. -/
theorem count_slots {f : Formula} {i : (ofFormula f).graph.Id} (hi : i ≠ (ofFormula f).root)
    (hvar : ∀ label, (ofFormula f).graph.node i ≠ .var label) :
    (ofFormula f).graph.slots.count i = 1 := by
  obtain ⟨shared, hperm, hshared⟩ := slots_perm_ofFormula f
  have hunshared : i.val ∉ shared := by
    intro hmem
    obtain ⟨label, hl⟩ := hshared _ hmem
    rw [Graph.getElem?_nodes] at hl
    exact hvar label (Graph.node_of_entry_var (Option.some.inj hl))
  have hcount := hperm.count_eq i.val
  rw [List.count_cons_of_ne (fun h => hi (Fin.ext h.symm)), List.count_append,
    List.count_eq_zero.2 hunshared, ← Graph.map_val_slots,
    List.count_map_of_injective _ _ (fun _ _ => Fin.ext),
    List.count_eq_one_of_mem List.nodup_range (List.mem_range.2 i.isLt)] at hcount
  rw [hcount]

/-- The compound nodes stand for the compound parts of the formula. -/
theorem map_formula_subexpressions (f : Formula) :
    (ofFormula f).subexpressions.map (ofFormula f).graph.formula = f.compounds := by
  obtain ⟨added, hadded, hparts⟩ := (lays_ofFormula f).compounds
  rw [show compoundsOf #[] = [] from rfl, List.nil_append, ← Graph.map_val_compounds] at hadded
  rw [← hadded, List.forall₂_map_left_iff] at hparts
  rw [← List.forall₂_eq_eq_eq, List.forall₂_map_left_iff]
  exact hparts.imp fun _ _ hu => Graph.formula_eq_of_unfolds hu

/-- The graph of an expression that was read: operands come before what they are operands of,
the root comes last, everything hangs below it, and all nodes but variables and the root fill
exactly one operand slot. There is one node for each label and one for each symbol that is
neither a variable nor a parenthesis. So the compound nodes are the compound places of the
formula derived, none of them comes before one below it, and a compound root is the last. -/
theorem ofSymbols_structure {s : List Symbol} {e : Expression} (h : ofSymbols s = .ok e) :
    (∀ i, ∀ c ∈ (e.graph.node i).children, c < i) ∧
    e.root.val + 1 = e.graph.size ∧
    (∀ i, e.graph.Reaches e.root i) ∧
    (∀ i, i ≠ e.root → (∀ label, e.graph.node i ≠ .var label) → e.graph.slots.count i = 1) ∧
    e.graph.size =
      (s.filterMap Symbol.label?).eraseDups.length + s.countP (·.token.isOperation) ∧
    (∃ f d, Derives .disjunction s f d ∧ Unfolds e.graph.nodes e.root f ∧
      e.subexpressions.map e.graph.formula = f.compounds) ∧
    e.subexpressions.Pairwise (fun i j => ¬ e.graph.Reaches i j) ∧
    ((e.graph.node e.root).isLeaf = false → e.subexpressions.getLast? = some e.root) := by
  obtain ⟨f, hf, rfl⟩ := ofSymbols_eq_ok h
  obtain ⟨d, hd, _⟩ := Formula.derives_of_ofSymbols hf
  refine ⟨fun i c hc => Graph.lt_of_mem_children hc, root_ofFormula f, reaches_root f,
    fun i hi hvar => count_slots hi hvar, ?_, ?_, Graph.compounds_pairwise_not_reaches _, ?_⟩
  · rw [hd.labels_eq, hd.operations_eq]
    exact size_ofFormula f
  · exact ⟨f, d, hd, unfolds_root f, map_formula_subexpressions f⟩
  · intro hroot
    exact Graph.getLast?_compounds hroot fun j => (reaches_root f j).le

/-- In `~A ∧ (A ∨ 1)` the variable fills two slots. -/
theorem ofSymbols_structure_shared :
    let s : List Symbol := [⟨.not, "~"⟩, ⟨.var, "A"⟩, ⟨.and, "∧"⟩, ⟨.openParen, "("⟩,
      ⟨.var, "A"⟩, ⟨.or, "∨"⟩, ⟨.constTrue, "1"⟩, ⟨.closeParen, ")"⟩]
    ∃ e, ofSymbols s = .ok e ∧ e.graph.size = 5 ∧ e.root.val = 4 := by
  intro s
  have h : ofSymbols s = .ok (ofFormula (.binary .and (.negation (.var "A"))
      (.binary .or (.var "A") (.constant true)))) := rfl
  obtain ⟨_, hroot, _, _, hsize, _⟩ := ofSymbols_structure h
  have hfive :
      (s.filterMap Symbol.label?).eraseDups.length + s.countP (·.token.isOperation) = 5 := by
    decide +kernel
  refine ⟨_, h, hsize.trans hfive, ?_⟩
  omega

end Expression

end Propositional
