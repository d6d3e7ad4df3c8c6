import Propositional.Proofs.Network.Access
import Propositional.Proofs.Table.Iteration

/-!
# Validation

Which requests for a table are refused, and why: a request is checked in a fixed order, each list
from its first entry on. Nothing can go wrong after that. All numbers that come up while header and
rows are made are those of nodes that are there, only variables are set, and no word is shifted by
its whole width.
-/

namespace Propositional

/-! ## First faults -/

/-- The first entry of a list that `P` does not hold of. -/
def FirstWithout (P : Nat → Prop) (indices : List Nat) (i : Nat) : Prop :=
  ∃ before after, indices = before ++ i :: after ∧ (∀ j ∈ before, P j) ∧ ¬ P i

section

variable {P : Nat → Prop} {indices : List Nat} {i j : Nat}

theorem firstWithout_cons :
    FirstWithout P (j :: indices) i ↔ (¬ P j ∧ j = i) ∨ (P j ∧ FirstWithout P indices i) := by
  constructor
  · rintro ⟨_ | ⟨k, before⟩, after, heq, hbefore, hi⟩
    · obtain ⟨rfl, _⟩ := List.cons.inj heq
      exact .inl ⟨hi, rfl⟩
    · obtain ⟨rfl, hindices⟩ := List.cons.inj heq
      obtain ⟨hk, hbefore⟩ := List.forall_mem_cons.1 hbefore
      exact .inr ⟨hk, before, after, hindices, hbefore, hi⟩
  · rintro (⟨hj, rfl⟩ | ⟨hj, before, after, rfl, hbefore, hi⟩)
    · exact ⟨[], indices, rfl, nofun, hj⟩
    · exact ⟨j :: before, after, rfl, List.forall_mem_cons.2 ⟨hj, hbefore⟩, hi⟩

theorem forall_or_firstWithout (P : Nat → Prop) (indices : List Nat) :
    (∀ j ∈ indices, P j) ∨ ∃ i, FirstWithout P indices i := by
  induction indices with
  | nil => exact .inl nofun
  | cons j indices ih =>
    by_cases hj : P j
    · refine ih.imp (fun hall => List.forall_mem_cons.2 ⟨hj, hall⟩) fun ⟨i, hi⟩ => ?_
      exact ⟨i, firstWithout_cons.2 (.inr ⟨hj, hi⟩)⟩
    · exact .inr ⟨j, firstWithout_cons.2 (.inl ⟨hj, rfl⟩)⟩

theorem FirstWithout.not_forall (h : FirstWithout P indices i) : ¬ ∀ j ∈ indices, P j := by
  obtain ⟨before, after, rfl, _, hi⟩ := h
  exact fun hall => hi (hall i (by simp))

/-- What is not resolved is reported by the first number that names nothing. -/
theorem resolve_eq_error {α : Type} {name? : Nat → Option α} :
    resolve name? indices = .error i ↔ FirstWithout (fun j => ∃ a, name? j = some a) indices i := by
  induction indices with
  | nil =>
    refine ⟨nofun, fun ⟨before, after, heq, _⟩ => ?_⟩
    simp at heq
  | cons j indices ih =>
    rw [firstWithout_cons, ← ih, resolve]
    cases hj : name? j with
    | none => simp
    | some a => simp [map_eq_error]

end

/-! ## The order of the checks -/

/-- The node of a number is there and is a variable. -/
def Graph.IsVariable (g : Graph) (index : Nat) : Prop :=
  ∃ label, g.nodes[index]? = some (.var label)

namespace Tabulation

variable {t : Tabulation} {e : Expression} {i : Nat}

theorem resolve_vars_eq_error :
    resolve (fun i => (e.graph.variableAt? i).toOption) t.vars = .error i ↔
      FirstWithout e.graph.IsVariable t.vars i := by
  simp only [resolve_eq_error, toOption_eq_some, Graph.variableAt?_eq_ok, Graph.exists_variable]
  rfl

theorem resolve_nodes_eq_error :
    resolve (fun i => (e.graph.idAt? i).toOption) t.nodes = .error i ↔
      FirstWithout (· < e.graph.size) t.nodes i := by
  simp only [resolve_eq_error, toOption_eq_some, Graph.idAt?_eq_ok, Fin.exists_iff, exists_prop,
    exists_eq_right]

theorem rows_of_limit_lt (h : t.limit < t.vars.length) :
    t.rows e = .error (.tooManyVariables t.vars.length t.limit) := by
  unfold rows
  rw [dif_pos h]

theorem rows_of_notVariable (hn : t.vars.length ≤ t.limit)
    (h : FirstWithout e.graph.IsVariable t.vars i) :
    t.rows e = .error (.input (.notVariable i)) := by
  have hvars := resolve_vars_eq_error.2 h
  unfold rows
  rw [dif_neg (Nat.not_lt.2 hn)]
  split
  next j hj =>
    obtain rfl : i = j := by simpa [hvars] using hj
    rfl
  next hvars' => simp [hvars] at hvars'

theorem rows_of_foreignNode (hn : t.vars.length ≤ t.limit)
    (hvars : ∀ j ∈ t.vars, e.graph.IsVariable j) (h : FirstWithout (· < e.graph.size) t.nodes i) :
    t.rows e = .error (.input (.foreignNode i)) := by
  have hnodes := resolve_nodes_eq_error.2 h
  unfold rows
  rw [dif_neg (Nat.not_lt.2 hn)]
  split
  next j hj => exact absurd hvars (resolve_vars_eq_error.1 hj).not_forall
  next => rw [hnodes]

/-- What can come of a request. -/
theorem rows_cases (t : Tabulation) (e : Expression) :
    (t.limit < t.vars.length ∧ t.rows e = .error (.tooManyVariables t.vars.length t.limit)) ∨
    (t.vars.length ≤ t.limit ∧ ∃ i, FirstWithout e.graph.IsVariable t.vars i ∧
      t.rows e = .error (.input (.notVariable i))) ∨
    (t.vars.length ≤ t.limit ∧ (∀ j ∈ t.vars, e.graph.IsVariable j) ∧
      ∃ i, FirstWithout (· < e.graph.size) t.nodes i ∧
        t.rows e = .error (.input (.foreignNode i))) ∨
    (t.vars.length ≤ t.limit ∧ (∀ j ∈ t.vars, e.graph.IsVariable j) ∧
      (∀ j ∈ t.nodes, j < e.graph.size) ∧ ∃ rows, t.rows e = .ok rows) := by
  rcases Nat.lt_or_ge t.limit t.vars.length with hn | hn
  · exact .inl ⟨hn, rows_of_limit_lt hn⟩
  · rcases forall_or_firstWithout e.graph.IsVariable t.vars with hvars | ⟨i, hi⟩
    · rcases forall_or_firstWithout (· < e.graph.size) t.nodes with hnodes | ⟨i, hi⟩
      · have hrows := exists_rows hn (fun j hj => Graph.exists_variable.2 (hvars j hj)) hnodes
        exact .inr (.inr (.inr ⟨hn, hvars, hnodes, hrows⟩))
      · exact .inr (.inr (.inl ⟨hn, hvars, i, hi, rows_of_foreignNode hn hvars hi⟩))
    · exact .inr (.inl ⟨hn, i, hi, rows_of_notVariable hn hi⟩)

/-! Of the four cases only the one whose result is at hand is left. -/

theorem rows_eq_tooManyVariables {count limit : Nat} :
    t.rows e = .error (.tooManyVariables count limit) ↔
      t.limit < t.vars.length ∧ count = t.vars.length ∧ limit = t.limit := by
  constructor
  · intro h
    rcases t.rows_cases e with ⟨hn, h'⟩ | ⟨_, _, _, h'⟩ | ⟨_, _, _, _, h'⟩ | ⟨_, _, _, _, h'⟩ <;>
      cases h'.symm.trans h
    exact ⟨hn, rfl, rfl⟩
  · rintro ⟨hn, rfl, rfl⟩
    exact rows_of_limit_lt hn

theorem rows_eq_notVariable :
    t.rows e = .error (.input (.notVariable i)) ↔
      t.vars.length ≤ t.limit ∧ FirstWithout e.graph.IsVariable t.vars i := by
  constructor
  · intro h
    rcases t.rows_cases e with ⟨_, h'⟩ | ⟨hn, _, hi, h'⟩ | ⟨_, _, _, _, h'⟩ | ⟨_, _, _, _, h'⟩ <;>
      cases h'.symm.trans h
    exact ⟨hn, hi⟩
  · rintro ⟨hn, hi⟩
    exact rows_of_notVariable hn hi

theorem rows_eq_foreignNode :
    t.rows e = .error (.input (.foreignNode i)) ↔
      t.vars.length ≤ t.limit ∧ (∀ j ∈ t.vars, e.graph.IsVariable j) ∧
        FirstWithout (· < e.graph.size) t.nodes i := by
  constructor
  · intro h
    rcases t.rows_cases e with ⟨_, h'⟩ | ⟨_, _, _, h'⟩ | ⟨hn, hv, _, hi, h'⟩ | ⟨_, _, _, _, h'⟩ <;>
      cases h'.symm.trans h
    exact ⟨hn, hv, hi⟩
  · rintro ⟨hn, hv, hi⟩
    exact rows_of_foreignNode hn hv hi

theorem exists_rows_iff :
    (∃ rows, t.rows e = .ok rows) ↔
      t.vars.length ≤ t.limit ∧ (∀ j ∈ t.vars, e.graph.IsVariable j) ∧
        ∀ j ∈ t.nodes, j < e.graph.size := by
  constructor
  · rintro ⟨rows, h⟩
    rcases t.rows_cases e with ⟨_, h'⟩ | ⟨_, _, _, h'⟩ | ⟨_, _, _, _, h'⟩ | ⟨hn, hv, hi, _, h'⟩ <;>
      cases h'.symm.trans h
    exact ⟨hn, hv, hi⟩
  · rintro ⟨hn, hv, hi⟩
    exact exists_rows hn (fun j hj => Graph.exists_variable.2 (hv j hj)) hi

end Tabulation

/-! ## Rows made by number -/

/-- The bits that a word has `n - 1`, …, 0 places from its end, each shifted out by less than the
width of the word. -/
structure ShiftsOut (r : UInt64) (n : Nat) (bits : List Bool) : Prop where
  length : bits.length = n
  shift_lt : ∀ k < n, n - 1 - k < 64
  bit : ∀ k < n, bits[k]? = some ((r >>> (n - 1 - k).toUInt64) &&& 1 == 1)

/-- The row with number `r` is made: its bits are written to the variables that a request lists,
then the nodes are evaluated. -/
inductive MakesRow (nodes : Array (Node Nat)) (t : Tabulation) (r : UInt64)
    (cells : Array (Option Bool)) : Except Unassigned Row → Array (Option Bool) → Prop where
  | row {bits cells' values} :
      ShiftsOut r t.vars.length bits → Sets nodes cells (t.vars.zip bits) cells' →
      EvaluatesAll nodes cells' t.nodes values →
      MakesRow nodes t r cells (values.map (bits ++ ·)) cells'

namespace Rows

variable {g : Graph} {rows rows' : Rows g} {row : Except Unassigned Row} {t : Tabulation}

theorem shiftsOut_rowBits (r : UInt64) {n : Nat} (h : n ≤ 64) : ShiftsOut r n (rowBits r n) where
  length := by rw [rowBits_eq r h, length_binary]
  shift_lt k hk := by omega
  bit k hk := getElem?_rowBits r h hk

/-- Every row that is taken is made by number. -/
theorem makesRow (hvars : rows.vars.map (·.id.val) = t.vars)
    (hnodes : rows.nodes.map (·.val) = t.nodes) (h : rows.next? = some (row, rows')) :
    MakesRow g.nodes t rows.position rows.values.cells.toArray row
      rows'.values.cells.toArray := by
  unfold next? at h
  split at h
  · cases h
  · cases h
    have hlength : rows.vars.length = t.vars.length := by rw [← hvars, List.length_map]
    have hbits : ShiftsOut rows.position t.vars.length
        (rowBits rows.position rows.vars.length) := by
      rw [← hlength]
      exact shiftsOut_rowBits _ (Nat.le_of_lt rows.few)
    have hsets := rows.values.sets rows.vars (rowBits rows.position rows.vars.length)
    have hvalues := g.evaluatesAll (rows.assign rows.position) rows.nodes
    rw [hvars] at hsets
    rw [hnodes] at hvalues
    exact .row hbits hsets hvalues

theorem position_of_next?_none (h : rows.next? = none) : rows.position = rows.total := by
  unfold next? at h
  split at h
  next heq => exact heq
  next => cases h

/-- Every text of the header is that of a formula which is found by number. -/
theorem header_unfolds (hvars : rows.vars.map (·.id.val) = t.vars)
    (hnodes : rows.nodes.map (·.val) = t.nodes) :
    List.Forall₂ (fun i text => ∃ f, Unfolds g.nodes i f ∧ f.render = text) (t.vars ++ t.nodes)
      rows.header := by
  have hcolumns : t.vars ++ t.nodes = (rows.vars.map (·.id) ++ rows.nodes).map (·.val) := by
    rw [List.map_append, List.map_map, ← hvars, ← hnodes]
    rfl
  rw [hcolumns, header, List.forall₂_map_left_iff, List.forall₂_map_right_iff,
    List.forall₂_same]
  exact fun i _ => ⟨g.formula i, g.unfolds_formula i, rfl⟩

end Rows

namespace Tabulation

/-- A request is refused because it lists too many variables; if not, because of the first entry
among them that is no variable; if not, because of the first node that is not there; and it is
accepted if there is no such reason. When it is accepted, header and rows are made without naming a
node that is not there, setting anything but a variable, or shifting a word by its width, whatever
rows have been taken before; and no row is missing. -/
theorem rows_validates (t : Tabulation) (e : Expression) :
    (∀ count limit, t.rows e = .error (.tooManyVariables count limit) ↔
      min t.maxVars 63 < t.vars.length ∧ count = t.vars.length ∧ limit = min t.maxVars 63) ∧
    (∀ i, t.rows e = .error (.input (.notVariable i)) ↔
      t.vars.length ≤ min t.maxVars 63 ∧ FirstWithout e.graph.IsVariable t.vars i) ∧
    (∀ i, t.rows e = .error (.input (.foreignNode i)) ↔
      t.vars.length ≤ min t.maxVars 63 ∧ (∀ j ∈ t.vars, e.graph.IsVariable j) ∧
        FirstWithout (· < e.graph.size) t.nodes i) ∧
    ((∃ rows, t.rows e = .ok rows) ↔
      t.vars.length ≤ min t.maxVars 63 ∧ (∀ j ∈ t.vars, e.graph.IsVariable j) ∧
        ∀ j ∈ t.nodes, j < e.graph.size) ∧
    ∀ rows, t.rows e = .ok rows →
      List.Forall₂ (fun i text => ∃ f, Unfolds e.graph.nodes i f ∧ f.render = text)
        (t.vars ++ t.nodes) rows.header ∧
      t.vars.length < 64 ∧ rows.total.toNat = 2 ^ t.vars.length ∧
      ∀ calls, ((rows.run calls).2.next? = none ∧ (rows.run calls).2.position = rows.total) ∨
        ∃ row rows', (rows.run calls).2.next? = some (row, rows') ∧
          MakesRow e.graph.nodes t (rows.run calls).2.position
            (rows.run calls).2.values.cells.toArray row rows'.values.cells.toArray := by
  refine ⟨fun _ _ => rows_eq_tooManyVariables, fun _ => rows_eq_notVariable,
    fun _ => rows_eq_foreignNode, exists_rows_iff, fun rows h => ?_⟩
  obtain ⟨hvars, hnodes, _, hposition⟩ := rows_eq_ok h
  have hlength := length_vars_of_rows h
  refine ⟨Rows.header_unfolds hvars hnodes, hlength ▸ rows.few, ?_, fun calls => ?_⟩
  · rw [rows.toNat_total, hlength]
  · -- the lists of the request are still those of the rows after any calls
    have htaken := ((Rows.taken_zero hposition).run calls).2
    cases hnext : (rows.run calls).2.next? with
    | none =>
      refine .inl ⟨rfl, (Rows.position_of_next?_none hnext).trans ?_⟩
      rw [Rows.total, htaken.vars, ← Rows.total]
    | some next =>
      refine .inr ⟨_, _, rfl, ?_⟩
      refine Rows.makesRow ?_ ?_ hnext
      · rw [htaken.vars, hvars]
      · rw [htaken.nodes, hnodes]

end Tabulation

end Propositional
