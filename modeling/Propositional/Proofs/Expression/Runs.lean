import Propositional.Proofs.Grammar.Acceptance
import Propositional.Proofs.Graph.Variables
import Propositional.Proofs.Network.Evaluation

/-!
# Runs

Sequences of actions on the values of an expression, and what they come to: a map from
labels to values. The variables of an expression that was read hold what the map gives their
labels, since no label has two of them; so nodes evaluate to what their formulas mean under
the map.
-/

namespace Propositional

open Grammar

/-! ## Actions on an expression -/

inductive Action where
  | assign (label : String) (value : Bool)
  | set (index : Nat) (value : Bool)
  | clear

namespace Expression

/-- The expression after an action. To assign to a label that does not occur changes
nothing; only variables can be set. -/
def perform (e : Expression) : Action → Except Graph.Fault Expression
  | .assign label value => .ok ((e.assign? label value).getD e)
  | .set index value => (e.graph.variableAt? index).map fun x => e.set x value
  | .clear => .ok e.clear

def run (e : Expression) (actions : List Action) : Except Graph.Fault Expression :=
  actions.foldlM perform e

end Expression

/-! ## Actions on a map -/

/-- The map that gives one label a value and the others what they had. -/
def note (m : String → Option Bool) (label : String) (value : Bool) : String → Option Bool :=
  fun l => if l = label then some value else m l

/-- The map after an action on an expression over a graph. -/
def Graph.record (g : Graph) (m : String → Option Bool) : Action → String → Option Bool
  | .assign label value => note m label value
  | .set index value =>
    match g.nodes[index]? with
    | some (.var label) => note m label value
    | _ => m
  | .clear => fun _ => none

/-- The map that a sequence of actions comes to. -/
def Graph.recorded (g : Graph) (actions : List Action) : String → Option Bool :=
  actions.foldl g.record fun _ => none

/-! ## The variables hold what the map says -/

/-- Every variable holds what the map gives its label. -/
def Agrees {g : Graph} (v : Valuation g) (m : String → Option Bool) : Prop :=
  ∀ x : g.Variable, v.get x.id = m x.label

theorem agrees_unset (g : Graph) : Agrees (.unset g) fun _ => none := by
  intro x
  exact Valuation.get_unset _

/-- No label has two variables. -/
theorem Graph.Variable.eq_of_label {g : Graph} (hd : Distinct g.nodes) {x y : g.Variable}
    (h : x.label = y.label) : x = y := by
  have hx := g.getElem?_nodes x.id
  have hy := g.getElem?_nodes y.id
  rw [x.entry_id, h] at hx
  rw [y.entry_id] at hy
  exact eq_of_id (Fin.ext (hd _ _ _ hx hy))

/-- Where no label has two variables, a variable is what its label is looked up as. -/
theorem Graph.find?_eq_some_iff {g : Graph} (hd : Distinct g.nodes) {label : String}
    {x : g.Variable} : g.find? label = some x ↔ x.label = label := by
  refine ⟨label_of_find?, ?_⟩
  rintro rfl
  cases hy : g.find? x.label with
  | none =>
    refine absurd ?_ (find?_eq_none hy x.id)
    rw [g.getElem?_nodes, x.entry_id]
  | some y => rw [Variable.eq_of_label hd (label_of_find? hy)]

/-- To set a variable is to note a value for its label. -/
theorem Agrees.set {g : Graph} {v : Valuation g} {m : String → Option Bool} (h : Agrees v m)
    (hd : Distinct g.nodes) (x : g.Variable) (value : Bool) :
    Agrees (v.set x (some value)) (note m x.label value) := by
  intro y
  have hsame : y.id = x.id ↔ y.label = x.label :=
    ⟨fun hid => congrArg (·.label) (Graph.Variable.eq_of_id hid),
      fun hlabel => congrArg (·.id) (Graph.Variable.eq_of_label hd hlabel)⟩
  simp only [Valuation.get_set, note, hsame, h y]

/-- A value for a label without variable changes nothing. -/
theorem Agrees.note {g : Graph} {v : Valuation g} {m : String → Option Bool} (h : Agrees v m)
    {label : String} (hf : g.find? label = none) (value : Bool) :
    Agrees v (note m label value) := by
  intro x
  have hne : x.label ≠ label := by
    rintro rfl
    refine Graph.find?_eq_none hf x.id ?_
    rw [g.getElem?_nodes, x.entry_id]
  simp only [Propositional.note, hne, if_false, h x]

/-- A node whose variables are all set has the truth value of its formula under a map that
agrees, and the map says something about all labels of the formula. -/
theorem Agrees.evaluate_eq {g : Graph} {v : Valuation g} {m : String → Option Bool}
    (h : Agrees v m) {i : g.Id} {f : Formula} (hf : Unfolds g.nodes i f)
    (hset : ∀ x : g.Variable, g.Reaches i x.id → (v.get x.id).isSome) :
    (∀ label ∈ f.labels, (m label).isSome) ∧
      g.evaluate v i = .ok (f.value fun label => (m label).getD false) := by
  obtain rfl := Graph.formula_eq_of_unfolds hf
  refine ⟨?_, ?_⟩
  · intro label hl
    obtain ⟨x, hx, rfl⟩ := Graph.exists_reachable_of_mem_labels hl
    rw [← h x]
    exact hset x hx
  · refine Graph.evaluate_eq_value fun x hx => ?_
    obtain ⟨b, hb⟩ := Option.isSome_iff_exists.1 (hset x hx)
    rw [hb, ← h x, hb]
    rfl

/-! ## Runs -/

/-- An action that sets no other node than a variable. -/
def Action.Fits (g : Graph) : Action → Prop
  | .set index _ => ∃ label, g.nodes[index]? = some (.var label)
  | .assign _ _ | .clear => True

namespace Expression

section

variable {e : Expression} {label : String} {value : Bool} {x : e.graph.Variable}

theorem perform_assign_of_none (h : e.graph.find? label = none) :
    e.perform (.assign label value) = .ok e := by
  rw [perform, assign?, h]
  rfl

theorem perform_assign_of_some (h : e.graph.find? label = some x) :
    e.perform (.assign label value) = .ok (e.set x value) := by
  rw [perform, assign?, h]
  rfl

theorem perform_set {index : Nat} (h : x.id.val = index) :
    e.perform (.set index value) = .ok (e.set x value) := by
  rw [perform, Graph.variableAt?_eq_ok.2 h]
  rfl

end

/-- One action keeps the agreement. -/
theorem perform_agrees {e : Expression} (hd : Distinct e.graph.nodes) {m : String → Option Bool}
    {v : Valuation e.graph} (h : Agrees v m) {action : Action} (hfits : action.Fits e.graph) :
    ∃ v', (e.withValues v).perform action = .ok (e.withValues v') ∧
      Agrees v' (e.graph.record m action) := by
  cases action with
  | assign label value =>
    cases hf : e.graph.find? label with
    | none => exact ⟨v, perform_assign_of_none hf, h.note hf value⟩
    | some x =>
      obtain rfl : x.label = label := Graph.label_of_find? hf
      exact ⟨v.set x (some value), perform_assign_of_some hf, h.set hd x value⟩
  | set index value =>
    obtain ⟨x, rfl⟩ := Graph.exists_variable.2 hfits
    refine ⟨v.set x (some value), perform_set rfl, ?_⟩
    simp only [Graph.record, e.graph.getElem?_nodes, x.entry_id]
    exact h.set hd x value
  | clear => exact ⟨_, rfl, agrees_unset _⟩

/-- Every sequence of actions keeps the agreement. -/
theorem run_agrees {e : Expression} (hd : Distinct e.graph.nodes) {m : String → Option Bool}
    {v : Valuation e.graph} (h : Agrees v m) {actions : List Action}
    (hfits : ∀ action ∈ actions, action.Fits e.graph) :
    ∃ v', (e.withValues v).run actions = .ok (e.withValues v') ∧
      Agrees v' (actions.foldl e.graph.record m) := by
  induction actions generalizing v m with
  | nil => exact ⟨v, rfl, h⟩
  | cons action actions ih =>
    obtain ⟨v₁, hv₁, h₁⟩ := perform_agrees hd h (hfits action List.mem_cons_self)
    obtain ⟨v₂, hv₂, h₂⟩ := ih h₁ fun a ha => hfits a (List.mem_cons_of_mem _ ha)
    refine ⟨v₂, ?_, h₂⟩
    unfold run
    rw [List.foldlM_cons, hv₁]
    exact hv₂

theorem distinct_ofFormula (f : Formula) : Distinct (ofFormula f).graph.nodes := by
  refine (Graph.lays_add .empty f).distinct ?_
  intro i j label hi
  simp [Graph.empty] at hi

/-- What the values of a node come to after any sequence of actions on an expression that was
read: the truth value of its formula under the map of the sequence. The formula of the root
is the one derived from the text, and chains group to the right. A formula means what its
connective says of its operands; `x ⇒ y` means "`x` or not `y`" and `x ⇐ y` "not `x` or `y`". -/
theorem evaluate_run {text : String} {e : Expression} (he : ofText text = .ok e)
    {actions : List Action} (hfits : ∀ action ∈ actions, action.Fits e.graph) :
    (∃ v, e.run actions = .ok (e.withValues v) ∧ Agrees v (e.graph.recorded actions) ∧
      ∀ (i : e.graph.Id) (f : Formula), Unfolds e.graph.nodes i f →
        (∀ x : e.graph.Variable, e.graph.Reaches i x.id → (v.get x.id).isSome) →
        (∀ label ∈ f.labels, (e.graph.recorded actions label).isSome) ∧
        (e.withValues v).evaluate i =
          .ok (f.value fun label => (e.graph.recorded actions label).getD false)) ∧
    (∃ symbols f d, lex text = .ok symbols ∧ Derives .disjunction symbols f d ∧
      Unfolds e.graph.nodes e.root f) ∧
    (∀ (ρ : String → Bool) (b : Bool) (label : String) (x y : Formula),
      (Formula.constant b).value ρ = b ∧ (Formula.var label).value ρ = ρ label ∧
      (Formula.negation x).value ρ = (!x.value ρ) ∧
      (Formula.binary .and x y).value ρ = (x.value ρ && y.value ρ) ∧
      (Formula.binary .or x y).value ρ = (x.value ρ || y.value ρ) ∧
      ((Formula.binary .xor x y).value ρ ↔ x.value ρ ≠ y.value ρ) ∧
      ((Formula.binary .equiv x y).value ρ ↔ x.value ρ = y.value ρ) ∧
      (Formula.binary .implies x y).value ρ = (x.value ρ || !y.value ρ) ∧
      (Formula.binary .provided x y).value ρ = (!x.value ρ || y.value ρ)) ∧
    (∀ loose s f d links, lex text = .ok (Link.join s links) → Derives (.part loose) s f d →
      (∀ k ∈ links, k.op.isLoose = loose ∧ ∃ d, Derives (.part loose) k.symbols k.formula d) →
      Unfolds e.graph.nodes e.root (Link.group f links)) := by
  obtain ⟨f, hf, rfl⟩ := ofText_eq_ok he
  obtain ⟨symbols, d, hlex, hd, _⟩ := Formula.derives_of_ofText hf
  refine ⟨?_, ⟨symbols, f, d, hlex, hd, unfolds_root f⟩, ?_, ?_⟩
  · obtain ⟨v, hrun, hv⟩ := run_agrees (distinct_ofFormula f) (agrees_unset _) hfits
    refine ⟨v, hrun, hv, ?_⟩
    intro i f' hi hset
    exact hv.evaluate_eq hi hset
  · intro ρ b label x y
    exact ⟨rfl, rfl, rfl, rfl, rfl, bne_iff_ne, beq_iff_eq, rfl, rfl⟩
  · intro loose s g d' links hlex' hs hlinks
    obtain rfl : symbols = Link.join s links := by simpa [hlex] using hlex'
    obtain ⟨_, hchain⟩ := hs.chain hlinks
    obtain ⟨_, hwhole⟩ := hchain.disjunction_of_whole
    rw [← (hd.unique hwhole).1]
    exact unfolds_root f

/-- All connectives between two variables, one of which is true in the end and the other false,
after a write that is cleared, one that is overwritten and one to a label that does not occur. The
nodes of the disjunctions come last, the innermost one first. -/
theorem evaluate_run_connectives :
    let a := Formula.var "A"
    let b := Formula.var "B"
    let f := Formula.binary .or (.binary .and a b) <| .binary .or (.binary .xor a b) <|
      .binary .or (.binary .equiv a b) <| .binary .or (.binary .implies a b) <|
        .binary .or (.binary .provided a b) (.negation a)
    let e := ofFormula f
    let actions := [.set 1 true, .clear, .assign "B" false, .set 0 false, .assign "C" true,
      .assign "A" true]
    ofText "(A & B) | (A xor B) | (A = B) | (A > B) | (A < B) | ~A" = .ok e ∧
      (∀ action ∈ actions, action.Fits e.graph) ∧
      ∃ v, e.run actions = .ok (e.withValues v) ∧
        e.graph.ids.map (e.withValues v).evaluate =
          [.ok true, .ok false, .ok false, .ok true, .ok false, .ok true, .ok false, .ok false,
            .ok false, .ok true, .ok true, .ok true, .ok true] := by
  intro a b f e actions
  have he : ofText "(A & B) | (A xor B) | (A = B) | (A > B) | (A < B) | ~A" = .ok e :=
    ofText_of_toOption (by decide +kernel)
  have hfits : ∀ action ∈ actions, action.Fits e.graph := by
    simp only [actions, List.forall_mem_cons]
    exact ⟨⟨"B", by decide +kernel⟩, trivial, trivial, ⟨"A", by decide +kernel⟩, trivial, trivial,
      nofun⟩
  obtain ⟨v, hrun, hv, hvalue⟩ := (evaluate_run he hfits).1
  have hset : ∀ x ∈ e.graph.vars, (e.graph.recorded actions x.label).isSome := by
    decide +kernel
  have hvalues (i : e.graph.Id) : (e.withValues v).evaluate i =
      .ok ((e.graph.formula i).value fun label => (e.graph.recorded actions label).getD false) := by
    refine (hvalue i _ (Graph.unfolds_formula e.graph i) fun x _ => ?_).2
    rw [hv x]
    exact hset x (Graph.mem_vars x)
  refine ⟨he, hfits, v, hrun, (List.map_congr_left fun i _ => hvalues i).trans ?_⟩
  decide +kernel

end Expression

end Propositional
