import Propositional.Proofs.Expression.Structure
import Propositional.Proofs.Grammar.Writing
import Propositional.Proofs.Graph.Descent

/-!
# Depth of expressions

The budget that reading is given bounds how high a formula can be, and with it how many visits
nest when the expression is evaluated or written. A conjunction spends one unit for two levels
where it negates its first operand and goes on with a connective, so each rule has a bound of
its own.
-/

namespace Propositional

open Grammar

namespace Grammar

/-- How high a formula can be that the rule derives with `d` nested uses of rules. -/
def Rule.room : Rule → Nat → Nat
  | operand, d => max d 2 - 1
  | literal, d => max d 2
  | conjunction, d | disjunction, d => d

variable {rule : Rule} {s : List Symbol} {f : Formula} {d : Nat}

/-- No rule derives anything with fewer uses of rules than lead down to an operand. -/
theorem Derives.rule_height_lt (h : Derives rule s f d) : rule.height < d := by
  induction h with
  | var | constTrue | constFalse => exact Nat.one_pos
  | group => exact Nat.succ_pos _
  | bare _ ih | negation _ ih => exact ih
  | literal _ ih | conjunction _ ih => exact Nat.succ_lt_succ ih
  | tight _ _ _ _ ih | loose _ _ _ _ ih =>
    simp only [Rule.height] at *
    omega

theorem Derives.height_le_room (h : Derives rule s f d) : f.height ≤ rule.room d := by
  induction h with
  | var | constTrue | constFalse => exact Nat.le_refl _
  | group _ ih =>
    simp only [Rule.room] at *
    omega
  | bare _ ih | conjunction _ ih =>
    simp only [Rule.room] at *
    omega
  | negation _ ih =>
    simp only [Rule.room, Formula.height] at *
    omega
  | literal h ih =>
    have hpos := h.rule_height_lt
    simp only [Rule.room] at *
    omega
  | tight _ _ ht ihs iht =>
    -- the part in front may be as high as 2 within a depth of 1; what follows nests 2 deep
    have hrest := ht.rule_height_lt
    simp only [Rule.room, Rule.height, Formula.height] at *
    omega
  | loose _ _ _ ihs iht =>
    simp only [Rule.room, Formula.height] at *
    omega

end Grammar

namespace Expression

/-- No node of an expression stands for a formula that is higher than the budget. -/
theorem height_le_of_ofSymbols {s : List Symbol} {e : Expression} (h : ofSymbols s = .ok e)
    (i : e.graph.Id) : (e.graph.formula i).height ≤ depthLimit := by
  obtain ⟨f, hf, rfl⟩ := ofSymbols_eq_ok h
  obtain ⟨d, hd, hlimit⟩ := Formula.derives_of_ofSymbols hf
  calc ((ofFormula f).graph.formula i).height
    _ ≤ f.height := (part_formula f i).height_le
    _ ≤ d := hd.height_le_room
    _ ≤ depthLimit := hlimit

/-- From no node of an expression that was read, the root among them, does a way down pass more
than 4096 nodes, and no more visits need to nest for its value, whatever values the variables
hold, and its written form. -/
theorem ofSymbols_descent {s : List Symbol} {e : Expression} (h : ofSymbols s = .ok e)
    (i : e.graph.Id) :
    (∀ path : List e.graph.Id,
      (i :: path).IsChain (fun p c => c ∈ (e.graph.node p).children) →
        (i :: path).length ≤ 4096) ∧
    (∀ v : Valuation e.graph,
      evaluateWithin e.graph.nodes v.cells.toArray 4096 i = some (e.graph.evaluate v i)) ∧
    renderWithin e.graph.nodes 4096 i = some (e.render i) := by
  have hheight := height_le_of_ofSymbols h i
  refine ⟨fun path hpath => ?_, fun v => ?_, ?_⟩
  · exact Nat.le_trans (Graph.length_le_height hpath) hheight
  · exact Graph.evaluateWithin_eq v hheight
  · exact Graph.renderWithin_eq hheight

/-- The way down `~A ∧ B` passes a conjunction and a negation. -/
theorem ofSymbols_descent_negation :
    ∃ e, ofSymbols [⟨.not, "~"⟩, ⟨.var, "A"⟩, ⟨.and, "∧"⟩, ⟨.var, "B"⟩] = .ok e ∧
      renderWithin e.graph.nodes 4096 e.root = some "~A ∧ B" := by
  have h : ofSymbols [⟨.not, "~"⟩, ⟨.var, "A"⟩, ⟨.and, "∧"⟩, ⟨.var, "B"⟩] =
      .ok (ofFormula (.binary .and (.negation (.var "A")) (.var "B"))) := rfl
  have htext : text (ofFormula (.binary .and (.negation (.var "A")) (.var "B"))) = "~A ∧ B" := by
    rw [text, Network.render, formula_root]
    decide +kernel
  exact ⟨_, h, (ofSymbols_descent h _).2.2.trans (congrArg some htext)⟩

end Expression

end Propositional
