import CypherCompiler.Proofs.Outcome.Resolution
import CypherCompiler.Proofs.Syntax.Condition

namespace CypherCompiler

open Cypher

namespace Syntax

-- What decides a formula at a place of `W`: the truth of its comparisons there, and what it means
-- that some match of a hop, or exactly one, meets a condition.
structure Valuation (W : Type) where
  atom : Atom → W → Bool
  someMatch : Hop → (W → Bool) → W → Bool
  oneMatch : Hop → (W → Bool) → W → Bool

namespace Formula

variable {W : Type} (v : Valuation W)

def value : Formula → W → Bool
  | truth value, _ => value
  | atom a, w => v.atom a w
  | not child, w => !value child w
  | and left right, w => value left w && value right w
  | or left right, w => value left w || value right w
  | someMatch hop inner, w => v.someMatch hop (value inner) w
  | oneMatch hop inner, w => v.oneMatch hop (value inner) w

theorem value_chain_and (f : Formula) (fs : List Formula) (w : W) :
    (chain .and f fs).value v w = (f :: fs).all (·.value v w) := by
  induction fs generalizing f with
  | nil => simp [chain]
  | cons next rest ih =>
      rw [chain, value, ih]
      rfl

theorem value_chain_or (f : Formula) (fs : List Formula) (w : W) :
    (chain .or f fs).value v w = (f :: fs).any (·.value v w) := by
  induction fs generalizing f with
  | nil => simp [chain]
  | cons next rest ih =>
      rw [chain, value, ih]
      rfl

end Formula

end Syntax

open Syntax

-- A comparison by a negated comparator is true where the comparison by the other one is not.
def Comparison.value {W : Type} (c : Comparison) (v : Valuation W) (node : String) (w : W) : Bool :=
  match c.operand with
  | .null =>
    let absent := v.atom (.isNull (subjectOf node c.target)) w
    if c.op = .not then !absent else absent
  | .parameter name =>
    let compared := v.atom (comparedAtom node c.target name c.op.positive) w
    if c.op.isNegated then !compared else compared

-- The inner condition is vacuous if it asks for nothing.
def Quantifier.value {W : Type} (v : Valuation W) (hop : Hop) (vacuous : Bool) (inner : W → Bool)
    (w : W) : Quantifier → Bool
  | .some => v.someMatch hop inner w
  | .none => !v.someMatch hop inner w
  | .every => vacuous || !v.someMatch hop (fun u => !inner u) w
  | .single => v.oneMatch hop inner w

namespace Predicate

variable {W : Type} (plan : Plan) (v : Valuation W)

mutual

-- The value of a predicate on the nodes of a plan, in which each of its hops has a step.
def value : Predicate → W → Bool
  | compare c, w =>
    match plan.comparedNode c.path with
    | .ok node => c.value v node w
    | .error _ => false
  | all children, w => allValue children w
  | any children, w => anyValue children w
  | not child, w => !value child w
  | related hop child, w =>
    match plan.filterHop hop with
    | .ok h => hop.quantifier.value v h child.isVacuous (value child) w
    | .error _ => false

def allValue : List Predicate → W → Bool
  | [], _ => true
  | p :: rest, w => value p w && allValue rest w

def anyValue : List Predicate → W → Bool
  | [], _ => false
  | p :: rest, w => value p w || anyValue rest w

end

end Predicate

namespace Plan

variable {plan : Plan}

theorem isVacuous_condition {p : Predicate} {c : Condition} (h : plan.condition p = .ok c) :
    c.isVacuous = p.isVacuous := by
  cases p with
  | compare comparison =>
      obtain ⟨node, -, rfl⟩ := condition_compare_eq_ok.mp h
      rfl
  | all children =>
      obtain ⟨cs, hcs, rfl⟩ := condition_all_eq_ok.mp h
      cases children with
      | nil =>
          obtain rfl := conditions_nil_eq_ok.mp hcs
          rfl
      | cons child rest =>
          obtain ⟨c, more, -, -, rfl⟩ := conditions_cons_eq_ok.mp hcs
          rfl
  | any children =>
      obtain ⟨cs, -, rfl⟩ := condition_any_eq_ok.mp h
      rfl
  | not child =>
      obtain ⟨inner, -, rfl⟩ := condition_not_eq_ok.mp h
      rfl
  | related hop child =>
      obtain ⟨s, inner, -, -, rfl⟩ := condition_related_eq_ok.mp h
      rfl

variable {W : Type} (v : Valuation W)

theorem value_compareFormula (c : Comparison) (node : String) (w : W) :
    (Condition.compareFormula node c.target c.op c.operand).value v w = c.value v node w := by
  obtain ⟨path, target, op, operand⟩ := c
  cases operand with
  | null => by_cases hop : op = .not <;>
      simp [Condition.compareFormula, Comparison.value, Formula.value, hop]
  | parameter name => by_cases hop : op.isNegated = true <;>
      simp [Condition.compareFormula, Comparison.value, Formula.value, hop]

theorem value_formula_all (cs : List Condition) (w : W) :
    (Condition.all cs).formula.value v w = (Condition.formulas cs).all (·.value v w) := by
  cases cs with
  | nil => rfl
  | cons c rest => rw [Condition.formula, Formula.value_chain_and, Condition.formulas]

theorem value_formula_any (cs : List Condition) (w : W) :
    (Condition.any cs).formula.value v w = (Condition.formulas cs).any (·.value v w) := by
  cases cs with
  | nil => rfl
  | cons c rest => rw [Condition.formula, Formula.value_chain_or, Condition.formulas]

theorem value_relatedFormula (hop : Hop) (quantifier : Quantifier) (vacuous : Bool)
    (inner : Formula) (w : W) :
    (Condition.relatedFormula hop quantifier vacuous inner).value v w =
      quantifier.value v hop vacuous (inner.value v) w := by
  cases quantifier <;> cases vacuous <;>
    simp [Condition.relatedFormula, Quantifier.value, Formula.value]

mutual

theorem value_condition (p : Predicate) {c : Condition} (h : plan.condition p = .ok c) (w : W) :
    c.formula.value v w = p.value plan v w := by
  match p with
  | .compare comparison =>
      obtain ⟨node, hnode, rfl⟩ := condition_compare_eq_ok.mp h
      rw [Condition.formula, value_compareFormula, Predicate.value, comparedNode_eq_ok.mpr hnode]
  | .all children =>
      obtain ⟨cs, hcs, rfl⟩ := condition_all_eq_ok.mp h
      rw [value_formula_all, (value_conditions children hcs w).1, Predicate.value]
  | .any children =>
      obtain ⟨cs, hcs, rfl⟩ := condition_any_eq_ok.mp h
      rw [value_formula_any, (value_conditions children hcs w).2, Predicate.value]
  | .not child =>
      obtain ⟨inner, hinner, rfl⟩ := condition_not_eq_ok.mp h
      rw [Condition.formula, Formula.value, Predicate.value, value_condition child hinner w]
  | .related hop child =>
      obtain ⟨s, inner, hs, hinner, rfl⟩ := condition_related_eq_ok.mp h
      have hhop := filterHop_eq_ok.mpr ⟨s, hs, rfl⟩
      have hvalue : inner.formula.value v = child.value plan v := by
        funext u
        exact value_condition child hinner u
      rw [Condition.formula, value_relatedFormula, Predicate.value, hhop,
        isVacuous_condition hinner, hvalue]
termination_by sizeOf p

theorem value_conditions (children : List Predicate) {cs : List Condition}
    (h : plan.conditions children = .ok cs) (w : W) :
    (Condition.formulas cs).all (·.value v w) = Predicate.allValue plan v children w ∧
      (Condition.formulas cs).any (·.value v w) = Predicate.anyValue plan v children w := by
  match children with
  | [] =>
      obtain rfl := conditions_nil_eq_ok.mp h
      exact ⟨rfl, rfl⟩
  | child :: rest =>
      obtain ⟨c, more, hc, hmore, rfl⟩ := conditions_cons_eq_ok.mp h
      have hfirst := value_condition child hc w
      obtain ⟨hall, hany⟩ := value_conditions rest hmore w
      rw [Condition.formulas, List.all_cons, List.any_cons, hfirst, hall, hany,
        Predicate.allValue, Predicate.anyValue]
      exact ⟨rfl, rfl⟩
termination_by sizeOf children

end

end Plan

end CypherCompiler
