import CypherCompiler.Proofs.Graph.Expression

namespace CypherCompiler

namespace Cypher

namespace Condition

def compareExpression (node : String) (target : CompareTarget) (op : Comparator) :
    Operand → Expression
  | .null => if op = .not then .isNotNull node target else .isNull node target
  | .parameter name =>
    if op.isNegated then .not (.compare node target op.positive name)
    else .compare node target op name

def relatedExpression (hop : Hop) (quantifier : Quantifier) (inner : Option Expression) :
    Expression :=
  match quantifier with
  | .some => .someMatch hop inner
  | .none => .not (.someMatch hop inner)
  | .single => .oneMatch hop inner
  | .every =>
    match inner with
    | some e => .not (.someMatch hop (some (.not e)))
    | none => .truth true

mutual

-- The expression that a condition is written as.
def expression : Condition → Expression
  | compare node target op operand => compareExpression node target op operand
  | all [] => .truth true
  | all (c :: rest) => .all (expression c) (expressions rest)
  | any [] => .truth false
  | any (c :: rest) => .any (expression c) (expressions rest)
  | not child =>
    .not (if child.isParenthesized then expression child else .group (expression child))
  | related hop quantifier child =>
    relatedExpression hop quantifier (if child.isVacuous then none else some (expression child))

def expressions : List Condition → List Expression
  | [] => []
  | c :: rest => expression c :: expressions rest

end

-- A negated comparison is written as the other one under a negation.
theorem renderCompare_of_isNegated (node : String) (target : CompareTarget) {op : Comparator}
    (name : String) (h : op.isNegated = true) :
    renderCompare node target op (.parameter name) =
      "NOT " ++ Expression.compareText node target name op.positive := by
  have hsymbol : op.positive.symbol = op.symbol := by
    cases op <;> rfl
  have hvalue : target.value op.positive name = target.value op name := by
    unfold CompareTarget.value
    cases op <;> cases target <;> rfl
  have htext : renderCompare node target op (.parameter name) =
      "NOT " ++ target.subject node ++ " " ++ op.symbol ++ " " ++ target.value op name := by
    cases op <;> first | rfl | cases h
  have hpositive : Expression.compareText node target name op.positive =
      target.subject node ++ " " ++ op.positive.symbol ++ " " ++ target.value op.positive name := by
    cases op <;> first | rfl | cases h
  rw [htext, hpositive, hsymbol, hvalue]
  simp only [String.append_assoc]

theorem renderCompare_of_not_isNegated (node : String) (target : CompareTarget) {op : Comparator}
    (name : String) (h : op.isNegated = false) :
    renderCompare node target op (.parameter name) =
      Expression.compareText node target name op := by
  cases op with
  | distance test => rfl
  | not | notIn | notContains | notStartsWith | notEndsWith => cases h
  | _ =>
      unfold renderCompare Expression.compareText
      simp only [h, Bool.false_eq_true, ite_false, String.empty_append]

theorem text_compareExpression (node : String) (target : CompareTarget) (op : Comparator)
    (operand : Operand) :
    (compareExpression node target op operand).text = renderCompare node target op operand := by
  cases operand with
  | null =>
      have htext : renderCompare node target op .null =
          target.subject node ++ (if op = .not then " IS NOT NULL" else " IS NULL") := rfl
      rw [compareExpression, htext]
      split
      · rw [Expression.text]
      · rw [Expression.text]
  | parameter name =>
      rw [compareExpression]
      split
      · rename_i h
        rw [Expression.text, Expression.text, renderCompare_of_isNegated node target name h]
      · rename_i h
        rw [Expression.text,
          renderCompare_of_not_isNegated node target name (Bool.not_eq_true _ ▸ h)]

theorem not_exists_append (query : String) :
    "NOT EXISTS " ++ query = "NOT " ++ ("EXISTS " ++ query) := by
  rw [← String.append_assoc]
  rfl

theorem text_relatedExpression (hop : Hop) (quantifier : Quantifier) (inner : Option Expression) :
    (relatedExpression hop quantifier inner).text =
      renderRelated hop quantifier (inner.map Expression.text) := by
  cases quantifier <;> cases inner <;>
    simp [relatedExpression, renderRelated, Expression.text, matching, String.append_assoc,
      not_exists_append]

mutual

theorem text_expression (c : Condition) : c.expression.text = c.render := by
  match c with
  | .compare node target op operand =>
      rw [expression, render, text_compareExpression]
  | .all [] => rfl
  | .any [] => rfl
  | .all (c :: rest) =>
      rw [expression, render, Expression.text, text_expression c, texts_expressions rest]
      rfl
  | .any (c :: rest) =>
      rw [expression, render, Expression.text, text_expression c, texts_expressions rest]
      rfl
  | .not child =>
      rw [expression, render, Expression.text]
      split
      · rw [text_expression child]
      · rw [Expression.text, text_expression child]
        rfl
  | .related hop quantifier child =>
      rw [expression, render, text_relatedExpression]
      split
      · rfl
      · rw [Option.map_some, text_expression child]
termination_by sizeOf c

theorem texts_expressions (cs : List Condition) :
    Expression.texts (expressions cs) = renderAll cs := by
  match cs with
  | [] => rfl
  | c :: rest =>
      rw [expressions, Expression.texts, renderAll, text_expression c, texts_expressions rest]
termination_by sizeOf cs

end

theorem holds_compareExpression {g : Graph} {ps : Parameters} {env : Env g} {node : String}
    {n : g.Node} (hn : env node = some n) (target : CompareTarget) (op : Comparator)
    (operand : Operand) :
    (compareExpression node target op operand).Holds g ps env ↔
      g.PassesOperand ps n target op operand := by
  cases operand with
  | null =>
      by_cases hop : op = .not <;>
        simp [compareExpression, Expression.Holds, Graph.PassesOperand, Graph.PassesNull, hop, hn]
  | parameter name =>
      by_cases hop : op.isNegated = true <;>
        simp [compareExpression, Expression.Holds, Graph.PassesOperand, Graph.Passes, hop, hn]

section

variable {g : Graph} {ps : Parameters} {env : Env g} {c : Condition} {cs : List Condition}

theorem holds_all_nil : (all []).expression.Holds g ps env := rfl

theorem not_holds_any_nil : ¬ (any []).expression.Holds g ps env := Bool.false_ne_true

theorem holds_all_cons :
    (all (c :: cs)).expression.Holds g ps env ↔
      c.expression.Holds g ps env ∧ (all cs).expression.Holds g ps env := by
  rw [expression, Expression.Holds]
  refine and_congr_right fun _ => ?_
  cases cs with
  | nil => exact iff_of_true trivial holds_all_nil
  | cons d rest => exact Iff.rfl

theorem holds_any_cons :
    (any (c :: cs)).expression.Holds g ps env ↔
      c.expression.Holds g ps env ∨ (any cs).expression.Holds g ps env := by
  rw [expression, Expression.Holds]
  refine or_congr_right ?_
  cases cs with
  | nil => exact iff_of_false id not_holds_any_nil
  | cons d rest => exact Iff.rfl

theorem holds_not : (not c).expression.Holds g ps env ↔ ¬ c.expression.Holds g ps env := by
  rw [expression, Expression.Holds]
  split
  · exact Iff.rfl
  · rw [Expression.Holds]

end

section

variable {g : Graph} {ps : Parameters} {env : Env g} {hop : Hop} {n : g.Node}

-- A hop from a bound node to an unbound one matches the edges that leave the bound one.
theorem matches_iff (hparent : env hop.parent = some n) (hchild : env hop.child = none)
    {e : g.Edge} :
    env.Matches hop e ↔ g.Fits hop.relation e ∧ g.start hop.relation e = n := by
  have hne : hop.child ≠ hop.parent := by
    intro h
    rw [h, hparent] at hchild
    cases hchild
  unfold Env.Matches Env.Admits
  simp [hparent, Env.bind, hne, hchild, eq_comm]

theorem holds_relatedExpression {inner : Option Expression} {quantifier : Quantifier}
    {P : g.Node → Prop} (hparent : env hop.parent = some n) (hchild : env hop.child = none)
    (hinner : ∀ e, g.start hop.relation e = n →
      ((∀ E ∈ inner, E.Holds g ps (env.bindHop hop e)) ↔ P (g.stop hop.relation e))) :
    (relatedExpression hop quantifier inner).Holds g ps env ↔
      g.Related hop.relation quantifier n P := by
  cases inner with
  | none =>
      have hmatch : ∀ e, env.Matches hop e ↔
          g.Fits hop.relation e ∧ g.start hop.relation e = n ∧ P (g.stop hop.relation e) := by
        intro e
        rw [matches_iff hparent hchild]
        refine and_congr_right fun _ => (and_iff_left_of_imp fun hstart => ?_).symm
        exact (hinner e hstart).mp (by simp)
      cases quantifier with
      | every =>
          refine iff_of_true rfl ?_
          intro e _ hstart
          exact (hinner e hstart).mp (by simp)
      | _ => simp only [relatedExpression, Expression.Holds, Graph.Related, hmatch, not_exists,
          not_and]
  | some E =>
      have hsame : ∀ e, env.Matches hop e ∧ E.Holds g ps (env.bindHop hop e) ↔
          g.Fits hop.relation e ∧ g.start hop.relation e = n ∧ P (g.stop hop.relation e) := by
        intro e
        rw [matches_iff hparent hchild, and_assoc]
        refine and_congr_right fun _ => and_congr_right fun hstart => ?_
        rw [← hinner e hstart]
        simp
      have hfails : ∀ e, env.Matches hop e ∧ ¬ E.Holds g ps (env.bindHop hop e) ↔
          g.Fits hop.relation e ∧ g.start hop.relation e = n ∧
            ¬ P (g.stop hop.relation e) := by
        intro e
        rw [matches_iff hparent hchild, and_assoc]
        refine and_congr_right fun _ => and_congr_right fun hstart => ?_
        rw [← hinner e hstart]
        simp
      cases quantifier <;>
        simp only [relatedExpression, Expression.Holds, Graph.Related, hsame, hfails, not_exists,
          not_and, Classical.not_not]

end

end Condition

end Cypher

end CypherCompiler
