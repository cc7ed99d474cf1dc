import CypherCompiler.Cypher.Pattern
import CypherCompiler.Filter.Predicate

namespace CypherCompiler

namespace Cypher

-- A condition on bound nodes.
inductive Condition where
  | compare (node : String) (target : CompareTarget) (op : Comparator) (operand : Operand)
  | all (children : List Condition)
  | any (children : List Condition)
  | not (child : Condition)
  | related (hop : Hop) (quantifier : Quantifier) (child : Condition)
  deriving Repr

end Cypher

open Cypher

-- What stands on the left of a comparison.
def CompareTarget.subject (node : String) : CompareTarget → String
  | .property field _ => propertyRead node field
  | .nodeId => "ID(" ++ quoteIdentifier node ++ ")"

-- The value that a subject is compared with.
def CompareTarget.value (op : Comparator) (parameter : String) : CompareTarget → String
  | .nodeId => "toInteger(" ++ reference parameter ++ ")"
  | .property _ none => reference parameter
  | .property _ (some compound) =>
    if op.takesList then
      "[value IN " ++ reference parameter ++ " | " ++ compound.constructor ++ "(value)]"
    else compound.constructor ++ "(" ++ reference parameter ++ ")"

def Comparator.symbol : Comparator → String
  | .eq | .not => "="
  | .isIn | .notIn => "IN"
  | .regexp => "=~"
  | .contains | .notContains => "CONTAINS"
  | .startsWith | .notStartsWith => "STARTS WITH"
  | .endsWith | .notEndsWith => "ENDS WITH"
  | .lt => "<"
  | .lte => "<="
  | .gt => ">"
  | .gte => ">="
  | .distance test => test.symbol

-- Comparators that hold where the comparator of the same symbol does not.
def Comparator.isNegated : Comparator → Bool
  | .not | .notIn | .notContains | .notStartsWith | .notEndsWith => true
  | _ => false

namespace Cypher.Condition

-- No condition at all.
def isVacuous : Condition → Bool
  | all [] => true
  | _ => false

-- The hop leads to some node.
def leadsSomewhere (hop : Hop) : Condition :=
  related hop .some (all [])

def renderCompare (node : String) (target : CompareTarget) (op : Comparator) :
    Operand → String
  | .null => target.subject node ++ (if op = .not then " IS NOT NULL" else " IS NULL")
  | .parameter name =>
    match op with
    | .distance test =>
      "distance(" ++ target.subject node ++ ", point(" ++ reference name ++ ".point)) " ++
        test.symbol ++ " " ++ reference name ++ ".distance"
    | op =>
      (if op.isNegated then "NOT " else "") ++ target.subject node ++ " " ++ op.symbol ++ " " ++
        target.value op name

def parenthesized (text : String) : String := "(" ++ text ++ ")"

-- Joined conditions stand in parentheses of their own.
def isParenthesized : Condition → Bool
  | all (_ :: _) | any (_ :: _) => true
  | _ => false

-- A hop whose node meets a condition, as the body of a nested query.
def matching (hop : Hop) (condition : Option String) : String :=
  let whereClause := match condition with
    | some text => " WHERE " ++ text
    | none => ""
  braced (" MATCH " ++ hop.render ++ whereClause ++ " ")

-- A condition that every related node meets is one that no related node fails.
def renderRelated (hop : Hop) (quantifier : Quantifier) (inner : Option String) : String :=
  match quantifier with
  | .some => "EXISTS " ++ matching hop inner
  | .none => "NOT EXISTS " ++ matching hop inner
  | .single => "COUNT " ++ matching hop inner ++ " = 1"
  | .every =>
    match inner with
    | some text => "NOT EXISTS " ++ matching hop (some ("NOT " ++ text))
    | none => "true"

mutual

-- The text of a condition. No conditions at all are true where all have to hold and false
-- where one of them has to.
def render : Condition → String
  | compare node target op operand => renderCompare node target op operand
  | all [] => "true"
  | all (c :: rest) => parenthesized (String.intercalate " AND " (render c :: renderAll rest))
  | any [] => "false"
  | any (c :: rest) => parenthesized (String.intercalate " OR " (render c :: renderAll rest))
  | not child =>
    "NOT " ++ (if child.isParenthesized then render child else parenthesized (render child))
  | related hop quantifier child =>
    renderRelated hop quantifier (if child.isVacuous then none else some (render child))

def renderAll : List Condition → List String
  | [] => []
  | c :: rest => render c :: renderAll rest

end

end Cypher.Condition

end CypherCompiler
