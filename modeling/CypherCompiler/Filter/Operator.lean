import CypherCompiler.Schema.Basic

namespace CypherCompiler

-- How a distance is compared with its bound.
inductive DistanceTest where
  | eq
  | lt
  | lte
  | gt
  | gte
  deriving DecidableEq, Repr

namespace DistanceTest

def all : List DistanceTest := [.eq, .lt, .lte, .gt, .gte]

def symbol : DistanceTest → String
  | .eq => "="
  | .lt => "<"
  | .lte => "<="
  | .gt => ">"
  | .gte => ">="

end DistanceTest

-- How a stored property is compared with a value.
inductive Comparator where
  | eq
  | not
  | isIn
  | notIn
  | regexp
  | contains
  | notContains
  | startsWith
  | notStartsWith
  | endsWith
  | notEndsWith
  | lt
  | lte
  | gt
  | gte
  | distance (test : DistanceTest)
  deriving DecidableEq, Repr

namespace Comparator

def all : List Comparator :=
  [.eq, .not, .isIn, .notIn, .regexp, .contains, .notContains, .startsWith, .notStartsWith,
    .endsWith, .notEndsWith, .lt, .lte, .gt, .gte] ++ DistanceTest.all.map .distance

-- Membership tests compare with a list of values.
def takesList : Comparator → Bool
  | .isIn | .notIn => true
  | _ => false

-- Whether the comparator is defined for values of the field's kind.
def appliesTo (op : Comparator) (f : Field) : Bool :=
  match f.kind with
  | .scalar s =>
    match op with
    | .eq | .not => true
    | .isIn | .notIn => s != .boolean
    | .regexp | .contains | .notContains | .startsWith | .notStartsWith | .endsWith
    | .notEndsWith => s.isTextual
    | .lt | .lte | .gt | .gte => s.isNumeric
    | .distance _ => false
  | .compound .point =>
    match op with
    | .eq | .not | .distance _ => true
    | _ => false
  | .compound _ =>
    match op with
    | .eq | .not | .isIn | .notIn | .lt | .lte | .gt | .gte => true
    | _ => false
  | .relationship _ | .computed .. => false

end Comparator

-- How many of the related nodes have to meet a condition.
inductive Quantifier where
  | some
  | none
  | every
  | single
  deriving DecidableEq, Repr

namespace Quantifier

def suffix : Quantifier → String
  | .some => "some"
  | .none => "none"
  | .every => "every"
  | .single => "single"

-- Asking for no value turns the question around, where it can be turned around.
def flip? : Quantifier → Option Quantifier
  | .some => Option.some .none
  | .none => Option.some .some
  | _ => Option.none

end Quantifier

-- Keys that join conditions.
inductive Combinator where
  | and
  | or
  | not
  deriving DecidableEq, Repr

namespace Combinator

def name : Combinator → String
  | .and => "AND"
  | .or => "OR"
  | .not => "NOT"

def ofName? (s : String) : Option Combinator :=
  [.and, .or, .not].find? (·.name == s)

end Combinator

end CypherCompiler
