import CypherCompiler.Error
import CypherCompiler.Filter.Operator
import CypherCompiler.Text.Affix

namespace CypherCompiler

-- What a key of a filter asks for.
inductive FilterKey where
  | combinator (combinator : Combinator)
  | comparison (field : Field) (op : Comparator)
  | relationship (field : Field) (relation : Relation) (quantifier : Quantifier)
  deriving DecidableEq, Repr

namespace FilterKey

-- Endings of properties, longer ones first where one ends in another.
def comparators : List (String × Comparator) :=
  [("not_starts_with", .notStartsWith), ("not_ends_with", .notEndsWith),
   ("not_contains", .notContains), ("distance_lte", .distance .lte),
   ("distance_gte", .distance .gte), ("starts_with", .startsWith),
   ("distance_lt", .distance .lt), ("distance_gt", .distance .gt), ("ends_with", .endsWith),
   ("contains", .contains), ("distance", .distance .eq), ("not_in", .notIn),
   ("regexp", .regexp), ("not", .not), ("lte", .lte), ("gte", .gte), ("in", .isIn),
   ("lt", .lt), ("gt", .gt)]

-- Endings of relationships.
def quantifiers : List (String × Quantifier) :=
  [("single", .single), ("every", .every), ("some", .some), ("none", .none), ("not", .none)]

def endings : List String :=
  comparators.map Prod.fst ++ quantifiers.map Prod.fst

-- A field together with an ending, or with none, if the ending suits the field's kind.
def classify? (field : Field) (ending : Option String) : Option FilterKey :=
  match field.kind with
  | .relationship relation => do
    let quantifier ← match ending with
      | none => some Quantifier.some
      | some e => quantifiers.lookup e
    return .relationship field relation quantifier
  | .scalar _ | .compound _ => do
    let op ← match ending with
      | none => some Comparator.eq
      | some e => comparators.lookup e
    if op.appliesTo field then some (.comparison field op) else none
  | .computed .. => none

-- The first ending of the key that leaves the name of a field.
def split? (type : NodeType) (key : String) : Option (Field × String) :=
  endings.findSome? fun ending => do
    let field ← type.field? (← Text.beforeSuffix? key ("_" ++ ending))
    return (field, ending)

-- A field whose name is the whole key is never split.
def read? (type : NodeType) (key : String) : Option FilterKey :=
  match Combinator.ofName? key with
  | some c => some (.combinator c)
  | none =>
    match type.field? key with
    | some field => classify? field none
    | none =>
      match split? type key with
      | some (field, ending) => classify? field (some ending)
      | none => none

def read (type : NodeType) (key : String) : Except RequestError FilterKey :=
  match read? type key with
  | some k => .ok k
  | none => .error (.invalidFilterField key)

end FilterKey

end CypherCompiler
