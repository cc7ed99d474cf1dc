import CypherCompiler.Filter.Operator

namespace CypherCompiler

-- What a comparison reads from its node. A compound value is built from its parameter first.
inductive CompareTarget where
  | property (field : String) (compound : Option Compound)
  | nodeId
  deriving DecidableEq, Repr

-- What a property is compared with. A null asks whether there is a value at all.
inductive Operand where
  | parameter (name : String)
  | null
  deriving DecidableEq, Repr

-- A comparison on the node that the hops of `path` lead to.
structure Comparison where
  path : List String
  target : CompareTarget
  op : Comparator
  operand : Operand
  deriving DecidableEq, Repr

-- A relationship that a filter follows. The path includes this hop.
structure FilterHop where
  path : List String
  field : String
  relation : Relation
  quantifier : Quantifier
  deriving DecidableEq, Repr

inductive Predicate where
  | compare (comparison : Comparison)
  | all (children : List Predicate)
  | any (children : List Predicate)
  | not (child : Predicate)
  | related (hop : FilterHop) (child : Predicate)
  deriving Repr

namespace Predicate

-- No condition at all.
def isVacuous : Predicate → Bool
  | all [] => true
  | _ => false

mutual

-- The relationships that a predicate follows, outer ones before those inside them.
def hops : Predicate → List FilterHop
  | compare _ => []
  | all children => hopsOfAll children
  | any children => hopsOfAll children
  | not child => hops child
  | related hop child => hop :: hops child

def hopsOfAll : List Predicate → List FilterHop
  | [] => []
  | p :: rest => hops p ++ hopsOfAll rest

end

end Predicate

end CypherCompiler
