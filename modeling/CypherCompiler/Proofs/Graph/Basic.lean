import Mathlib.Logic.ExistsUnique
import CypherCompiler.Cypher.Condition
import CypherCompiler.Parameters

namespace CypherCompiler

-- The comparator of the same symbol that holds where this one does not.
def Comparator.positive : Comparator → Comparator
  | .not => .eq
  | .notIn => .isIn
  | .notContains => .contains
  | .notStartsWith => .startsWith
  | .notEndsWith => .endsWith
  | op => op

-- A property graph, together with the comparisons that its database knows. What a comparison
-- between a stored value and a given one means is left to the database.
structure Graph where
  Node : Type
  Edge : Type
  Stored : Type
  source : Edge → Node
  target : Edge → Node
  edgeName : Edge → String
  HasLabel : Node → String → Prop
  property : Node → String → Option Stored
  number : Node → Stored
  Compares : Option Compound → Comparator → Stored → Json → Prop
  ComparesNumber : Comparator → Stored → Json → Prop

namespace Graph

variable (g : Graph)

-- The end of an edge at which a hop starts.
def start (relation : Relation) (e : g.Edge) : g.Node :=
  match relation.direction with
  | .out => g.source e
  | .into => g.target e

-- The end of an edge to which a hop leads.
def stop (relation : Relation) (e : g.Edge) : g.Node :=
  match relation.direction with
  | .out => g.target e
  | .into => g.source e

-- An edge of the relation's name that leads to a node of its type.
def Fits (relation : Relation) (e : g.Edge) : Prop :=
  g.edgeName e = relation.name ∧ g.HasLabel (g.stop relation e) relation.target

-- How many of the edges that leave a node lead to a node with the property.
def Related (relation : Relation) (quantifier : Quantifier) (n : g.Node)
    (P : g.Node → Prop) : Prop :=
  match quantifier with
  | .some => ∃ e, g.Fits relation e ∧ g.start relation e = n ∧ P (g.stop relation e)
  | .none => ∀ e, g.Fits relation e → g.start relation e = n → ¬ P (g.stop relation e)
  | .every => ∀ e, g.Fits relation e → g.start relation e = n → P (g.stop relation e)
  | .single => ∃! e, g.Fits relation e ∧ g.start relation e = n ∧ P (g.stop relation e)

-- What a comparison reads from a node.
def read (n : g.Node) : CompareTarget → Option g.Stored
  | .property field _ => g.property n field
  | .nodeId => some (g.number n)

def compareValues (op : Comparator) (stored : g.Stored) (given : Json) : CompareTarget → Prop
  | .property _ compound => g.Compares compound op stored given
  | .nodeId => g.ComparesNumber op stored given

-- A comparison fails where one of its sides is missing.
def Compare (n : g.Node) (target : CompareTarget) (op : Comparator) (given : Option Json) : Prop :=
  ∃ stored v, g.read n target = some stored ∧ given = some v ∧ g.compareValues op stored v target

-- A negated comparator holds exactly where the other one fails.
def Passes (n : g.Node) (target : CompareTarget) (op : Comparator) (given : Option Json) : Prop :=
  if op.isNegated then ¬ g.Compare n target op.positive given else g.Compare n target op given

-- The comparison with null.
def PassesNull (n : g.Node) (target : CompareTarget) (op : Comparator) : Prop :=
  if op = .not then (g.read n target).isSome = true else (g.read n target).isNone = true

def PassesOperand (ps : Parameters) (n : g.Node) (target : CompareTarget) (op : Comparator) :
    Operand → Prop
  | .null => g.PassesNull n target op
  | .parameter name => g.Passes n target op (ps.get? name)

end Graph

end CypherCompiler
