import CypherCompiler.Proofs.Cypher.References

namespace CypherCompiler

-- What a value belongs to: a property of the nodes of a type, or the number that the database
-- has given to such a node.
inductive Subject where
  | property (type field : String)
  | nodeId (type : String)
  deriving DecidableEq, Repr

def CompareTarget.subjectOn (type : String) : CompareTarget → Subject
  | .property field _ => .property type field
  | .nodeId => .nodeId type

-- What is done with a value.
inductive Purpose where
  | compared (op : Comparator)
  | matched
  | written
  deriving DecidableEq, Repr

-- A parameter that a statement sets against a subject. The subject is unknown where the statement
-- binds no node of the name.
structure ValueUse where
  subject : Option Subject
  purpose : Purpose
  parameter : String
  deriving DecidableEq, Repr

-- The nodes that are bound in a part of a statement, with the names of their types. Where a name
-- is bound twice, the inner binding comes first.
abbrev Scope := List (String × String)

namespace Cypher

mutual

-- The comparisons of a condition with parameters.
def Condition.uses (scope : Scope) : Condition → List ValueUse
  | .compare node target op operand =>
    operand.references.map fun parameter =>
      ⟨(scope.lookup node).map target.subjectOn, .compared op, parameter⟩
  | .all children => usesOfAll scope children
  | .any children => usesOfAll scope children
  | .not child => uses scope child
  | .related hop _ child => uses ((hop.child, hop.relation.target) :: scope) child

def Condition.usesOfAll (scope : Scope) : List Condition → List ValueUse
  | [] => []
  | c :: rest => uses scope c ++ usesOfAll scope rest

end

theorem Condition.usesOfAll_append (scope : Scope) (cs more : List Condition) :
    usesOfAll scope (cs ++ more) = usesOfAll scope cs ++ usesOfAll scope more := by
  induction cs with
  | nil => rfl
  | cons c rest ih => rw [List.cons_append, usesOfAll, usesOfAll, ih, List.append_assoc]

-- That a related node is there is stated without a parameter.
theorem Condition.usesOfAll_leadsSomewhere (scope : Scope) (hops : List Hop) :
    usesOfAll scope (hops.map leadsSomewhere) = [] := by
  induction hops with
  | nil => rfl
  | cons hop rest ih =>
      rw [List.map_cons, usesOfAll, ih]
      rfl

def Hop.binding (h : Hop) : String × String := (h.child, h.relation.target)

-- The first label of a node is the name of its type.
def Start.binding : Start → String × String
  | .node name labels => (name, labels.headD "")
  | .hop h => h.binding

def Pattern.scope (p : Pattern) : Scope :=
  p.start.binding :: p.chain.map Hop.binding

def Source.uses (scope : Scope) (s : Source) : List ValueUse :=
  Condition.usesOfAll (s.pattern.scope ++ scope) s.conditions

mutual

-- The nodes of a custom statement are bound without a label.
def Item.uses (scope : Scope) : Item → List ValueUse
  | .related _ _ query => query.uses scope
  | .computedNodes _ _ node _ items => Item.usesOfAll (scope.filter (·.1 != node)) items
  | _ => []

def Item.usesOfAll (scope : Scope) : List Item → List ValueUse
  | [] => []
  | i :: rest => i.uses scope ++ Item.usesOfAll scope rest

def ReadQuery.uses (scope : Scope) : ReadQuery → List ValueUse
  | ⟨source, _, items, _, _, _⟩ =>
    source.uses scope ++ Item.usesOfAll (source.pattern.scope ++ scope) items

end

def Written.parameterName : Written → String
  | .parameter name => name
  | .compound _ name => name
  | .compounds _ name => name

-- The properties of a node of the named type.
def propertyUses (type : Option String) (purpose : Purpose)
    (properties : List (String × String)) : List ValueUse :=
  properties.map fun (key, parameter) =>
    ⟨type.map fun type => .property type key, purpose, parameter⟩

def writtenUses (type : Option String) (properties : List (String × Written)) : List ValueUse :=
  propertyUses type .written (properties.map fun p => (p.1, p.2.parameterName))

def Clause.uses (scope : Scope) : Clause → List ValueUse
  | .create node | .createRelated _ _ node => writtenUses node.labels.head? node.properties
  | .set node properties => writtenUses (scope.lookup node) properties
  | .find node | .merge node | .connect _ _ node =>
    propertyUses node.labels.head? .matched node.properties
  | .disconnect _ _ _ labels keys => propertyUses labels.head? .matched keys

-- The node that a clause binds.
def Clause.binding? : Clause → Option (String × String)
  | .create node | .createRelated _ _ node => some (node.name, node.labels.headD "")
  | .find node | .merge node | .connect _ _ node => some (node.name, node.labels.headD "")
  | .set .. | .disconnect .. => none

-- All parameters that a statement compares with, matches on or writes to a property, or compares
-- with the number of a node.
def Statement.uses : Statement → List ValueUse
  | .read query => query.uses []
  | .count query => query.source.uses []
  | .write clauses _ items _ =>
    let scope := clauses.filterMap Clause.binding?
    clauses.flatMap (Clause.uses scope) ++ Item.usesOfAll scope items
  | .delete node _ items _ =>
    propertyUses node.labels.head? .matched node.properties ++
      Item.usesOfAll [(node.name, node.labels.headD "")] items

end Cypher

end CypherCompiler
