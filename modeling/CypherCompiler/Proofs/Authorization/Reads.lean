import CypherCompiler.Cypher.Statement
import CypherCompiler.Request.Basic

namespace CypherCompiler.Cypher

-- The stored property that an entry of a map shows.
def Item.property? : Item → Option String
  | .shorthand field | .property _ _ field | .compound _ _ field _ => some field
  | _ => none

-- The edge by which a nested query reaches its nodes.
def ReadQuery.relation? (q : ReadQuery) : Option Relation :=
  match q.source.pattern.start with
  | .node .. => none
  | .hop hop => some hop.relation

-- The fields that the entry for a selection reads from the nodes of a type. A property is the
-- field of its name on the type of the node that it is read from, whatever was selected.
inductive Item.ReadsField (catalog : Catalog) : NodeType → Selection → Item → Field → Prop
  | property {type : NodeType} {s : Selection} {item : Item} {name : String} {field : Field}
      (hitem : item.property? = some name) (hfield : type.field? name = some field) :
      ReadsField catalog type s item field
  | related {type : NodeType} {s : Selection} {key : String} {list : Bool} {query : ReadQuery}
      {field : Field} (hfield : type.field? s.name = some field) :
      ReadsField catalog type s (.related key list query) field
  | computed {type : NodeType} {s : Selection} {key : String} {list : Bool} {call : CustomCall}
      {field : Field} (hfield : type.field? s.name = some field) :
      ReadsField catalog type s (.computed key list call) field
  | computedNodes {type : NodeType} {s : Selection} {key node : String} {list : Bool}
      {call : CustomCall} {items : List Item} {field : Field}
      (hfield : type.field? s.name = some field) :
      ReadsField catalog type s (.computedNodes key list node call items) field
  | belowRelated {type target : NodeType} {s t : Selection} {key : String} {list : Bool}
      {query : ReadQuery} {relation : Relation} {item : Item} {field : Field}
      (hrelation : query.relation? = some relation)
      (htarget : catalog.type? relation.target = some target)
      (hitem : (t, item) ∈ s.selections.zip query.items)
      (hreads : ReadsField catalog target t item field) :
      ReadsField catalog type s (.related key list query) field
  | belowComputed {type target : NodeType} {s t : Selection} {key node name statement : String}
      {list : Bool} {call : CustomCall} {items : List Item} {item : Item} {owner field : Field}
      (howner : type.field? s.name = some owner)
      (hkind : owner.kind = .computed statement (.object name))
      (htarget : catalog.type? name = some target)
      (hitem : (t, item) ∈ s.selections.zip items)
      (hreads : ReadsField catalog target t item field) :
      ReadsField catalog type s (.computedNodes key list node call items) field

namespace Statement

-- The map that a statement returns. A count returns none.
def items : Statement → List Item
  | .read query => query.items
  | .count _ => []
  | .write _ _ items _ => items
  | .delete _ _ items _ => items

-- The fields that a statement on nodes of the type reads for its selections.
def ReadsField (catalog : Catalog) (type : NodeType) (selections : List Selection)
    (statement : Statement) (field : Field) : Prop :=
  ∃ t item, (t, item) ∈ selections.zip statement.items ∧ item.ReadsField catalog type t field

end Statement

end CypherCompiler.Cypher
