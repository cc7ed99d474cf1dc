import CypherCompiler.Cypher.Condition

namespace CypherCompiler.Cypher

-- A call of a full-text index, which binds the nodes found and how well they match.
structure SearchCall where
  index : String
  parameter : String
  node : String
  score : String
  deriving DecidableEq, Repr

-- The nodes that a statement reads: those of the pattern that meet every condition.
structure Source where
  search : Option SearchCall
  pattern : Pattern
  conditions : List Condition
  deriving Repr

-- What rows are ordered by.
inductive OrderRead where
  | property (node field : String)
  | nodeId (node : String)
  | score (name : String)
  deriving DecidableEq, Repr

structure OrderTerm where
  read : OrderRead
  descending : Bool
  deriving DecidableEq, Repr

-- The parameters that bound the rows, as far as there are bounds.
structure Window where
  skip : Option String
  limit : Option String
  deriving DecidableEq, Repr

-- One entry of the map shown for a compound value.
inductive Part where
  | constituent (key constituent : String)
  | formatted (key : String)
  deriving DecidableEq, Repr

-- What a name stands for inside a custom statement.
inductive Binding where
  | node (name : String)
  | parameter (name : String)
  | null
  deriving DecidableEq, Repr

-- A call of a custom statement with everything that is bound in it.
structure CustomCall where
  statement : String
  bindings : List (String × Binding)
  deriving DecidableEq, Repr

mutual

-- One entry of the map shown for a node. A single related node or computed value is the
-- first of a list.
inductive Item where
  | shorthand (field : String)
  | typeName (key type : String)
  | nodeId (key node : String)
  | property (key node field : String)
  | compound (key node field : String) (parts : List Part)
  | related (key : String) (list : Bool) (query : ReadQuery)
  | computed (key : String) (list : Bool) (call : CustomCall)
  | computedNodes (key : String) (list : Bool) (node : String) (call : CustomCall)
      (items : List Item)

-- A read statement, on its own or inside another one. It returns a map of the items of the
-- node `node` under `key`.
structure ReadQuery where
  source : Source
  node : String
  items : List Item
  key : String
  order : List OrderTerm
  window : Window

end

-- A count of nodes, in groups if a property is given.
structure CountQuery where
  source : Source
  node : String
  group : Option (String × String)
  key : String
  deriving Repr

-- What is written into a property: a parameter, or a compound value built from one.
inductive Written where
  | parameter (name : String)
  | compound (compound : Compound) (name : String)
  | compounds (compound : Compound) (name : String)
  deriving DecidableEq, Repr

-- A node with the properties that are written or matched.
structure NodeWith (α : Type) where
  name : String
  labels : List String
  properties : List (String × α)
  deriving DecidableEq, Repr

-- The clauses of a mutation before its result. Keys match with the parameters given.
inductive Clause where
  | create (node : NodeWith Written)
  | createRelated (parent : String) (relation : Relation) (node : NodeWith Written)
  | find (node : NodeWith String)
  | merge (node : NodeWith String)
  | set (node : String) (properties : List (String × Written))
  | connect (parent : String) (relation : Relation) (node : NodeWith String)
  | disconnect (parent : String) (relation : Relation) (edge : String) (labels : List String)
      (keys : List (String × String))
  deriving DecidableEq, Repr

inductive Statement where
  | read (query : ReadQuery)
  | count (query : CountQuery)
  | write (clauses : List Clause) (node : String) (items : List Item) (key : String)
  | delete (node : NodeWith String) (deleted : String) (items : List Item) (key : String)

end CypherCompiler.Cypher
