import CypherCompiler.Json.Basic
import CypherCompiler.Schema.Basic

namespace CypherCompiler

inductive Operation where
  | query
  | count
  | create
  | update
  | delete
  | merge
  deriving DecidableEq, Repr

namespace Operation

def all : List Operation := [.query, .count, .create, .update, .delete, .merge]

def name : Operation → String
  | .query => "query"
  | .count => "count"
  | .create => "create"
  | .update => "update"
  | .delete => "delete"
  | .merge => "merge"

def ofName? (s : String) : Option Operation :=
  all.find? (·.name == s)

def access : Operation → Access
  | .query | .count => .read
  | .create => .create
  | .update => .update
  | .delete => .delete
  | .merge => .merge

end Operation

-- One requested field with everything below it. Arguments keep the order of the request.
structure Selection where
  name : String
  aliasName : Option String
  arguments : Json.Members
  selections : List Selection

namespace Selection

-- The key under which the field stands in the answer.
def responseKey (s : Selection) : String :=
  s.aliasName.getD s.name

-- An argument given as null counts as left out.
def argument? (s : Selection) (name : String) : Option Json :=
  (s.arguments.get? name).filter (!·.isNull)

def isLeaf (s : Selection) : Bool :=
  s.selections.isEmpty

end Selection

-- Arguments with a meaning of their own.
namespace Argument

def filter : String := "filter"
def orderBy : String := "orderBy"
def first : String := "first"
def offset : String := "offset"
def groupBy : String := "groupBy"
def search : String := "search"
def data : String := "data"
def key : String := "where"

-- The internal number of a node, as an argument and as a selected field.
def nodeId : String := "_id"

-- On a field that is read, all other arguments are equality tests.
def reserved : List String := [filter, orderBy, first, offset, groupBy, search]

end Argument

-- The scopes that a caller holds.
structure Grants where
  scopes : List String
  deriving DecidableEq, Repr

namespace Grants

-- A requirement is met when it names no scope, or one that the caller holds.
def permits (g : Grants) (required : List String) : Bool :=
  required.isEmpty || required.any g.scopes.contains

end Grants

-- One operation to compile. Counts name their type through the field; all others through
-- `typeName`. Custom statements see `cypherParams` as a parameter of their own.
structure Request where
  operation : Operation
  field : Selection
  typeName : Option String
  cypherParams : Json.Members
  grants : Grants

end CypherCompiler
