import CypherCompiler.Cypher.Quoting
import CypherCompiler.Schema.Basic

namespace CypherCompiler.Cypher

-- One edge from a bound node to another one.
structure Hop where
  parent : String
  relation : Relation
  child : String
  deriving DecidableEq, Repr

def labelList (labels : List String) : String :=
  String.join (labels.map fun label => ":" ++ quoteIdentifier label)

def nodePattern (node : String) (labels : List String) : String :=
  "(" ++ quoteIdentifier node ++ labelList labels ++ ")"

-- The edge as seen from the node on its left.
def arrow (relation : Relation) (edge : Option String) : String :=
  let name := (edge.map quoteIdentifier).getD ""
  let body := "[" ++ name ++ ":" ++ quoteIdentifier relation.name ++ "]"
  match relation.direction with
  | .out => "-" ++ body ++ "->"
  | .into => "<-" ++ body ++ "-"

namespace Hop

-- The hop without the node it starts from.
def continuation (h : Hop) : String :=
  arrow h.relation none ++ nodePattern h.child [h.relation.target]

def render (h : Hop) : String :=
  nodePattern h.parent [] ++ h.continuation

end Hop

-- Where the pattern of a read statement starts.
inductive Start where
  | node (name : String) (labels : List String)
  | hop (hop : Hop)
  deriving DecidableEq, Repr

-- A start with the hops that follow it, each from the node before it.
structure Pattern where
  start : Start
  chain : List Hop
  deriving DecidableEq, Repr

namespace Pattern

def render (p : Pattern) : String :=
  let start := match p.start with
    | .node name labels => nodePattern name labels
    | .hop h => h.render
  start ++ String.join (p.chain.map Hop.continuation)

end Pattern

end CypherCompiler.Cypher
