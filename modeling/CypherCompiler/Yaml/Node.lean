import CypherCompiler.Yaml.Token

namespace CypherCompiler.Yaml

structure Scalar where
  text : String
  style : Style
  tag : Option String
  deriving DecidableEq, Repr

-- A value of a document. Anchored nodes are numbered, and a reference stands for one of them.
inductive Node where
  | scalar (s : Scalar)
  | seq (items : List Node)
  | map (entries : List (Node × Node))
  | reference (number : Nat)
  deriving Repr

-- What stands where a value is left out.
def Node.absent : Node := .scalar ⟨"", .plain, none⟩

-- A document with its anchored nodes. A node may hold a reference to itself.
structure Document where
  root : Node
  anchored : List (Nat × Node)
  deriving Repr

end CypherCompiler.Yaml
