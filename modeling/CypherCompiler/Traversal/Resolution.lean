import CypherCompiler.Cypher.Condition
import CypherCompiler.Error
import CypherCompiler.Traversal.Basic

namespace CypherCompiler

open Cypher

namespace Plan

def unplanned (path : List String) : RequestError :=
  .schemaInconsistency
    ("no traversal step planned for `" ++ String.intercalate "." path ++ "`")

-- The node on which a comparison reads.
def comparedNode (p : Plan) (path : List String) : Except RequestError String :=
  match p.node? path .predicate with
  | some node => .ok node
  | none => .error (unplanned path)

-- The hop of a relationship filter between the nodes that the plan gave it.
def filterHop (p : Plan) (hop : FilterHop) : Except RequestError Hop :=
  match p.step? hop.path .predicate with
  | some s => .ok ⟨s.incoming.parent, hop.relation, s.node⟩
  | none => .error (unplanned hop.path)

mutual

-- The condition that a predicate states on the nodes of a plan.
def condition (p : Plan) : Predicate → Except RequestError Condition
  | .compare c => do
    return .compare (← p.comparedNode c.path) c.target c.op c.operand
  | .all children => do return .all (← conditions p children)
  | .any children => do return .any (← conditions p children)
  | .not child => do return .not (← condition p child)
  | .related hop child => do
    let h ← p.filterHop hop
    return .related h hop.quantifier (← condition p child)

def conditions (p : Plan) : List Predicate → Except RequestError (List Condition)
  | [] => return []
  | child :: rest => do
    let c ← condition p child
    return c :: (← conditions p rest)

end

end Plan

end CypherCompiler
