import CypherCompiler.Cypher.Statement
import CypherCompiler.Json.Writer
import CypherCompiler.Compilation.Draft
import CypherCompiler.Traversal.Resolution

namespace CypherCompiler

open Cypher

-- The index call that a search asks for. Only the root of a statement can be searched.
def Selection.searchCall (s : Selection) (root : Root) (type : NodeType)
    (path : ParameterPath) : Drafting (Option SearchCall) := do
  match s.argument? Argument.search with
  | none => return none
  | some v =>
    match type.searchIndex?, root.incoming, v with
    | some index, none, .str _ =>
      let parameter ← Drafting.value (path.child Argument.search) v
      Drafting.reserve root.node
      let score ← Drafting.claim (Alias.child root.node "score")
      return some ⟨index, parameter, root.node, score⟩
    | _, _, _ => throw (.invalidFilterField Argument.search)

namespace Plan

-- The hops of the group-by path, each of which has to continue the one before it.
def chainFrom (previous : String) : List Step → Except RequestError (List Hop)
  | [] => return []
  | s :: rest => do
    if s.incoming.parent ≠ previous then
      throw (.schemaInconsistency
        ("group-by step `" ++ s.node ++ "` does not continue `" ++ previous ++ "`"))
    return ⟨s.incoming.parent, s.incoming.relation, s.node⟩ :: (← chainFrom s.node rest)

-- The root followed by the hops of the group-by path.
def pattern (p : Plan) (type : NodeType) : Except RequestError Pattern := do
  let start := match p.root.incoming with
    | some incoming => Start.hop ⟨incoming.parent, incoming.relation, p.root.node⟩
    | none => Start.node p.root.node type.labels
  return ⟨start, ← chainFrom p.root.node p.groupBySteps⟩

-- A selected hop that has to be there and that nothing else in the statement asks for.
def isRequiredOnlyBySelection (s : Step) : Bool :=
  s.required && s.origin.selection && !s.origin.predicate && !s.origin.groupBy

-- The condition of the predicate, and the presence of every related node that is required.
def sourceConditions (p : Plan) (predicate : Predicate) :
    Except RequestError (List Condition) := do
  let stated ← if predicate.isVacuous then pure [] else do pure [← p.condition predicate]
  let required := (p.steps.filter isRequiredOnlyBySelection).map fun s =>
    Condition.leadsSomewhere ⟨s.incoming.parent, s.incoming.relation, s.node⟩
  return stated ++ required

def source (p : Plan) (type : NodeType) (predicate : Predicate) (search : Option SearchCall) :
    Except RequestError Source := do
  let pattern ← p.pattern type
  return ⟨search, pattern, ← p.sourceConditions predicate⟩

end Plan

-- A read field with its condition and the steps that it takes.
structure ReadPlan where
  predicate : Predicate
  plan : Plan

namespace Selection

-- The group-by path of a field, which has to be text.
def groupByPath (s : Selection) : Except RequestError (Option String) :=
  match s.argument? Argument.groupBy with
  | none => .ok none
  | some (.str path) => .ok (some path)
  | some v => .error (.invalidGroupByPath v.compact)

-- Read the arguments of a field, then plan its hops.
def planRead (s : Selection) (catalog : Catalog) (strict : Bool) (root : Root)
    (path : ParameterPath) (selections : List Selection) (groupBy : Option String) :
    Drafting ReadPlan := do
  let type ← catalog.require root.typeName
  let predicate ← Drafting.hoist (Predicate.ofSelection catalog type path strict s)
  let plan ← Drafting.plan (Plan.make catalog root selections groupBy predicate)
  return ⟨predicate, plan⟩

end Selection

end CypherCompiler
