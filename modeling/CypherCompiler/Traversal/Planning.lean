import CypherCompiler.Error
import CypherCompiler.Filter.Predicate
import CypherCompiler.Request.Basic
import CypherCompiler.Text.Affix
import CypherCompiler.Traversal.Basic

namespace CypherCompiler

-- A plan under construction.
structure Planning where
  root : Root
  steps : List Step
  aliases : AliasRegistry

-- A hop that some part of a read field asks for: where it starts, the segment it adds to the
-- path, and the key that names its node.
structure HopRequest where
  parentPath : List String
  segment : String
  key : String
  relation : Relation
  required : Bool
  source : HopSource

namespace HopRequest

def path (r : HopRequest) : List String := r.parentPath ++ [r.segment]

-- Whether a step already stands for the hop.
def matchesStep (r : HopRequest) (s : Step) : Bool :=
  s.path == r.path && s.incoming.relation == r.relation

-- A step that is asked for once more stays required where it was required before.
def mergeInto (r : HopRequest) (s : Step) : Step :=
  { s with required := s.required || r.required, origin := s.origin.add r.source }

end HopRequest

-- Change the first element that passes the test.
def updateFirst {α : Type} (test : α → Bool) (change : α → α) : List α → List α
  | [] => []
  | a :: rest => if test a then change a :: rest else a :: updateFirst test change rest

namespace Planning

def start (root : Root) (aliases : AliasRegistry) : Planning :=
  ⟨root, [], aliases.reserve root.node⟩

-- Share the step of the hop, or open one under a fresh name. A hop whose parent has no step
-- of the same source is left out.
def add (p : Planning) (r : HopRequest) : Planning :=
  if p.steps.any r.matchesStep then
    { p with steps := updateFirst r.matchesStep r.mergeInto p.steps }
  else
    match findNode? p.root p.steps r.parentPath r.source with
    | none => p
    | some parent =>
      let (node, aliases) := p.aliases.claim (Alias.child parent r.key)
      { p with
        steps := p.steps ++
          [⟨node, r.relation.target, r.path, ⟨parent, r.relation⟩, r.required,
            HopOrigin.ofSource r.source⟩]
        aliases := aliases }

-- The hop of a selected relationship. It has to be there when its field is a single value
-- that is never absent.
def selectedHop? (type : NodeType) (s : Selection) : Option HopRequest := do
  let field ← type.field? s.name
  let relation ← field.relation?
  return ⟨[], s.responseKey, s.responseKey, relation, !field.list && field.required, .selection⟩

def addSelections (p : Planning) (type : NodeType) (selections : List Selection) : Planning :=
  (selections.filterMap (selectedHop? type)).foldl add p

-- The hop of a relationship filter, whose path includes the hop itself.
def filterHop? (hop : FilterHop) : Option HopRequest :=
  hop.path.getLast?.map fun segment =>
    ⟨hop.path.dropLast, segment, hop.field, hop.relation, true, .predicate⟩

def addFilters (p : Planning) (predicate : Predicate) : Planning :=
  (predicate.hops.filterMap filterHop?).foldl add p

-- Follow the relationships of a group-by path, from the type reached so far, and return the
-- type at its end.
def addGroupHops (catalog : Catalog) (type : NodeType) (path : List String) (p : Planning) :
    List String → Except RequestError (NodeType × Planning)
  | [] => return (type, p)
  | segment :: rest => do
    match (type.field? segment).bind Field.relation? with
    | none => throw (.invalidGroupByPath segment)
    | some relation =>
      let next := p.add ⟨path, segment, segment, relation, true, .groupBy⟩
      addGroupHops catalog (← catalog.require relation.target) (path ++ [segment]) next rest

-- The last segment of a group-by path is a stored property, all before it are relationships.
def addGroupBy (catalog : Catalog) (type : NodeType) (p : Planning) (written : String) :
    Except RequestError (GroupKey × Planning) := do
  let segments := Text.pieces written '.'
  let hops := segments.dropLast
  let last := segments.getLastD ""
  let (type, p) ← addGroupHops catalog type [] p hops
  if !((type.field? last).any (·.isProperty)) then throw (.invalidGroupByPath last)
  match findNode? p.root p.steps hops .groupBy with
  | some node => return (⟨node, last⟩, p)
  | none => throw (.schemaInconsistency ("no step for `" ++ written ++ "`"))

end Planning

-- The steps of a read field: of its selections, of its group-by path, of its filter. Later
-- parts share the steps of earlier ones.
def Plan.make (catalog : Catalog) (root : Root) (selections : List Selection)
    (groupBy : Option String) (predicate : Predicate) (aliases : AliasRegistry) :
    Except RequestError (Plan × AliasRegistry) := do
  let type ← catalog.require root.typeName
  let p := (Planning.start root aliases).addSelections type selections
  let (groupKey, p) ← match groupBy with
    | none => pure (none, p)
    | some written => do
      let (key, p) ← p.addGroupBy catalog type written
      pure (some key, p)
  let p := p.addFilters predicate
  return (⟨p.root, p.steps, groupKey⟩, p.aliases)

end CypherCompiler
