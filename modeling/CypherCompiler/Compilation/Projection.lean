import CypherCompiler.Compilation.Ordering
import CypherCompiler.Compilation.Source

namespace CypherCompiler

open Cypher

-- The selected field that shows the name of the node's type.
def typeNameField : String := "__typename"

-- The name of the caller's variables inside a custom statement.
def cypherParamsName : String := "cypherParams"

-- The sub-fields of a compound value. Without a selection all of them are shown.
def Selection.parts (s : Selection) (compound : Compound) :
    Except RequestError (List Part) :=
  if s.isLeaf then .ok (compound.constituents.map fun c => .constituent c c)
  else s.selections.mapM fun sub =>
    if !compound.hasSubField sub.name then
      .error (.schemaInconsistency
        ("`" ++ compound.name ++ "` has no sub-field `" ++ sub.name ++ "`"))
    else if sub.name = Compound.formatted then .ok (.formatted sub.responseKey)
    else .ok (.constituent sub.responseKey sub.name)

-- The first argument that the field does not declare.
def Field.undeclared? (f : Field) (arguments : Json.Members) : Option String :=
  arguments.keys.find? (!f.arguments.contains ·)

-- Bind the declared arguments of a computed field. One that is left out is bound to null when
-- the statement refers to it.
def Field.bindArguments (referenced : List String) (arguments : Json.Members)
    (path : ParameterPath) : List String → Drafting (List (String × Binding))
  | [] => return []
  | name :: rest => do
    let binding ← match arguments.get? name with
      | some v => do
        let parameter ← Drafting.value (path.child name) v
        pure [(name, Binding.parameter parameter)]
      | none => pure (if referenced.contains name then [(name, Binding.null)] else [])
    return binding ++ (← bindArguments referenced arguments path rest)

-- The call of a computed field on the node `node`.
def Selection.customCall (s : Selection) (setting : Setting) (field : Field)
    (statement node : String) : Drafting CustomCall := do
  let referenced := Text.references statement
  let ambient ← if referenced.contains cypherParamsName then do
      Drafting.share cypherParamsName (.obj setting.cypherParams)
      pure [(cypherParamsName, Binding.parameter cypherParamsName)]
    else pure []
  if setting.strictArguments then
    if let some name := field.undeclared? s.arguments then throw (.invalidFilterField name)
  let path := (ParameterPath.below node).child s.responseKey
  let arguments ← Field.bindArguments referenced s.arguments path field.arguments
  return ⟨statement, ("this", .node node) :: ambient ++ arguments⟩

-- The source of a read field, with its arguments read and its hops planned.
structure ReadHead where
  type : NodeType
  plan : Plan
  source : Source
  score : Option String

def Selection.readHead (s : Selection) (setting : Setting) (root : Root)
    (path : ParameterPath) : Drafting ReadHead := do
  let type ← setting.catalog.require root.typeName
  let search ← s.searchCall root type path
  let read ← s.planRead setting.catalog setting.strictArguments root path s.selections none
  let source ← read.plan.source type read.predicate search
  return ⟨type, read.plan, source, search.map SearchCall.score⟩

-- A read statement whose items are made by `project` from the type and the plan of its root.
def Selection.readWith (s : Selection) (setting : Setting) (root : Root) (path : ParameterPath)
    (project : NodeType → Plan → Drafting (List Item)) : Drafting ReadQuery := do
  let head ← s.readHead setting root path
  let items ← project head.type head.plan
  let order ← s.orderTerms head.type root.node head.score
  let window ← Drafting.hoist (s.window path)
  return ⟨head.source, root.node, items, s.responseKey, order, window⟩

-- A plan of selections alone, from a node that is already bound.
def planSelections (catalog : Catalog) (node typeName : String) (selections : List Selection) :
    Drafting Plan :=
  Drafting.plan (Plan.make catalog ⟨node, typeName, none⟩ selections none (.all []))

mutual

-- The map entry of a selected field, read from the node `node` of the type.
def Selection.project (setting : Setting) (type : NodeType) (node : String) (plan : Plan) :
    Selection → Drafting Item
  | s@⟨name, _, _, selections⟩ => do
    let key := s.responseKey
    if name = typeNameField then return .typeName key type.name
    if name = Argument.nodeId then return .nodeId key node
    match type.field? name with
    | none =>
      throw (.schemaInconsistency ("type `" ++ type.name ++ "` has no field `" ++ name ++ "`"))
    | some field =>
      match field.kind with
      | .scalar _ =>
        if s.aliasName.isNone then return .shorthand field.name
        else return .property key node field.name
      | .compound compound => return .compound key node field.name (← s.parts compound)
      | .relationship _ =>
        match plan.selectionStep? key with
        | none =>
          throw (.schemaInconsistency ("no traversal step planned for `" ++ key ++ "`"))
        | some step =>
          let root : Root := ⟨step.node, step.typeName, some step.incoming⟩
          let query ← s.readWith setting root (.below step.node) fun target inner =>
            Selection.projectAll setting target root.node inner selections
          return .related key field.list query
      | .computed statement returns =>
        let call ← s.customCall setting field statement node
        match returns with
        | .object target =>
          if selections.isEmpty then return .computed key field.list call
          else
            let item ← Drafting.claim (Alias.child node key)
            let targetType ← setting.catalog.require target
            let inner ← planSelections setting.catalog item target selections
            let items ← Selection.projectAll setting targetType item inner selections
            return .computedNodes key field.list item call items
        | _ => return .computed key field.list call

-- The entries of a selection list, in its order.
def Selection.projectAll (setting : Setting) (type : NodeType) (node : String) (plan : Plan) :
    List Selection → Drafting (List Item)
  | [] => return []
  | s :: rest => do
    let item ← Selection.project setting type node plan s
    return item :: (← Selection.projectAll setting type node plan rest)

end

-- The read statement of a field, rooted at `root`.
def Selection.readQuery (s : Selection) (setting : Setting) (root : Root)
    (path : ParameterPath) : Drafting ReadQuery :=
  s.readWith setting root path fun type plan =>
    Selection.projectAll setting type root.node plan s.selections

-- The count of the nodes that a field reads.
def Selection.countQuery (s : Selection) (setting : Setting) (type : NodeType) :
    Drafting CountQuery := do
  let root : Root := ⟨Alias.root type.name, type.name, none⟩
  let search ← s.searchCall root type .root
  let groupBy ← s.groupByPath
  let read ← s.planRead setting.catalog setting.strictArguments root .root [] groupBy
  let source ← read.plan.source type read.predicate search
  let group := read.plan.groupKey.map fun key => (key.node, key.field)
  return ⟨source, root.node, group, s.responseKey⟩

end CypherCompiler
