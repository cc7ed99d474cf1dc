import CypherCompiler.Compilation.Projection

namespace CypherCompiler

open Cypher

-- The operations on related nodes that a relationship input may name.
inductive NestedOperation where
  | create
  | connect
  | disconnect
  deriving DecidableEq, Repr

namespace NestedOperation

def name : NestedOperation → String
  | .create => "create"
  | .connect => "connect"
  | .disconnect => "disconnect"

def ofName? (s : String) : Option NestedOperation :=
  [.create, .connect, .disconnect].find? (·.name == s)

-- An object names operations if every key does and none of them is a field of the related
-- type. The empty object names none.
def areNamedBy (members : Json.Members) (target : NodeType) : Bool :=
  !members.isEmpty &&
    members.all fun (key, _) => (ofName? key).isSome && (target.field? key).isNone

end NestedOperation

-- Match one node by its keys. Each of them has to tell the node from all others, and to be
-- given as a plain value.
namespace KeyMatch

def isPlain : Json → Bool
  | .str _ | .number _ | .bool _ => true
  | _ => false

def value (type : NodeType) (keys : List String) (key : String) (v : Json) :
    Except RequestError (String × Json) :=
  match type.field? key with
  | none => .error (.invalidFilterField key)
  | some field =>
    match field.scalar? with
    | some scalar =>
      if isPlain v && type.isUniqueKey key then .ok (key, scalar.normalize v)
      else .error (.ambiguousMatch type.name (String.intercalate ", " keys))
    | none => .error (.ambiguousMatch type.name (String.intercalate ", " keys))

def values (type : NodeType) (members : Json.Members) :
    Except RequestError (List (String × Json)) :=
  if members.isEmpty then .error (.ambiguousMatch type.name "")
  else members.mapM fun (key, v) => value type members.keys key v

-- Every key is checked before the first value is taken out.
def read (type : NodeType) (path : ParameterPath) (members : Json.Members) :
    Drafting (List (String × String)) := do
  let checked ← values type members
  checked.mapM fun (key, v) => do return (key, ← Drafting.value (path.child key) v)

-- The keys of an argument, which has to be an object.
def readArgument (type : NodeType) (path : ParameterPath) (argument : Option Json) :
    Drafting (List (String × String)) :=
  read type path ((argument.bind Json.asObject?).getD [])

end KeyMatch

namespace Mutation

-- The property written by one member of the data, or nothing for a relationship.
def property? (type : NodeType) (path : ParameterPath) (key : String) (v : Json) :
    Drafting (Option (String × Written)) := do
  match type.field? key with
  | none => throw (.invalidInputField key)
  | some field =>
    match field.kind with
    | .scalar scalar =>
      let name ← Drafting.value (path.child key) (scalar.normalize v)
      return some (key, .parameter name)
    | .compound compound =>
      let name ← Drafting.value (path.child key) v
      return some (key, if field.list then .compounds compound name else .compound compound name)
    | .relationship _ => return none
    | .computed .. => throw (.invalidInputField key)

-- The properties written by the data. Keys to be skipped are not looked at.
def properties (type : NodeType) (path : ParameterPath) (skip : List String) :
    List (String × Json) → Drafting (List (String × Written))
  | [] => return []
  | (key, v) :: rest => do
    if skip.contains key then properties type path skip rest
    else
      let p ← property? type path key v
      return p.toList ++ (← properties type path skip rest)

-- The node created for one object below `parent`.
def createRelated (parent node : String) (relation : Relation) (target : NodeType)
    (path : ParameterPath) (members : Json.Members) : Drafting Clause := do
  let written ← properties target path [] members
  return .createRelated parent relation ⟨node, target.labels, written⟩

-- A list of objects is taken for a field of many nodes only.
def relatedItems (field : Field) : Json → Except RequestError (List Json.Members)
  | .obj members => .ok [members]
  | .arr items =>
    match field.list, items.mapM Json.asObject? with
    | true, some objects => .ok objects
    | _, _ => .error (.invalidInputField field.name)
  | _ => .error (.invalidInputField field.name)

-- Give one edge to each of the existing nodes found by their keys.
def connectEach (parent base : String) (relation : Relation) (target : NodeType)
    (path : ParameterPath) (index : Nat) : List Json.Members → Drafting (List Clause)
  | [] => return []
  | members :: rest => do
    let node ← Drafting.claim (Alias.indexed base NestedOperation.connect.name index)
    let keys ← KeyMatch.read target (path.indexed NestedOperation.connect.name index) members
    return .connect parent relation ⟨node, target.labels, keys⟩ ::
      (← connectEach parent base relation target path (index + 1) rest)

-- Take away the edge to each of the nodes found by their keys.
def disconnectEach (parent base : String) (relation : Relation) (target : NodeType)
    (path : ParameterPath) (index : Nat) : List Json.Members → Drafting (List Clause)
  | [] => return []
  | members :: rest => do
    let edge ← Drafting.claim (Alias.indexed base NestedOperation.disconnect.name index)
    let keys ← KeyMatch.read target (path.indexed NestedOperation.disconnect.name index) members
    return .disconnect parent relation edge target.labels keys ::
      (← disconnectEach parent base relation target path (index + 1) rest)

-- Where an object of the data stands: the mutated node itself may name operations, and only
-- when it is created may it hold plain objects to be created with it.
inductive Level where
  | created
  | changed
  | nested
  deriving DecidableEq, Repr

namespace Level

def allowsOperations (level : Level) : Bool := level != .nested
def allowsObjects (level : Level) : Bool := level != .changed

end Level

variable (catalog : Catalog)

mutual

-- The clauses for the relationships among the members of the data of the node `node`.
def relations (type : NodeType) (node : String) (level : Level) (path : ParameterPath)
    (skip : List String) : List (String × Json) → Drafting (List Clause)
  | [] => return []
  | (key, v) :: rest => do
    let clauses ← match (type.field? key).filter fun _ => !skip.contains key && !v.isNull with
      | none => pure []
      | some field =>
        match field.relation? with
        | none => pure []
        | some relation => relationInput field relation node level path v
    return clauses ++ (← relations type node level path skip rest)

def relationInput (field : Field) (relation : Relation) (node : String) (level : Level)
    (path : ParameterPath) (v : Json) : Drafting (List Clause) := do
  let target ← catalog.require relation.target
  match v with
  | .obj members =>
    if NestedOperation.areNamedBy members target then
      if !level.allowsOperations then throw (.invalidInputField field.name)
      operations field relation target node level (path.child field.name) members
    else if !level.allowsObjects then throw (.invalidInputField field.name)
    else
      let child ← Drafting.claim (Alias.child node field.name)
      let clause ← createRelated node child relation target (path.child field.name) members
      return clause :: (← relations target child .nested (path.child field.name) [] members)
  | .arr items =>
    if !level.allowsObjects then throw (.invalidInputField field.name)
    let _ ← relatedItems field v
    createEach relation target node node field.name path 0 items
  | _ => throw (.invalidInputField field.name)

-- The clauses for an object that names operations on the nodes related to `node`.
def operations (field : Field) (relation : Relation) (target : NodeType) (node : String)
    (level : Level) (path : ParameterPath) : List (String × Json) → Drafting (List Clause)
  | [] => return []
  | (key, v) :: rest => do
    let items ← relatedItems field v
    let base := Alias.child node field.name
    let clauses ← match NestedOperation.ofName? key with
      | some .create =>
        match v with
        | .obj members => do
          let child ← Drafting.claim (Alias.indexed base key 0)
          let clause ← createRelated node child relation target (path.indexed key 0) members
          pure (clause :: (← relations target child .nested (path.indexed key 0) [] members))
        | .arr objects => createEach relation target node base key path 0 objects
        | _ => pure []
      | some .connect => connectEach node base relation target path 0 items
      | some .disconnect =>
        if level = .created then throw (.invalidInputField key)
        else disconnectEach node base relation target path 0 items
      | none => throw (.invalidInputField key)
    return clauses ++ (← operations field relation target node level path rest)

-- Create a node for each object of a list. Names and paths count the objects.
def createEach (relation : Relation) (target : NodeType) (parent base key : String)
    (path : ParameterPath) (index : Nat) : List Json → Drafting (List Clause)
  | [] => return []
  | .obj members :: rest => do
    let child ← Drafting.claim (Alias.indexed base key index)
    let clause ← createRelated parent child relation target (path.indexed key index) members
    let nested ← relations target child .nested (path.indexed key index) [] members
    return clause :: nested ++ (← createEach relation target parent base key path (index + 1) rest)
  | _ :: rest => createEach relation target parent base key path (index + 1) rest

end

-- The arguments that an operation takes.
def allowedArguments : Operation → List String
  | .create => [Argument.data]
  | .delete => [Argument.key]
  | _ => [Argument.data, Argument.key]

def dataPath : ParameterPath := ParameterPath.root.child Argument.data
def keyPath : ParameterPath := ParameterPath.root.child Argument.key

def data (s : Selection) : Except RequestError Json.Members :=
  match s.argument? Argument.data with
  | some (.obj members) => .ok members
  | _ => .error (.invalidInputField Argument.data)

-- The map of the mutated node.
def result (setting : Setting) (type : NodeType) (node : String) (s : Selection) :
    Drafting (List Item) := do
  let plan ← planSelections setting.catalog node type.name s.selections
  Selection.projectAll setting type node plan s.selections

def create (setting : Setting) (type : NodeType) (node : String) (s : Selection) :
    Drafting Statement := do
  let members ← data s
  let written ← properties type dataPath [] members
  let related ← relations setting.catalog type node .created dataPath [] members
  let items ← result setting type node s
  return .write (.create ⟨node, type.labels, written⟩ :: related) node items s.responseKey

-- Change a node that is found by its keys. A merge creates it where there is none, and leaves
-- its keys as they are.
def change (setting : Setting) (type : NodeType) (node : String) (merge : Bool)
    (s : Selection) : Drafting Statement := do
  let keys ← KeyMatch.readArgument type keyPath (s.argument? Argument.key)
  let members ← data s
  let skip := if merge then keys.map Prod.fst else []
  let written ← properties type dataPath skip members
  let related ← relations setting.catalog type node .changed dataPath skip members
  let items ← result setting type node s
  let matched : NodeWith String := ⟨node, type.labels, keys⟩
  let found := if merge then Clause.merge matched else .find matched
  let set := if written.isEmpty then [] else [Clause.set node written]
  return .write (found :: set ++ related) node items s.responseKey

def delete (setting : Setting) (type : NodeType) (node : String) (s : Selection) :
    Drafting Statement := do
  let keys ← KeyMatch.readArgument type keyPath (s.argument? Argument.key)
  let deleted ← Drafting.claim (Alias.child node "deleted")
  let items ← result setting type node s
  return .delete ⟨node, type.labels, keys⟩ deleted items s.responseKey

-- The statement of a mutation field.
def statement (setting : Setting) (type : NodeType) (operation : Operation) (s : Selection) :
    Drafting Statement := do
  let node := Alias.root type.name
  Drafting.reserve node
  match s.arguments.keys.find? (!(allowedArguments operation).contains ·) with
  | some name => throw (.invalidInputField name)
  | none =>
    match operation with
    | .create => create setting type node s
    | .update => change setting type node false s
    | .merge => change setting type node true s
    | .delete => delete setting type node s
    | .query | .count =>
      throw (.schemaInconsistency ("`" ++ s.name ++ "` is not a mutation"))

end Mutation

end CypherCompiler
