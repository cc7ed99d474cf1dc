import CypherCompiler.Compilation.Basic
import CypherCompiler.Proofs.Creation.Objects
import CypherCompiler.Proofs.Filter.Lenient
import CypherCompiler.Proofs.Handover.Uses
import CypherCompiler.Proofs.Supply.Mutation
import CypherCompiler.Proofs.Traversal.Shown

namespace CypherCompiler

-- A value as it stands in a request, with what it is given for.
structure GivenValue where
  subject : Subject
  purpose : Purpose
  value : Json

namespace GivenValue

-- The test that an argument of a read field asks for.
def ofTest (type : NodeType) (name : String) (v : Json) : List GivenValue :=
  if name = Argument.nodeId then [⟨.nodeId type.name, .compared .eq, v⟩]
  else (type.field? name).toList.map fun field =>
    ⟨.property type.name name, .compared (field.testedWith v), v⟩

-- Other arguments, and those whose value a test cannot be made with, give none.
def ofArgument (type : NodeType) (name : String) (v : Json) : List GivenValue :=
  if Argument.reserved.contains name || v.isNull || !type.fitsTest name v then []
  else ofTest type name v

-- The members of an object of the data that are stored.
def written (type : NodeType) (members : Json.Members) : List GivenValue :=
  (CreatedObject.stored type members).map fun (key, v) => ⟨.property type.name key, .written, v⟩

-- The members of an object that identifies a node.
def matched (type : NodeType) (members : Json.Members) : List GivenValue :=
  members.map fun (key, v) => ⟨.property type.name key, .matched, v⟩

section

variable (catalog : Catalog)

mutual

-- The values in a filter object for the nodes of the type, and for those related to them.
def ofFilter (type : NodeType) : List (String × Json) → List GivenValue
  | [] => []
  | (key, v) :: rest => ofFilterMember type key v ++ ofFilter type rest

def ofFilterMember (type : NodeType) (key : String) (v : Json) : List GivenValue :=
  match FilterKey.read? type key with
  | some (.combinator .not) =>
    match v with
    | .obj members => ofFilter type members
    | _ => []
  | some (.combinator _) =>
    match v with
    | .arr items => ofFilterItems type items
    | _ => []
  | some (.comparison field op) =>
    if v.isNull then [] else [⟨.property type.name field.name, .compared op, v⟩]
  | some (.relationship _ relation _) =>
    match catalog.type? relation.target, v with
    | some target, .obj members => ofFilter target members
    | _, _ => []
  | none => []

def ofFilterItems (type : NodeType) : List Json → List GivenValue
  | [] => []
  | .obj members :: rest => ofFilter type members ++ ofFilterItems type rest
  | _ :: rest => ofFilterItems type rest

end

-- The values by which a read field picks its nodes.
def ofTests (type : NodeType) (s : Selection) : List GivenValue :=
  s.arguments.flatMap (fun a => ofArgument type a.1 a.2) ++
    match s.argument? Argument.filter with
    | some (.obj members) => ofFilter catalog type members
    | _ => []

mutual

-- The values below a field that is selected on the nodes of the type, together with `siblings`.
def ofSelection (type : NodeType) (siblings : List Selection) : Selection → List GivenValue
  | s@⟨name, _, _, selections⟩ =>
    if name = typeNameField ∨ name = Argument.nodeId then []
    else
      match (type.field? name).map Field.kind with
      | some (.relationship _) =>
        match (type.selectedRelation? siblings s.responseKey).bind (catalog.type? ·.target) with
        | some target => ofTests catalog target s ++ ofSelections target selections selections
        | none => []
      | some (.computed _ (.object target)) =>
        match catalog.type? target with
        | some target => ofSelections target selections selections
        | none => []
      | _ => []

def ofSelections (type : NodeType) (siblings : List Selection) :
    List Selection → List GivenValue
  | [] => []
  | s :: rest => ofSelection type siblings s ++ ofSelections type siblings rest

end

mutual

-- The values for the nodes that an object of the data creates below its own, and that it
-- connects or disconnects.
def ofRelated (type : NodeType) : List (String × Json) → List GivenValue
  | [] => []
  | (key, v) :: rest =>
    (match CreatedObject.related? catalog type key with
      | some (_, target) => ofInput target v
      | none => []) ++ ofRelated type rest

def ofInput (target : NodeType) : Json → List GivenValue
  | .obj members =>
    if NestedOperation.areNamedBy members target then ofOperations target members
    else written target members ++ ofRelated target members
  | .arr items => ofObjects target items
  | _ => []

def ofOperations (target : NodeType) : List (String × Json) → List GivenValue
  | [] => []
  | (key, v) :: rest =>
    (if key = NestedOperation.create.name then
      match v with
      | .obj members => written target members ++ ofRelated target members
      | .arr items => ofObjects target items
      | _ => []
    else v.objects.flatMap (matched target)) ++ ofOperations target rest

def ofObjects (target : NodeType) : List Json → List GivenValue
  | [] => []
  | .obj members :: rest =>
    written target members ++ ofRelated target members ++ ofObjects target rest
  | _ :: rest => ofObjects target rest

end

end

end GivenValue

-- Subjects of the type `ID`, and the numbers that the database gives.
def Subject.IsId (catalog : Catalog) : Subject → Prop
  | .property typeName key => ∃ type field, catalog.type? typeName = some type ∧
      type.field? key = some field ∧ field.kind = .scalar .id
  | .nodeId _ => True

-- The use of a given value. Values for ids are handed over as text.
structure HandedOver (catalog : Catalog) (ps : Parameters) (given : GivenValue)
    (use : ValueUse) : Prop where
  subject : use.subject = some given.subject
  purpose : use.purpose = given.purpose
  text : given.subject.IsId catalog →
    ps.get? use.parameter = some (Scalar.id.normalize given.value)

-- The object under an argument of the field.
def Selection.members (s : Selection) (name : String) : Json.Members :=
  ((s.argument? name).bind Json.asObject?).getD []

-- The values under the requested field, in the order of the statement. A merge takes no data for
-- the keys that it matches on.
def GivenValue.ofField (catalog : Catalog) (type : NodeType) (operation : Operation)
    (s : Selection) : List GivenValue :=
  let tests := ofTests catalog type s
  let keys := matched type (s.members Argument.key)
  let data (skip : List String) :=
    let looked := Mutation.unskipped skip (s.members Argument.data)
    written type looked ++ ofRelated catalog type looked
  let shown := ofSelections catalog type s.selections s.selections
  match operation with
  | .query => tests ++ shown
  | .count => tests
  | .create => data [] ++ shown
  | .update => keys ++ data [] ++ shown
  | .merge => keys ++ data (s.members Argument.key).keys ++ shown
  | .delete => keys ++ shown

-- All values of a request that are compared with, matched on or written to a property, or compared
-- with the number of a node.
def Request.givenValues (r : Request) (catalog : Catalog) (config : Config) : List GivenValue :=
  match r.rootType catalog config with
  | .ok type => GivenValue.ofField catalog type r.operation r.field
  | .error _ => []

end CypherCompiler
