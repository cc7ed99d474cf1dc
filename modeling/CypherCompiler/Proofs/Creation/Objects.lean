import CypherCompiler.Compilation.Mutation

namespace CypherCompiler

open Cypher

-- An object of the data for which a related node is created, with the objects below it.
structure CreatedObject where
  relation : Relation
  type : NodeType
  path : ParameterPath
  members : Json.Members
  inner : List CreatedObject

namespace CreatedObject

section

variable (catalog : Catalog)

-- The relationship behind a key of the data, and the type that it leads to.
def related? (type : NodeType) (key : String) : Option (Relation × NodeType) := do
  let relation ← (type.field? key).bind Field.relation?
  return (relation, ← catalog.type? relation.target)

mutual

-- The objects right below an object of the type, in the order of the data. Only the root of
-- the data may name operations, and only a `create` among them holds objects.
def ofMembers (type : NodeType) (atRoot : Bool) (path : ParameterPath) :
    List (String × Json) → List CreatedObject
  | [] => []
  | (key, v) :: rest =>
    (match related? catalog type key with
      | none => []
      | some (relation, target) => ofInput relation target atRoot path key v) ++
        ofMembers type atRoot path rest

def ofInput (relation : Relation) (target : NodeType) (atRoot : Bool) (path : ParameterPath)
    (key : String) : Json → List CreatedObject
  | .obj members =>
    if NestedOperation.areNamedBy members target then
      if atRoot then ofOperations relation target (path.child key) members else []
    else
      [⟨relation, target, path.child key, members,
        ofMembers target false (path.child key) members⟩]
  | .arr items => ofItems relation target path key 0 items
  | _ => []

def ofOperations (relation : Relation) (target : NodeType) (path : ParameterPath) :
    List (String × Json) → List CreatedObject
  | [] => []
  | (key, v) :: rest =>
    (if key = NestedOperation.create.name then
      match v with
      | .obj members =>
        [⟨relation, target, path.indexed key 0, members,
          ofMembers target false (path.indexed key 0) members⟩]
      | .arr items => ofItems relation target path key 0 items
      | _ => []
    else []) ++ ofOperations relation target path rest

def ofItems (relation : Relation) (target : NodeType) (path : ParameterPath) (key : String)
    (index : Nat) : List Json → List CreatedObject
  | [] => []
  | .obj members :: rest =>
    ⟨relation, target, path.indexed key index, members,
      ofMembers target false (path.indexed key index) members⟩ ::
        ofItems relation target path key (index + 1) rest
  | _ :: rest => ofItems relation target path key (index + 1) rest

end

end

mutual

-- An object followed by all objects below it.
def withBelow : CreatedObject → List CreatedObject
  | ⟨relation, type, path, members, inner⟩ =>
    ⟨relation, type, path, members, inner⟩ :: preorder inner

def preorder : List CreatedObject → List CreatedObject
  | [] => []
  | o :: rest => withBelow o ++ preorder rest

end

theorem withBelow_eq (o : CreatedObject) : withBelow o = o :: preorder o.inner := by
  cases o
  rw [withBelow]

theorem preorder_append (objects others : List CreatedObject) :
    preorder (objects ++ others) = preorder objects ++ preorder others := by
  induction objects with
  | nil => rfl
  | cons o rest ih => rw [List.cons_append, preorder, preorder, ih, List.append_assoc]

-- The members of an object that are stored with its node: all but its relationships.
def stored (type : NodeType) (members : Json.Members) : Json.Members :=
  members.filter fun (key, _) => ((type.field? key).bind Field.relation?).isNone

-- The parameter of a stored member is named by the path of the object and the key.
def parameterName (path : ParameterPath) (key : String) : String := (path.child key).name

-- What is written for a stored member.
def writtenMember (type : NodeType) (path : ParameterPath) (key : String) : Written :=
  match type.field? key with
  | some field =>
    match field.compound? with
    | none => .parameter (parameterName path key)
    | some compound =>
      if field.list then .compounds compound (parameterName path key)
      else .compound compound (parameterName path key)
  | none => .parameter (parameterName path key)

-- The value that a stored member hands over.
def suppliedValue (type : NodeType) (key : String) (v : Json) : Json :=
  match (type.field? key).bind Field.scalar? with
  | some scalar => scalar.normalize v
  | none => v

def writtenMembers (type : NodeType) (path : ParameterPath) (members : Json.Members) :
    List (String × Written) :=
  (stored type members).map fun (key, _) => (key, writtenMember type path key)

def suppliedMembers (type : NodeType) (path : ParameterPath) (members : Json.Members) :
    Json.Members :=
  (stored type members).map fun (key, v) => (parameterName path key, suppliedValue type key v)

theorem stored_cons (type : NodeType) (m : String × Json) (members : Json.Members) :
    stored type (m :: members) = stored type [m] ++ stored type members :=
  List.filter_append [m] members

theorem writtenMembers_cons (type : NodeType) (path : ParameterPath) (m : String × Json)
    (members : Json.Members) :
    writtenMembers type path (m :: members) =
      writtenMembers type path [m] ++ writtenMembers type path members := by
  rw [writtenMembers, stored_cons, List.map_append]
  rfl

theorem suppliedMembers_cons (type : NodeType) (path : ParameterPath) (m : String × Json)
    (members : Json.Members) :
    suppliedMembers type path (m :: members) =
      suppliedMembers type path [m] ++ suppliedMembers type path members := by
  rw [suppliedMembers, stored_cons, List.map_append]
  rfl

-- The parameters of an object's own members.
def supplied (o : CreatedObject) : Json.Members := suppliedMembers o.type o.path o.members

end CreatedObject

-- A clause that creates a node below another one.
structure Creation where
  parent : String
  relation : Relation
  node : NodeWith Written
  deriving DecidableEq, Repr

def Cypher.Clause.creation? : Clause → Option Creation
  | .createRelated parent relation node => some ⟨parent, relation, node⟩
  | _ => none

-- A clause that connects a node with another one that there is.
inductive Cypher.Clause.IsConnect : Clause → Prop
  | intro (parent : String) (relation : Relation) (node : NodeWith String) :
      IsConnect (.connect parent relation node)

theorem Cypher.Clause.IsConnect.creation?_eq_none {clause : Clause} (h : clause.IsConnect) :
    clause.creation? = none := by
  cases h
  rfl

-- The clause that creates the node `node` for an object.
def CreatedObject.creation (o : CreatedObject) (parent node : String) : Creation :=
  ⟨parent, o.relation, ⟨node, o.type.labels, writtenMembers o.type o.path o.members⟩⟩

-- One clause for each object below the node `parent`, an object before those below it, which
-- hang off its own node.
inductive Cascade : String → List CreatedObject → List Creation → Prop
  | nil {parent : String} : Cascade parent [] []
  | cons {parent node : String} {o : CreatedObject} {rest : List CreatedObject}
      {nested more : List Creation} (hbelow : Cascade node o.inner nested)
      (hrest : Cascade parent rest more) :
      Cascade parent (o :: rest) (o.creation parent node :: nested ++ more)

namespace Cascade

variable {parent : String} {objects others : List CreatedObject} {cs ds : List Creation}

theorem append (h : Cascade parent objects cs) (k : Cascade parent others ds) :
    Cascade parent (objects ++ others) (cs ++ ds) := by
  induction h with
  | nil => exact k
  | cons hbelow _ _ ih =>
      rw [List.cons_append, List.append_assoc]
      exact .cons hbelow (ih k)

-- The clauses follow the objects in pre-order.
theorem eq_preorder (h : Cascade parent objects cs) :
    cs.map (fun c => (c.relation, c.node.labels, c.node.properties)) =
      (CreatedObject.preorder objects).map fun o =>
        (o.relation, o.type.labels, CreatedObject.writtenMembers o.type o.path o.members) := by
  induction h with
  | nil => rfl
  | @cons parent node o rest nested more _ _ hnested hmore =>
      rw [CreatedObject.preorder, CreatedObject.withBelow_eq, List.map_append, List.map_append,
        List.map_cons, List.map_cons, hnested, hmore]
      rfl

-- The node that a clause starts from is the first one or was created by an earlier clause.
theorem parent_bound (h : Cascade parent objects cs) {before after : List Creation}
    {c : Creation} (hc : cs = before ++ c :: after) :
    c.parent = parent ∨ ∃ b ∈ before, b.node.name = c.parent := by
  induction h generalizing before after with
  | nil => simp at hc
  | @cons parent node o rest nested more _ _ hnested hmore =>
      cases before with
      | nil =>
          cases hc
          exact .inl rfl
      | cons first before =>
          obtain ⟨rfl, hlater⟩ := List.cons.inj hc
          obtain ⟨between, rfl, hrest⟩ | ⟨between, rfl, hrest⟩ :=
            List.append_eq_append_iff.mp hlater
          · obtain hparent | ⟨b, hb, hname⟩ := hmore hrest
            · exact .inl hparent
            · exact .inr ⟨b, by simp [hb], hname⟩
          · -- the clause is the first one after the nested ones, or one of these
            cases between with
            | nil =>
                have hfirst : more = [] ++ c :: after := hrest.symm
                obtain hparent | ⟨b, hb, -⟩ := hmore hfirst
                · exact .inl hparent
                · cases hb
            | cons _ between =>
                cases hrest
                obtain hparent | ⟨b, hb, hname⟩ := hnested rfl
                · exact .inr ⟨_, List.mem_cons_self, hparent.symm⟩
                · exact .inr ⟨b, List.mem_cons_of_mem _ hb, hname⟩

end Cascade

end CypherCompiler
