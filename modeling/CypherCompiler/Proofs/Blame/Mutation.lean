import CypherCompiler.Proofs.Blame.Projection
import CypherCompiler.Proofs.Outcome.Mutation

namespace CypherCompiler

open Cypher Selection

variable {P : String → Prop}

theorem KeyMatch.read_blames (type : NodeType) (path : ParameterPath) (members : Json.Members) :
    Blames P (KeyMatch.read type path members) := by
  unfold KeyMatch.read
  refine .lift_bind (KeyMatch.values_faultsRequest type members).gives fun checked _ => ?_
  exact .mapM (fun _ => (Drafting.value_blames _ _).followedBy fun _ => .of_pure _) checked

namespace Mutation

theorem property?_blames (type : NodeType) (path : ParameterPath) (key : String) (v : Json) :
    Blames P (property? type path key v) := by
  unfold property?
  split
  · exact .of_throw trivial
  · split
    · exact (Drafting.value_blames _ _).followedBy fun _ => .of_pure _
    · exact (Drafting.value_blames _ _).followedBy fun _ => .of_pure _
    · exact .of_pure _
    · exact .of_throw trivial

theorem properties_blames (type : NodeType) (path : ParameterPath) (skip : List String)
    (members : List (String × Json)) : Blames P (properties type path skip members) := by
  induction members with
  | nil => exact .of_pure _
  | cons m rest ih =>
      rw [properties]
      split
      · exact ih
      · exact (property?_blames type path _ _).followedBy fun _ => ih.followedBy fun _ =>
          .of_pure _

theorem createRelated_blames (parent node : String) (relation : Relation) (target : NodeType)
    (path : ParameterPath) (members : Json.Members) :
    Blames P (createRelated parent node relation target path members) :=
  (properties_blames target path [] members).followedBy fun _ => .of_pure _

theorem matchEach_blames (operation : NestedOperation)
    (clause : String → List (String × String) → Clause) (base : String) (target : NodeType)
    (path : ParameterPath) (index : Nat) (objects : List Json.Members) :
    Blames P (matchEach operation clause base target path index objects) := by
  induction objects generalizing index with
  | nil => exact .of_pure _
  | cons members rest ih =>
      rw [matchEach]
      exact (Drafting.claim_blames _).followedBy fun _ =>
        (KeyMatch.read_blames target _ members).followedBy fun _ =>
          (ih (index + 1)).followedBy fun _ => .of_pure _

-- Claim a node for an object, create it, and go on with what it is related to.
theorem createObject_blames {β : Type} (base parent : String) (relation : Relation)
    (target : NodeType) (path : ParameterPath) (members : Json.Members)
    {nested : String → Drafting (List Clause)} (hnested : ∀ child, Blames P (nested child))
    {finish : Clause → List Clause → Drafting β}
    (hfinish : ∀ clause clauses, Blames P (finish clause clauses)) :
    Blames P (do
      let child ← Drafting.claim base
      let clause ← createRelated parent child relation target path members
      let clauses ← nested child
      finish clause clauses) :=
  (Drafting.claim_blames base).followedBy fun child =>
    (createRelated_blames parent child relation target path members).followedBy fun clause =>
      (hnested child).followedBy fun clauses => hfinish clause clauses

variable {catalog : Catalog}

mutual

-- Data never blames the schema, as each relationship leads to a type that there is.
theorem relations_blames {type : NodeType} (htype : type ∈ catalog.types) (node : String)
    (level : Level) (path : ParameterPath) (skip : List String) (members : List (String × Json)) :
    Blames P (relations catalog type node level path skip members) := by
  match members with
  | [] =>
      rw [relations]
      exact .of_pure _
  | (key, v) :: rest =>
      have hothers := relations_blames htype node level path skip rest
      have hafter (here : List Clause) : Blames P (do
          return here ++ (← relations catalog type node level path skip rest)) :=
        hothers.followedBy fun _ => .of_pure _
      rw [relations]
      cases hfield : (type.field? key).filter fun _ => !skip.contains key && !v.isNull with
      | none => exact (StepFailsOnly.of_pure _).followedBy fun _ => hafter _
      | some field =>
          have hmem := (NodeType.field?_eq_some (Option.filter_eq_some_iff.mp hfield).1).1
          simp only
          cases hrelation : field.relation? with
          | none => exact (StepFailsOnly.of_pure _).followedBy fun _ => hafter _
          | some relation =>
              exact (relationInput_blames htype hmem hrelation node level path v).followedBy
                fun _ => hafter _
termination_by sizeOf members

theorem relationInput_blames {type : NodeType} (htype : type ∈ catalog.types) {field : Field}
    (hfield : field ∈ type.fields) {relation : Relation}
    (hrelation : field.relation? = some relation) (node : String) (level : Level)
    (path : ParameterPath) (v : Json) :
    Blames P (relationInput catalog field relation node level path v) := by
  obtain ⟨target, htarget, hrequire⟩ :=
    Catalog.require_target htype hfield (Field.target?_of_relation? hrelation)
  rw [relationInput.eq_def]
  refine .lift_ok hrequire ?_
  cases v with
  | obj members =>
      have hoperations : Blames P
          (operations catalog field relation target node level (path.child field.name) members) :=
        operations_blames field relation htarget node level (path.child field.name) members
      simp only
      split
      · split
        · exact (StepFailsOnly.of_throw trivial).followedBy fun _ => hoperations
        · exact hoperations
      · split
        · exact .of_throw trivial
        · exact createObject_blames _ node relation target (path.child field.name) members
            (fun child => relations_blames htarget child .nested (path.child field.name) [] members)
            fun _ _ => .of_pure _
  | arr items =>
      have hcreate : Blames P (do
          let _ ← relatedItems field (.arr items)
          createEach catalog relation target node node field.name path 0 items) :=
        .lift_bind (relatedItems_faultsRequest field _).gives fun _ _ =>
          createEach_blames relation htarget node node field.name path 0 items
      simp only
      split
      · exact (StepFailsOnly.of_throw trivial).followedBy fun _ => hcreate
      · exact hcreate
  | _ => exact .of_throw trivial
termination_by sizeOf v

theorem operations_blames (field : Field) (relation : Relation) {target : NodeType}
    (htarget : target ∈ catalog.types) (node : String) (level : Level) (path : ParameterPath)
    (members : List (String × Json)) :
    Blames P (operations catalog field relation target node level path members) := by
  match members with
  | [] =>
      rw [operations]
      exact .of_pure _
  | (key, v) :: rest =>
      have hothers := operations_blames field relation htarget node level path rest
      have hafter (here : List Clause) : Blames P (do
          return here ++ (← operations catalog field relation target node level path rest)) :=
        hothers.followedBy fun _ => .of_pure _
      rw [operations]
      refine .lift_bind (relatedItems_faultsRequest field v).gives fun objects _ => ?_
      simp only
      cases NestedOperation.ofName? key with
      | none => exact (StepFailsOnly.of_throw trivial).followedBy fun _ => hafter _
      | some operation =>
          cases operation with
          | create =>
              cases v with
              | obj ms =>
                  exact createObject_blames _ node relation target (path.indexed key 0) ms
                    (fun child => relations_blames htarget child .nested (path.indexed key 0) [] ms)
                    fun _ _ => (StepFailsOnly.of_pure _).followedBy fun _ => hafter _
              | arr items =>
                  exact (createEach_blames relation htarget node _ key path 0 items).followedBy
                    fun _ => hafter _
              | _ => exact (StepFailsOnly.of_pure _).followedBy fun _ => hafter _
          | connect =>
              simp only [connectEach_eq]
              exact (matchEach_blames _ _ _ target path 0 objects).followedBy fun _ => hafter _
          | disconnect =>
              simp only [disconnectEach_eq]
              split
              · exact (StepFailsOnly.of_throw trivial).followedBy fun _ => hafter _
              · exact (matchEach_blames _ _ _ target path 0 objects).followedBy fun _ => hafter _
termination_by sizeOf members

theorem createEach_blames (relation : Relation) {target : NodeType}
    (htarget : target ∈ catalog.types) (parent base key : String) (path : ParameterPath)
    (index : Nat) (items : List Json) :
    Blames P (createEach catalog relation target parent base key path index items) := by
  match items with
  | [] =>
      rw [createEach]
      exact .of_pure _
  | item :: rest =>
      have hothers := createEach_blames relation htarget parent base key path (index + 1) rest
      cases item with
      | obj members =>
          rw [createEach]
          exact createObject_blames _ parent relation target (path.indexed key index) members
            (fun child => relations_blames htarget child .nested (path.indexed key index) []
              members)
            fun _ _ => hothers.followedBy fun _ => .of_pure _
      | _ => exact hothers
termination_by sizeOf items

end

variable {setting : Setting} {type : NodeType} {s : Selection}

section

variable (htype : setting.catalog.type? type.name = some type) (node : String)

include htype

theorem result_blames :
    Blames (s.Explains setting.catalog type) (result setting type node s) := by
  unfold result
  refine (planSelections_blames htype node s.selections).bind fun plan _ _ hplan => ?_
  obtain ⟨hmake, -⟩ := planSelections_cases hplan
  have hroot : setting.catalog.type? (Root.mk node type.name none).typeName = some type := htype
  exact selections_blames hroot hmake

-- What is written is read back by the selections of the mutation, which alone may be to blame.
theorem written_blames (level : Level) (skip : List String) (members : Json.Members)
    (finish : List (String × Cypher.Written) → List Clause → List Item → Statement) :
    Blames (s.Explains setting.catalog type) (do
      let written ← properties type dataPath skip members
      let related ← relations setting.catalog type node level dataPath skip members
      let items ← result setting type node s
      return finish written related items) :=
  (properties_blames type dataPath skip members).followedBy fun _ =>
    (relations_blames (Catalog.type?_eq_some htype).1 node level dataPath skip members).followedBy
      fun _ => (result_blames htype node).followedBy fun _ => .of_pure _

theorem create_blames :
    Blames (s.Explains setting.catalog type) (create setting type node s) := by
  unfold create
  exact .lift_bind (data_faultsRequest s).gives fun members _ =>
    written_blames htype node .created [] members _

theorem change_blames (merge : Bool) :
    Blames (s.Explains setting.catalog type)
      (change setting type node merge s) := by
  unfold change
  refine (KeyMatch.read_blames type keyPath _).followedBy fun keys => ?_
  exact .lift_bind (data_faultsRequest s).gives fun members _ =>
    written_blames htype node .changed _ members _

theorem delete_blames :
    Blames (s.Explains setting.catalog type) (delete setting type node s) := by
  unfold delete
  exact (KeyMatch.read_blames type keyPath _).followedBy fun _ =>
    (Drafting.claim_blames _).followedBy fun _ =>
      (result_blames htype node).followedBy fun _ => .of_pure _

theorem statement_blames {operation : Operation} (hquery : operation ≠ .query)
    (hcount : operation ≠ .count) :
    Blames (s.Explains setting.catalog type)
      (statement setting type operation s) := by
  unfold statement
  refine (Drafting.reserve_blames _).followedBy fun _ => ?_
  split
  · exact .of_throw trivial
  · cases operation with
    | create => exact create_blames htype _
    | update => exact change_blames htype _ false
    | merge => exact change_blames htype _ true
    | delete => exact delete_blames htype _
    | query => exact absurd rfl hquery
    | count => exact absurd rfl hcount

end

end Mutation

end CypherCompiler
