import CypherCompiler.Proofs.Lockstep.Projection
import CypherCompiler.Proofs.Outcome.Mutation

namespace CypherCompiler

open Cypher Json

namespace KeyMatch

theorem isPlain_alike {v w : Json} (h : Alike v w) : isPlain v = isPlain w := by
  cases h <;> rfl

theorem value_agree (type : NodeType) (keys : List String) (key : String) {v w : Json}
    (h : Alike v w) :
    Agree (fun p q => p.1 = q.1) (value type keys key v) (value type keys key w) := by
  unfold value
  cases type.field? key with
  | none => exact .error _
  | some field =>
      cases hscalar : field.scalar? with
      | none =>
          simp only [hscalar]
          exact .error _
      | some scalar =>
          simp only [hscalar, isPlain_alike h]
          split
          · exact .ok rfl
          · exact .error _

theorem values_agree (type : NodeType) {as bs : Json.Members} (h : AlikeMembers as bs) :
    Agree (fun p q => p.map Prod.fst = q.map Prod.fst) (values type as) (values type bs) := by
  unfold values
  rw [h.isEmpty_eq, h.keys_eq]
  split
  · exact .error _
  · rename_i hempty
    clear hempty
    generalize Members.keys bs = keys
    induction as generalizing bs with
    | nil =>
        cases h
        exact .ok rfl
    | cons a rest ih =>
        cases h with
        | cons hv hrest =>
            rw [List.mapM_cons, List.mapM_cons]
            apply (value_agree type keys _ hv).bind
            intro p q hpq
            apply (ih hrest).bind
            intro ps qs hps
            exact .ok (by rw [List.map_cons, List.map_cons, hpq, hps])

-- The keys that match a node do not depend on the values that they have.
theorem read_lockstep (type : NodeType) (path : ParameterPath) {as bs : Json.Members}
    (h : AlikeMembers as bs) : DraftsAlike Eq (read type path as) (read type path bs) := by
  unfold read
  apply (lockstep_lift (values_agree type h)).bind
  intro ps qs hps
  induction ps generalizing qs with
  | nil =>
      cases qs with
      | nil => exact lockstep_pure rfl
      | cons q rest => cases hps
  | cons p rest ih =>
      cases qs with
      | nil => cases hps
      | cons q others =>
          obtain ⟨key, v⟩ := p
          obtain ⟨_, w⟩ := q
          simp only [List.map_cons, List.cons.injEq] at hps
          obtain ⟨rfl, hothers⟩ := hps
          rw [List.mapM_cons, List.mapM_cons]
          apply ((Drafting.value_lockstep _ _ _).andThen fun _ => lockstep_pure rfl).andThen
          intro entry
          exact (ih others hothers).andThen fun _ => lockstep_pure rfl

theorem readArgument_lockstep (type : NodeType) (path : ParameterPath) {s t : Selection}
    (h : s.Alike t) (name : String) :
    DraftsAlike Eq (readArgument type path (s.argument? name))
      (readArgument type path (t.argument? name)) := by
  unfold readArgument
  obtain ⟨hs, ht⟩ | ⟨v, w, hs, ht, hvw⟩ := h.argument?_cases name
  · rw [hs, ht]
    exact read_lockstep type path .nil
  · rw [hs, ht]
    cases hvw with
    | obj hmembers => exact read_lockstep type path hmembers
    | _ => exact read_lockstep type path .nil

end KeyMatch

namespace Mutation

theorem property?_lockstep (type : NodeType) (path : ParameterPath) (key : String)
    (v w : Json) : DraftsAlike Eq (property? type path key v) (property? type path key w) := by
  unfold property?
  cases type.field? key with
  | none => exact lockstep_throw _
  | some field =>
      simp only
      cases field.kind with
      | scalar scalar =>
          exact (Drafting.value_lockstep _ _ _).andThen fun _ => lockstep_pure rfl
      | compound compound =>
          exact (Drafting.value_lockstep _ _ _).andThen fun _ => lockstep_pure rfl
      | relationship relation => exact lockstep_pure rfl
      | computed statement returns => exact lockstep_throw _

theorem properties_lockstep (type : NodeType) (path : ParameterPath) (skip : List String)
    {as bs : Json.Members} (h : AlikeMembers as bs) :
    DraftsAlike Eq (properties type path skip as) (properties type path skip bs) := by
  induction as generalizing bs with
  | nil =>
      cases h
      exact lockstep_pure rfl
  | cons a rest ih =>
      cases h with
      | cons _ hrest =>
          rw [properties, properties]
          split
          · exact ih hrest
          · exact (property?_lockstep type path _ _ _).andThen fun _ =>
              (ih hrest).andThen fun _ => lockstep_pure rfl

theorem createRelated_lockstep (parent node : String) (relation : Relation) (target : NodeType)
    (path : ParameterPath) {as bs : Json.Members} (h : AlikeMembers as bs) :
    DraftsAlike Eq (createRelated parent node relation target path as)
      (createRelated parent node relation target path bs) := by
  unfold createRelated
  exact (properties_lockstep target path [] h).andThen fun _ => lockstep_pure rfl

-- Objects of the same shape, one by one.
inductive AlikeObjects : List Json.Members → List Json.Members → Prop
  | nil : AlikeObjects [] []
  | cons {as bs : Json.Members} {more others : List Json.Members} (h : AlikeMembers as bs)
      (hrest : AlikeObjects more others) : AlikeObjects (as :: more) (bs :: others)

theorem asObjects_alike {as bs : List Json} (h : AlikeItems as bs) :
    (as.mapM asObject? = none ∧ bs.mapM asObject? = none) ∨
      ∃ os ps, as.mapM asObject? = some os ∧ bs.mapM asObject? = some ps ∧ AlikeObjects os ps := by
  induction as generalizing bs with
  | nil =>
      cases h
      exact .inr ⟨[], [], rfl, rfl, .nil⟩
  | cons a rest ih =>
      cases h with
      | cons ha hrest =>
          rw [List.mapM_cons, List.mapM_cons]
          cases ha with
          | obj hmembers =>
              obtain ⟨hs, ht⟩ | ⟨os, ps, hs, ht, hos⟩ := ih hrest
              · exact .inl ⟨by simp [asObject?, hs], by simp [asObject?, ht]⟩
              · exact .inr ⟨_ :: os, _ :: ps, by simp [asObject?, hs], by simp [asObject?, ht],
                  .cons hmembers hos⟩
          | _ => exact .inl ⟨rfl, rfl⟩

theorem relatedItems_agree (field : Field) {v w : Json} (h : Alike v w) :
    Agree AlikeObjects (relatedItems field v) (relatedItems field w) := by
  cases h with
  | obj hmembers => exact .ok (.cons hmembers .nil)
  | arr hitems =>
      simp only [relatedItems]
      obtain ⟨hs, ht⟩ | ⟨os, ps, hs, ht, hos⟩ := asObjects_alike hitems
      · rw [hs, ht]
        cases field.list with
        | true => exact .error _
        | false => exact .error _
      · rw [hs, ht]
        cases field.list with
        | true => exact .ok hos
        | false => exact .error _
  | _ => exact .error _

theorem matchEach_lockstep (operation : NestedOperation)
    (clause : String → List (String × String) → Cypher.Clause) (base : String)
    (target : NodeType) (path : ParameterPath) (index : Nat) {os ps : List Json.Members}
    (h : AlikeObjects os ps) :
    DraftsAlike Eq (matchEach operation clause base target path index os)
      (matchEach operation clause base target path index ps) := by
  induction os generalizing ps index with
  | nil =>
      cases h
      exact lockstep_pure rfl
  | cons o rest ih =>
      cases h with
      | cons hmembers hrest =>
          rw [matchEach, matchEach]
          exact (Drafting.claim_lockstep _).andThen fun _ =>
            (KeyMatch.read_lockstep target _ hmembers).andThen fun _ =>
              (ih (index + 1) hrest).andThen fun _ => lockstep_pure rfl

theorem areNamedBy_alike (target : NodeType) {as bs : Json.Members} (h : AlikeMembers as bs) :
    NestedOperation.areNamedBy as target = NestedOperation.areNamedBy bs target := by
  unfold NestedOperation.areNamedBy
  rw [h.isEmpty_eq, h.all_eq fun _ _ _ _ => rfl]

variable {catalog : Catalog}

mutual

-- Which clauses a relationship gets is a question of the shape of its input.
theorem relations_lockstep (type : NodeType) (node : String) (level : Level)
    (path : ParameterPath) (skip : List String) (as bs : List (String × Json))
    (h : AlikeMembers as bs) :
    DraftsAlike Eq (relations catalog type node level path skip as)
      (relations catalog type node level path skip bs) := by
  match as, bs, h with
  | [], [], .nil =>
      rw [relations]
      exact lockstep_pure rfl
  | (key, v) :: as, (_, w) :: bs, .cons hv hrest =>
      have hothers := relations_lockstep type node level path skip as bs hrest
      rw [relations, relations]
      simp only [hv.isNull_eq]
      cases (type.field? key).filter fun _ => !skip.contains key && !w.isNull with
      | none =>
          exact (lockstep_pure rfl).andThen fun _ => hothers.andThen fun _ => lockstep_pure rfl
      | some field =>
          simp only
          cases field.relation? with
          | none =>
              exact (lockstep_pure rfl).andThen fun _ => hothers.andThen fun _ => lockstep_pure rfl
          | some relation =>
              exact (relationInput_lockstep field relation node level path v w hv).andThen
                fun _ => hothers.andThen fun _ => lockstep_pure rfl
termination_by sizeOf as

theorem relationInput_lockstep (field : Field) (relation : Relation) (node : String)
    (level : Level) (path : ParameterPath) (v w : Json) (h : Alike v w) :
    DraftsAlike Eq (relationInput catalog field relation node level path v)
      (relationInput catalog field relation node level path w) := by
  have hitems := relatedItems_agree field h
  rw [relationInput.eq_def, relationInput.eq_def]
  apply (lockstep_shared _).andThen
  intro target
  cases h with
  | obj hmembers =>
      simp only [areNamedBy_alike target hmembers]
      split
      · split
        · exact (lockstep_throw _).andThen fun _ =>
            operations_lockstep field relation target node level _ _ _ hmembers
        · exact operations_lockstep field relation target node level _ _ _ hmembers
      · split
        · exact lockstep_throw _
        · apply (Drafting.claim_lockstep _).andThen
          intro child
          apply (createRelated_lockstep node child relation target _ hmembers).andThen
          intro clause
          exact (relations_lockstep target child .nested _ [] _ _ hmembers).andThen
            fun _ => lockstep_pure rfl
  | arr harr =>
      have hcreate := createEach_lockstep relation target node node field.name path 0 _ _ harr
      simp only
      split
      · exact (lockstep_throw _).andThen fun _ =>
          (lockstep_lift hitems).bind fun _ _ _ => hcreate
      · exact (lockstep_lift hitems).bind fun _ _ _ => hcreate
  | _ => exact lockstep_throw _
termination_by sizeOf v

theorem operations_lockstep (field : Field) (relation : Relation) (target : NodeType)
    (node : String) (level : Level) (path : ParameterPath) (as bs : List (String × Json))
    (h : AlikeMembers as bs) :
    DraftsAlike Eq (operations catalog field relation target node level path as)
      (operations catalog field relation target node level path bs) := by
  match as, bs, h with
  | [], [], .nil =>
      rw [operations]
      exact lockstep_pure rfl
  | (key, v) :: as, (_, w) :: bs, .cons hv hrest =>
      have hothers := operations_lockstep field relation target node level path as bs hrest
      rw [operations, operations]
      apply (lockstep_lift (relatedItems_agree field hv)).bind
      intro os ps hos
      have hafter (here : List Clause) : DraftsAlike Eq
          (do return here ++ (← operations catalog field relation target node level path as))
          (do return here ++ (← operations catalog field relation target node level path bs)) :=
        hothers.andThen fun _ => lockstep_pure rfl
      cases NestedOperation.ofName? key with
      | none => exact (lockstep_throw _).andThen hafter
      | some operation =>
          cases operation with
          | create =>
              cases hv with
              | obj hmembers =>
                  apply (Drafting.claim_lockstep _).andThen
                  intro child
                  apply (createRelated_lockstep node child relation target _ hmembers).andThen
                  intro clause
                  apply (relations_lockstep target child .nested _ [] _ _ hmembers).andThen
                  intro nested
                  exact (lockstep_pure rfl).andThen hafter
              | arr hitems =>
                  exact (createEach_lockstep relation target node _ key path 0 _ _
                    hitems).andThen hafter
              | _ => exact (lockstep_pure rfl).andThen hafter
          | connect =>
              simp only [connectEach_eq]
              exact (matchEach_lockstep _ _ _ target path 0 hos).andThen hafter
          | disconnect =>
              simp only [disconnectEach_eq]
              split
              · exact (lockstep_throw _).andThen hafter
              · exact (matchEach_lockstep _ _ _ target path 0 hos).andThen hafter
termination_by sizeOf as

-- Entries that are no objects count in both runs.
theorem createEach_lockstep (relation : Relation) (target : NodeType)
    (parent base key : String) (path : ParameterPath) (index : Nat) (as bs : List Json)
    (h : AlikeItems as bs) :
    DraftsAlike Eq (createEach catalog relation target parent base key path index as)
      (createEach catalog relation target parent base key path index bs) := by
  match as, bs, h with
  | [], [], .nil =>
      rw [createEach]
      exact lockstep_pure rfl
  | a :: as, b :: bs, .cons hitem hrest =>
      have hothers := createEach_lockstep relation target parent base key path (index + 1) as bs
        hrest
      cases hitem with
      | obj hmembers =>
          rw [createEach, createEach]
          apply (Drafting.claim_lockstep _).andThen
          intro child
          apply (createRelated_lockstep parent child relation target _ hmembers).andThen
          intro clause
          apply (relations_lockstep target child .nested _ [] _ _ hmembers).andThen
          intro nested
          exact hothers.andThen fun _ => lockstep_pure rfl
      | _ => exact hothers
termination_by sizeOf as

end

variable {strict : Bool} {ps qs : Json.Members} {s t : Selection}

theorem data_agree (h : s.Alike t) : Agree AlikeMembers (data s) (data t) := by
  unfold data
  obtain ⟨hs, ht⟩ | ⟨v, w, hs, ht, hvw⟩ := h.argument?_cases Argument.data
  · rw [hs, ht]
    exact .error _
  · rw [hs, ht]
    cases hvw with
    | obj hmembers => exact .ok hmembers
    | _ => exact .error _

theorem result_lockstep (h : s.Alike t) (type : NodeType) (node : String) :
    DraftsAlike Eq (result ⟨catalog, strict, ps⟩ type node s)
      (result ⟨catalog, strict, qs⟩ type node t) := by
  unfold result
  apply (Selection.planSelections_lockstep h.selections node type.name).andThen
  intro plan
  exact Selection.projectAll_lockstep type node plan _ _ h.selections

theorem create_lockstep (h : s.Alike t) (type : NodeType) (node : String) :
    DraftsAlike Eq (create ⟨catalog, strict, ps⟩ type node s)
      (create ⟨catalog, strict, qs⟩ type node t) := by
  unfold create
  rw [h.responseKey_eq]
  apply (lockstep_lift (data_agree h)).bind
  intro as bs hmembers
  apply (properties_lockstep type dataPath [] hmembers).andThen
  intro written
  apply (relations_lockstep type node .created dataPath [] as bs hmembers).andThen
  intro related
  exact (result_lockstep h type node).andThen fun _ => lockstep_pure rfl

theorem change_lockstep (h : s.Alike t) (type : NodeType) (node : String) (merge : Bool) :
    DraftsAlike Eq (change ⟨catalog, strict, ps⟩ type node merge s)
      (change ⟨catalog, strict, qs⟩ type node merge t) := by
  unfold change
  rw [h.responseKey_eq]
  apply (KeyMatch.readArgument_lockstep type keyPath h Argument.key).andThen
  intro keys
  apply (lockstep_lift (data_agree h)).bind
  intro as bs hmembers
  apply (properties_lockstep type dataPath _ hmembers).andThen
  intro written
  apply (relations_lockstep type node .changed dataPath _ as bs hmembers).andThen
  intro related
  exact (result_lockstep h type node).andThen fun _ => lockstep_pure rfl

theorem delete_lockstep (h : s.Alike t) (type : NodeType) (node : String) :
    DraftsAlike Eq (delete ⟨catalog, strict, ps⟩ type node s)
      (delete ⟨catalog, strict, qs⟩ type node t) := by
  unfold delete
  rw [h.responseKey_eq]
  apply (KeyMatch.readArgument_lockstep type keyPath h Argument.key).andThen
  intro keys
  apply (Drafting.claim_lockstep _).andThen
  intro deleted
  exact (result_lockstep h type node).andThen fun _ => lockstep_pure rfl

theorem statement_lockstep (h : s.Alike t) (type : NodeType) (operation : Operation) :
    DraftsAlike Eq (Mutation.statement ⟨catalog, strict, ps⟩ type operation s)
      (Mutation.statement ⟨catalog, strict, qs⟩ type operation t) := by
  unfold Mutation.statement
  rw [h.arguments.members.keys_eq, h.name_eq]
  apply (Drafting.reserve_lockstep _).andThen
  intro _
  cases t.arguments.keys.find? (!(allowedArguments operation).contains ·) with
  | some name => exact lockstep_throw _
  | none =>
      cases operation with
      | create => exact create_lockstep h type _
      | update => exact change_lockstep h type _ false
      | merge => exact change_lockstep h type _ true
      | delete => exact delete_lockstep h type _
      | query => exact lockstep_throw _
      | count => exact lockstep_throw _

end Mutation

end CypherCompiler
