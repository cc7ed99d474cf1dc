import CypherCompiler.Proofs.Outcome.Failure

namespace CypherCompiler

-- A check that blames nothing on the names of parameters.
def NeverCollides {α : Type} (x : Except RequestError α) : Prop :=
  ∀ name, x ≠ .error (.parameterCollision name)

namespace NeverCollides

variable {α β : Type}

theorem ok (a : α) : NeverCollides (.ok a) := by
  simp [NeverCollides]

theorem error {e : RequestError} (h : ∀ name, e ≠ .parameterCollision name) :
    NeverCollides (.error e : Except RequestError α) := by
  simpa [NeverCollides] using h

theorem bind {x : Except RequestError α} {f : α → Except RequestError β} (h : NeverCollides x)
    (hf : ∀ a, x = .ok a → NeverCollides (f a)) : NeverCollides (x >>= f) := by
  cases x with
  | ok a => exact hf a rfl
  | error e => exact fun name heq => h name (congrArg Except.error (Except.error.inj heq))

theorem mapM {f : α → Except RequestError β} (hf : ∀ a, NeverCollides (f a)) (as : List α) :
    NeverCollides (as.mapM f) := by
  induction as with
  | nil => exact ok []
  | cons a rest ih =>
      rw [List.mapM_cons]
      exact (hf a).bind fun _ _ => ih.bind fun _ _ => ok _

theorem of_faultsRequest {x : Except RequestError α}
    (h : FailsOnly RequestError.FaultsRequest x) : NeverCollides x :=
  fun _ he => h _ he

end NeverCollides

theorem Catalog.require_neverCollides (c : Catalog) (name : String) :
    NeverCollides (c.require name) := by
  unfold Catalog.require
  split
  · exact .ok _
  · exact .error (by simp [RequestError.ofSchema])

theorem FilterKey.read_neverCollides (type : NodeType) (key : String) :
    NeverCollides (FilterKey.read type key) :=
  .of_faultsRequest (FilterKey.read_faultsRequest type key)

namespace Planning

theorem addGroupHops_neverCollides (catalog : Catalog) (type : NodeType) (path : List String)
    (p : Planning) (segments : List String) :
    NeverCollides (addGroupHops catalog type path p segments) := by
  induction segments generalizing type path p with
  | nil => exact .ok _
  | cons segment rest ih =>
      rw [addGroupHops]
      split
      · exact .error (by simp)
      · exact (catalog.require_neverCollides _).bind fun target _ => ih target _ _

theorem addGroupBy_neverCollides (catalog : Catalog) (type : NodeType) (p : Planning)
    (written : String) : NeverCollides (p.addGroupBy catalog type written) := by
  unfold addGroupBy
  apply (addGroupHops_neverCollides catalog type [] p _).bind
  rintro ⟨last, q⟩ -
  simp only
  cases findNode? q.root q.steps (Text.pieces written '.').dropLast .groupBy with
  | none =>
      split
      · exact NeverCollides.bind (.error (by simp)) fun _ _ => .error (by simp)
      · exact .error (by simp)
  | some node =>
      split
      · exact NeverCollides.bind (.error (by simp)) fun _ _ => .ok _
      · exact .ok _

end Planning

namespace Plan

theorem make_neverCollides (catalog : Catalog) (root : Root) (selections : List Selection)
    (groupBy : Option String) (predicate : Predicate) (aliases : AliasRegistry) :
    NeverCollides (make catalog root selections groupBy predicate aliases) := by
  unfold make
  apply (catalog.require_neverCollides _).bind
  intro type _
  cases groupBy with
  | none => exact .ok _
  | some written =>
      apply (Planning.addGroupBy_neverCollides catalog type _ written).bind
      rintro ⟨key, q⟩ -
      exact .ok _

mutual

theorem condition_neverCollides (p : Plan) (predicate : Predicate) :
    NeverCollides (p.condition predicate) := by
  cases predicate with
  | compare c =>
      rw [condition]
      refine NeverCollides.bind ?_ fun _ _ => .ok _
      unfold comparedNode
      split
      · exact .ok _
      · exact .error (by simp [unplanned])
  | all children =>
      rw [condition]
      exact (conditions_neverCollides p children).bind fun _ _ => .ok _
  | any children =>
      rw [condition]
      exact (conditions_neverCollides p children).bind fun _ _ => .ok _
  | not child =>
      rw [condition]
      exact (condition_neverCollides p child).bind fun _ _ => .ok _
  | related hop child =>
      rw [condition]
      refine NeverCollides.bind ?_ fun _ _ =>
        (condition_neverCollides p child).bind fun _ _ => .ok _
      unfold filterHop
      split
      · exact .ok _
      · exact .error (by simp [unplanned])

theorem conditions_neverCollides (p : Plan) (children : List Predicate) :
    NeverCollides (p.conditions children) := by
  cases children with
  | nil => exact .ok _
  | cons child rest =>
      rw [conditions]
      exact (condition_neverCollides p child).bind fun _ _ =>
        (conditions_neverCollides p rest).bind fun _ _ => .ok _

end

theorem chainFrom_neverCollides (previous : String) (steps : List Step) :
    NeverCollides (chainFrom previous steps) := by
  induction steps generalizing previous with
  | nil => exact .ok _
  | cons s rest ih =>
      have hrest : NeverCollides (do
          return (⟨s.incoming.parent, s.incoming.relation, s.node⟩ : Cypher.Hop) ::
            (← chainFrom s.node rest)) := (ih s.node).bind fun _ _ => .ok _
      rw [chainFrom]
      split
      · refine NeverCollides.bind (.error ?_) fun _ _ => hrest
        simp
      · exact hrest

theorem source_neverCollides (p : Plan) (type : NodeType) (predicate : Predicate)
    (search : Option Cypher.SearchCall) : NeverCollides (p.source type predicate search) := by
  unfold source pattern sourceConditions
  refine ((chainFrom_neverCollides _ _).bind fun _ _ => .ok _).bind fun _ _ => ?_
  refine NeverCollides.bind ?_ fun _ _ => .ok _
  split
  · exact .ok _
  · exact (condition_neverCollides p predicate).bind fun _ _ => .ok _

end Plan

namespace Selection

theorem groupByPath_neverCollides (s : Selection) : NeverCollides s.groupByPath :=
  .of_faultsRequest s.groupByPath_faultsRequest

theorem orderTerms_neverCollides (s : Selection) (type : NodeType) (node : String)
    (score : Option String) : NeverCollides (s.orderTerms type node score) :=
  .of_faultsRequest (s.orderTerms_faultsRequest type node score)

theorem pagination_neverCollides (s : Selection) : NeverCollides (Pagination.ofSelection s) :=
  .of_faultsRequest s.pagination_faultsRequest

theorem parts_neverCollides (s : Selection) (compound : Compound) :
    NeverCollides (s.parts compound) := by
  unfold parts
  split
  · exact .ok _
  · apply NeverCollides.mapM
    intro sub
    split
    · exact .error (by simp)
    · split <;> exact .ok _

mutual

theorem authorize_neverCollides (catalog : Catalog) (grants : Grants) (type : NodeType)
    (s : Selection) : NeverCollides (s.authorize catalog grants type) := by
  cases s with
  | mk name aliasName arguments selections =>
      rw [authorize]
      split
      · exact .ok _
      · split
        · exact .error (by simp)
        · split
          · exact .ok _
          · exact (catalog.require_neverCollides _).bind fun target _ =>
              authorizeAll_neverCollides catalog grants target selections

theorem authorizeAll_neverCollides (catalog : Catalog) (grants : Grants) (type : NodeType)
    (selections : List Selection) :
    NeverCollides (authorizeAll catalog grants type selections) := by
  cases selections with
  | nil => exact .ok _
  | cons s rest =>
      rw [authorizeAll]
      exact (authorize_neverCollides catalog grants type s).bind fun _ _ =>
        authorizeAll_neverCollides catalog grants type rest

end

end Selection

theorem KeyMatch.values_neverCollides (type : NodeType) (members : Json.Members) :
    NeverCollides (KeyMatch.values type members) :=
  .of_faultsRequest (KeyMatch.values_faultsRequest type members)

namespace Mutation

theorem relatedItems_neverCollides (field : Field) (v : Json) :
    NeverCollides (relatedItems field v) :=
  .of_faultsRequest (relatedItems_faultsRequest field v)

theorem data_neverCollides (s : Selection) : NeverCollides (data s) :=
  .of_faultsRequest (data_faultsRequest s)

end Mutation

namespace Request

theorem rootType_neverCollides (r : Request) (catalog : Catalog) (config : Config) :
    NeverCollides (r.rootType catalog config) := by
  unfold rootType
  split
  · split
    · exact .ok _
    · exact .error (by simp)
  · split
    · exact catalog.require_neverCollides _
    · exact .error (by simp)

theorem authorize_neverCollides (r : Request) (catalog : Catalog) (type : NodeType) :
    NeverCollides (r.authorize catalog type) := by
  unfold authorize
  split
  · exact .error (by simp)
  · exact Selection.authorizeAll_neverCollides catalog r.grants type r.field.selections

end Request

end CypherCompiler
