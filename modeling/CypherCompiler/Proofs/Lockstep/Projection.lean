import CypherCompiler.Compilation.Projection
import CypherCompiler.Proofs.Lockstep.Filter
import CypherCompiler.Proofs.Outcome.Projection

namespace CypherCompiler

open Cypher Json

theorem Planning.selectedHop?_alike (type : NodeType) {s t : Selection} (h : s.Alike t) :
    selectedHop? type s = selectedHop? type t := by
  unfold selectedHop?
  rw [h.name_eq, h.responseKey_eq]

-- The hops of a plan do not depend on arguments.
theorem Plan.make_alike {catalog : Catalog} {root : Root} {ss ts : List Selection}
    (h : Selection.AlikeAll ss ts) (groupBy : Option String) (predicate : Predicate)
    (aliases : AliasRegistry) :
    Plan.make catalog root ss groupBy predicate aliases =
      Plan.make catalog root ts groupBy predicate aliases := by
  have hhops : ∀ type, ss.filterMap (Planning.selectedHop? type) =
      ts.filterMap (Planning.selectedHop? type) := by
    intro type
    induction ss generalizing ts with
    | nil =>
        cases h
        rfl
    | cons s rest ih =>
        cases h with
        | cons hs hrest =>
            rw [List.filterMap_cons, List.filterMap_cons, Planning.selectedHop?_alike type hs,
              ih hrest]
  unfold Plan.make Planning.addSelections
  simp only [hhops]

namespace Selection

variable {s t : Selection}

theorem searchCall_lockstep (h : s.Alike t) (root : Root) (type : NodeType)
    (path : ParameterPath) :
    DraftsAlike Eq (s.searchCall root type path) (t.searchCall root type path) := by
  unfold searchCall
  obtain ⟨hs, ht⟩ | ⟨v, w, hs, ht, hvw⟩ := h.argument?_cases Argument.search
  · simp only [hs, ht]
    exact lockstep_pure rfl
  · simp only [hs, ht]
    cases type.searchIndex? with
    | none => exact lockstep_throw _
    | some index =>
        cases root.incoming with
        | some incoming => exact lockstep_throw _
        | none =>
            cases hvw with
            | str a b =>
                exact (Drafting.value_lockstep _ _ _).andThen fun _ =>
                  (Drafting.reserve_lockstep _).andThen fun _ =>
                    (Drafting.claim_lockstep _).andThen fun _ => lockstep_pure rfl
            | _ => exact lockstep_throw _

theorem groupByPath_alike (h : s.Alike t) : s.groupByPath = t.groupByPath := by
  unfold groupByPath
  rw [h.argument?_eq (by decide)]

theorem planRead_lockstep (h : s.Alike t) (catalog : Catalog) (strict : Bool) (root : Root)
    (path : ParameterPath) {ss ts : List Selection} (hselections : AlikeAll ss ts)
    (groupBy : Option String) :
    DraftsAlike Eq (s.planRead catalog strict root path ss groupBy)
      (t.planRead catalog strict root path ts groupBy) := by
  unfold planRead
  apply (lockstep_shared _).andThen
  intro type
  apply (Drafting.hoist_lockstep (Predicate.ofSelection_lockstep h)).andThen
  intro predicate
  have hmake : Plan.make catalog root ss groupBy predicate =
      Plan.make catalog root ts groupBy predicate :=
    funext fun aliases => Plan.make_alike hselections groupBy predicate aliases
  rw [hmake]
  exact (Drafting.plan_lockstep _).andThen fun _ => lockstep_pure rfl

variable {catalog : Catalog} {strict : Bool} {ps qs : Json.Members}

theorem readHead_lockstep (h : s.Alike t) (root : Root) (path : ParameterPath) :
    DraftsAlike Eq (s.readHead ⟨catalog, strict, ps⟩ root path)
      (t.readHead ⟨catalog, strict, qs⟩ root path) := by
  unfold readHead
  apply (lockstep_shared _).andThen
  intro type
  apply (searchCall_lockstep h root type path).andThen
  intro search
  apply (planRead_lockstep h catalog strict root path h.selections none).andThen
  intro read
  exact (lockstep_shared _).andThen fun _ => lockstep_pure rfl

theorem orderTerms_alike (h : s.Alike t) (type : NodeType) (node : String)
    (score : Option String) : s.orderTerms type node score = t.orderTerms type node score := by
  unfold orderTerms
  rw [h.argument?_eq (by decide)]

theorem pagination_alike (h : s.Alike t) :
    Pagination.ofSelection s = Pagination.ofSelection t := by
  unfold Pagination.ofSelection
  have hoffset : s.argument? Argument.offset = t.argument? Argument.offset :=
    h.argument?_eq (by decide)
  rw [h.argument?_eq (by decide), hoffset]

-- A bound that one run writes the other one writes as well.
private theorem bound_lockstep {c : Prop} [Decidable c] {path : ParameterPath} {v : Json}
    {f g : Option String → Hoist Window} (h : ∀ bound, HoistsAlike Eq (f bound) (g bound)) :
    HoistsAlike Eq (if c then some <$> Hoist.value path v >>= f else pure none >>= f)
      (if c then some <$> Hoist.value path v >>= g else pure none >>= g) := by
  split
  · rw [map_eq_pure_bind]
    exact ((Hoist.value_lockstep path v v).andThen fun _ => lockstep_pure rfl).andThen h
  · exact (lockstep_pure rfl).andThen h

theorem window_lockstep (h : s.Alike t) (path : ParameterPath) :
    HoistsAlike Eq (s.window path) (t.window path) := by
  unfold window
  rw [pagination_alike h]
  apply (lockstep_shared _).andThen
  intro p
  exact bound_lockstep fun _ => bound_lockstep fun _ => lockstep_pure rfl

theorem bindArguments_lockstep {as bs : Json.Members} (h : AlikeMembers as bs)
    (referenced : List String) (path : ParameterPath) (declared : List String) :
    DraftsAlike Eq (Field.bindArguments referenced as path declared)
      (Field.bindArguments referenced bs path declared) := by
  induction declared with
  | nil => exact lockstep_pure rfl
  | cons name rest ih =>
      rw [Field.bindArguments, Field.bindArguments]
      obtain ⟨ha, hb⟩ | ⟨v, w, ha, hb, -⟩ := h.get?_cases name
      · simp only [ha, hb]
        exact (lockstep_pure rfl).andThen fun _ => ih.andThen fun _ => lockstep_pure rfl
      · simp only [ha, hb]
        exact (Drafting.value_lockstep _ _ _).andThen fun _ => (lockstep_pure rfl).andThen fun _ =>
          ih.andThen fun _ => lockstep_pure rfl

theorem undeclared?_alike (field : Field) {as bs : Json.Members} (h : AlikeMembers as bs) :
    field.undeclared? as = field.undeclared? bs := by
  unfold Field.undeclared?
  rw [h.keys_eq]

theorem customCall_lockstep (h : s.Alike t) (field : Field) (statement node : String) :
    DraftsAlike Eq (s.customCall ⟨catalog, strict, ps⟩ field statement node)
      (t.customCall ⟨catalog, strict, qs⟩ field statement node) := by
  unfold customCall
  rw [undeclared?_alike field h.arguments.members, h.responseKey_eq]
  have hbind (ambient : List (String × Binding)) : DraftsAlike Eq
      (do
        let arguments ← Field.bindArguments (Text.references statement) s.arguments
          ((ParameterPath.below node).child t.responseKey) field.arguments
        return CustomCall.mk statement (("this", Binding.node node) :: ambient ++ arguments))
      (do
        let arguments ← Field.bindArguments (Text.references statement) t.arguments
          ((ParameterPath.below node).child t.responseKey) field.arguments
        return CustomCall.mk statement (("this", Binding.node node) :: ambient ++ arguments)) :=
    (bindArguments_lockstep h.arguments.members _ _ _).andThen fun _ => lockstep_pure rfl
  have hshare {f g : List (String × Binding) → Drafting CustomCall}
      (hfg : ∀ ambient, DraftsAlike Eq (f ambient) (g ambient)) : DraftsAlike Eq
      (if (Text.references statement).contains cypherParamsName = true then do
        Drafting.share cypherParamsName (.obj ps)
        pure [(cypherParamsName, Binding.parameter cypherParamsName)] >>= f
      else pure [] >>= f)
      (if (Text.references statement).contains cypherParamsName = true then do
        Drafting.share cypherParamsName (.obj qs)
        pure [(cypherParamsName, Binding.parameter cypherParamsName)] >>= g
      else pure [] >>= g) := by
    split
    · exact (Drafting.share_lockstep _ _ _).andThen fun _ => (lockstep_pure rfl).andThen hfg
    · exact (lockstep_pure rfl).andThen hfg
  cases strict with
  | false => exact hshare hbind
  | true =>
      cases hundeclared : field.undeclared? t.arguments with
      | none =>
          simp only [ite_true]
          exact hshare hbind
      | some name =>
          simp only [ite_true]
          exact hshare fun _ => (lockstep_throw _).andThen fun _ => hbind _

theorem readWith_lockstep (h : s.Alike t) (root : Root) (path : ParameterPath)
    {f g : NodeType → Plan → Drafting (List Item)}
    (hfg : ∀ type plan, DraftsAlike Eq (f type plan) (g type plan)) :
    DraftsAlike Eq (s.readWith ⟨catalog, strict, ps⟩ root path f)
      (t.readWith ⟨catalog, strict, qs⟩ root path g) := by
  unfold readWith
  apply (readHead_lockstep h root path).andThen
  intro head
  apply (hfg head.type head.plan).andThen
  intro items
  rw [orderTerms_alike h, h.responseKey_eq]
  apply (lockstep_shared _).andThen
  intro order
  exact (Drafting.hoist_lockstep (window_lockstep h path)).andThen fun _ => lockstep_pure rfl

theorem planSelections_lockstep {ss ts : List Selection} (h : AlikeAll ss ts) (node : String)
    (typeName : String) :
    DraftsAlike Eq (planSelections catalog node typeName ss)
      (planSelections catalog node typeName ts) := by
  unfold planSelections
  have hmake : Plan.make catalog ⟨node, typeName, none⟩ ss none (.all []) =
      Plan.make catalog ⟨node, typeName, none⟩ ts none (.all []) :=
    funext fun aliases => Plan.make_alike h none (.all []) aliases
  rw [hmake]
  exact Drafting.plan_lockstep _

theorem AlikeAll.isEmpty_eq {ss ts : List Selection} (h : AlikeAll ss ts) :
    ss.isEmpty = ts.isEmpty := by
  cases h <;> rfl

theorem AlikeAll.mapM_eq {α : Type} {f : Selection → Except RequestError α}
    (hf : ∀ {s t : Selection}, s.Alike t → f s = f t) {ss ts : List Selection}
    (h : AlikeAll ss ts) : ss.mapM f = ts.mapM f := by
  induction ss generalizing ts with
  | nil =>
      cases h
      rfl
  | cons s rest ih =>
      cases h with
      | cons hs hrest => rw [List.mapM_cons, List.mapM_cons, hf hs, ih hrest]

theorem parts_alike (h : s.Alike t) (compound : Compound) :
    s.parts compound = t.parts compound := by
  unfold parts isLeaf
  rw [h.selections.isEmpty_eq]
  split
  · rfl
  · apply h.selections.mapM_eq
    intro sub sub' hsub
    rw [hsub.name_eq, hsub.responseKey_eq]

mutual

-- The entry of a field is the same for all values of its arguments.
theorem project_lockstep (type : NodeType) (node : String) (plan : Plan) (s t : Selection)
    (h : s.Alike t) :
    DraftsAlike Eq (s.project ⟨catalog, strict, ps⟩ type node plan)
      (t.project ⟨catalog, strict, qs⟩ type node plan) := by
  have hkey := h.responseKey_eq
  have hparts := parts_alike h
  have hcall : ∀ field statement, DraftsAlike Eq
      (s.customCall ⟨catalog, strict, ps⟩ field statement node)
      (t.customCall ⟨catalog, strict, qs⟩ field statement node) :=
    fun field statement => customCall_lockstep h field statement node
  match s, t, h with
  | ⟨name, aliasName, as, ss⟩, ⟨_, _, bs, ts⟩, .mk harguments hselections =>
      rw [project, project]
      split
      · exact lockstep_pure rfl
      · split
        · exact lockstep_pure rfl
        · cases type.field? name with
          | none => exact lockstep_throw _
          | some field =>
              simp only
              cases field.kind with
              | scalar scalar =>
                  simp only
                  split <;> exact lockstep_pure rfl
              | compound compound =>
                  simp only [hparts compound]
                  exact (lockstep_shared _).andThen fun _ => lockstep_pure rfl
              | relationship relation =>
                  simp only [hkey]
                  cases plan.selectionStep? _ with
                  | none => exact lockstep_throw _
                  | some step =>
                      apply (readWith_lockstep (.mk harguments hselections) _ _ ?_).andThen
                      · exact fun _ => lockstep_pure rfl
                      · exact fun target inner =>
                          projectAll_lockstep target step.node inner ss ts hselections
              | computed statement returns =>
                  apply (hcall field statement).andThen
                  intro call
                  cases returns with
                  | object target =>
                      simp only [hselections.isEmpty_eq]
                      split
                      · exact lockstep_pure rfl
                      · apply (Drafting.claim_lockstep _).andThen
                        intro item
                        apply (lockstep_shared _).andThen
                        intro targetType
                        apply (planSelections_lockstep hselections item target).andThen
                        intro inner
                        exact (projectAll_lockstep targetType item inner ss ts
                          hselections).andThen fun _ => lockstep_pure rfl
                  | _ => exact lockstep_pure rfl
termination_by sizeOf s

theorem projectAll_lockstep (type : NodeType) (node : String) (plan : Plan)
    (ss ts : List Selection) (h : AlikeAll ss ts) :
    DraftsAlike Eq (projectAll ⟨catalog, strict, ps⟩ type node plan ss)
      (projectAll ⟨catalog, strict, qs⟩ type node plan ts) := by
  match ss, ts, h with
  | [], [], .nil =>
      rw [projectAll]
      exact lockstep_pure rfl
  | s :: ss, t :: ts, .cons hs hrest =>
      rw [projectAll, projectAll]
      exact (project_lockstep type node plan s t hs).andThen fun _ =>
        (projectAll_lockstep type node plan ss ts hrest).andThen fun _ => lockstep_pure rfl
termination_by sizeOf ss

end

theorem countQuery_lockstep (h : s.Alike t) (type : NodeType) :
    DraftsAlike Eq (s.countQuery ⟨catalog, strict, ps⟩ type)
      (t.countQuery ⟨catalog, strict, qs⟩ type) := by
  unfold countQuery
  rw [groupByPath_alike h, h.responseKey_eq]
  apply (searchCall_lockstep h _ type .root).andThen
  intro search
  apply (lockstep_shared _).andThen
  intro groupBy
  apply (planRead_lockstep h catalog strict _ .root .nil groupBy).andThen
  intro read
  exact (lockstep_shared _).andThen fun _ => lockstep_pure rfl

end Selection

end CypherCompiler
