import CypherCompiler.Proofs.Authorization.Permitted
import CypherCompiler.Proofs.Blame.Filter
import CypherCompiler.Proofs.Traversal.Resolved

namespace CypherCompiler

open Cypher

-- A selection that asks for a field, and for neither the name of the type nor the number of the
-- node.
structure Selection.NamesField (s : Selection) : Prop where
  typeName : s.name ≠ typeNameField
  nodeId : s.name ≠ Argument.nodeId

-- Some selection, at whatever depth, names what there is not on the type that it is read from,
-- and this is the reason given.
inductive SelectsUnknown (catalog : Catalog) : NodeType → List Selection → String → Prop
  | field {type : NodeType} {selections : List Selection} {s : Selection} (hs : s ∈ selections)
      (hnames : s.NamesField) (hfield : type.field? s.name = none) :
      SelectsUnknown catalog type selections
        ("type `" ++ type.name ++ "` has no field `" ++ s.name ++ "`")
  | subField {type : NodeType} {selections : List Selection} {s t : Selection} {field : Field}
      {compound : Compound} (hs : s ∈ selections) (hnames : s.NamesField)
      (hfield : type.field? s.name = some field) (hkind : field.kind = .compound compound)
      (ht : t ∈ s.selections) (hsub : compound.hasSubField t.name = false) :
      SelectsUnknown catalog type selections
        ("`" ++ compound.name ++ "` has no sub-field `" ++ t.name ++ "`")
  | nested {type target : NodeType} {selections : List Selection} {s : Selection} {field : Field}
      {name reason : String} (hs : s ∈ selections) (hnames : s.NamesField)
      (hfield : type.field? s.name = some field) (htarget : field.target? = some name)
      (hfound : catalog.type? name = some target)
      (h : SelectsUnknown catalog target s.selections reason) :
      SelectsUnknown catalog type selections reason

theorem SelectsUnknown.mono {catalog : Catalog} {type : NodeType} {selections more : List Selection}
    {reason : String} (h : SelectsUnknown catalog type selections reason)
    (hsub : selections ⊆ more) : SelectsUnknown catalog type more reason := by
  cases h with
  | field hs hnames hfield => exact .field (hsub hs) hnames hfield
  | subField hs hnames hfield hkind ht hmissing =>
      exact .subField (hsub hs) hnames hfield hkind ht hmissing
  | nested hs hnames hfield htarget hfound hbelow =>
      exact .nested (hsub hs) hnames hfield htarget hfound hbelow

namespace Selection

variable {P : String → Prop} {s : Selection} {setting : Setting} {root : Root}
  {path : ParameterPath} {type : NodeType}

theorem searchCall_blames (s : Selection) (root : Root) (type : NodeType) (path : ParameterPath) :
    Blames P (s.searchCall root type path) := by
  unfold searchCall
  split
  · exact .of_pure _
  · split
    · exact (Drafting.value_blames _ _).followedBy fun _ =>
        (Drafting.reserve_blames _).followedBy fun _ => (Drafting.claim_blames _).followedBy
          fun _ => .of_pure _
    · exact .of_throw trivial

theorem planRead_blames {catalog : Catalog}
    (htype : catalog.type? root.typeName = some type) (s : Selection) (strict : Bool)
    (path : ParameterPath) {selections : List Selection} {groupBy : Option String}
    (hgroup : groupBy = none ∨ selections = []) :
    Blames P (s.planRead catalog strict root path selections groupBy) := by
  unfold planRead
  refine .lift_ok (Catalog.require_eq_ok.mpr htype) ?_
  have hmem := (Catalog.type?_eq_some htype).1
  refine (Drafting.hoist_blames (Predicate.ofSelection_blames hmem path strict s)).followedBy
    fun predicate => ?_
  exact (Drafting.plan_blames fun _ => (Plan.make_faultsRequest htype hgroup).gives).followedBy
    fun _ => .of_pure _

-- The source of a field that was planned can always be written.
theorem source_blames {catalog : Catalog} {strict : Bool} {selections : List Selection}
    {groupBy : Option String} (hgroup : groupBy = none ∨ selections = []) {read : ReadPlan}
    {d d' : Draft} (h : s.planRead catalog strict root path selections groupBy d = .ok (read, d'))
    (type : NodeType) (search : Option SearchCall) :
    FailsOnly (RequestError.Gives P) (read.plan.source type read.predicate search) := by
  obtain ⟨_, -, hpredicate, hmake⟩ := planRead_cases h
  have hscope := (Predicate.ofSelection_inScope hpredicate).1.1
  exact .of_exists (Plan.exists_source hgroup hscope hmake type search)

theorem readHead_blames (htype : setting.catalog.type? root.typeName = some type) (s : Selection)
    (path : ParameterPath) : Blames P (s.readHead setting root path) := by
  unfold readHead
  refine .lift_ok (Catalog.require_eq_ok.mpr htype) ?_
  refine (s.searchCall_blames root type path).followedBy fun search => ?_
  refine (planRead_blames htype s _ path (.inl rfl)).bind fun read _ _ hread => ?_
  exact .lift_bind (source_blames (.inl rfl) hread type search) fun _ _ => .of_pure _

theorem window_blames (s : Selection) (path : ParameterPath) : Blames P (s.window path) := by
  -- a bound that leaves nothing out is not written
  have hbound {c : Prop} [Decidable c] {v : Json} {path : ParameterPath}
      {f : Option String → Hoist Window} (hf : ∀ bound, Blames P (f bound)) :
      Blames P (if c then some <$> Hoist.value path v >>= f else pure none >>= f) := by
    split
    · rw [map_eq_pure_bind]
      exact ((Hoist.value_blames path v).followedBy fun _ => .of_pure _).followedBy fun _ => hf _
    · exact (StepFailsOnly.of_pure _).followedBy fun _ => hf _
  unfold window
  exact .lift_bind s.pagination_faultsRequest.gives fun p _ =>
    hbound fun _ => hbound fun _ => .of_pure _

theorem bindArguments_blames (referenced : List String) (arguments : Json.Members)
    (path : ParameterPath) (declared : List String) :
    Blames P (Field.bindArguments referenced arguments path declared) := by
  induction declared with
  | nil => exact .of_pure _
  | cons name rest ih =>
      rw [Field.bindArguments]
      cases arguments.get? name with
      | none =>
          exact (StepFailsOnly.of_pure _).followedBy fun _ => ih.followedBy fun _ => .of_pure _
      | some v =>
          exact (Drafting.value_blames _ v).followedBy fun _ => (StepFailsOnly.of_pure _).followedBy
            fun _ => ih.followedBy fun _ => .of_pure _

theorem customCall_blames (s : Selection) (setting : Setting) (field : Field)
    (statement node : String) : Blames P (s.customCall setting field statement node) := by
  have hfinish (ambient : List (String × Binding)) : Blames P (do
      let arguments ← Field.bindArguments (Text.references statement) s.arguments
        ((ParameterPath.below node).child s.responseKey) field.arguments
      return CustomCall.mk statement (("this", Binding.node node) :: ambient ++ arguments)) :=
    (bindArguments_blames _ _ _ _).followedBy fun _ => .of_pure _
  have hambient {f : List (String × Binding) → Drafting CustomCall}
      (hf : ∀ ambient, Blames P (f ambient)) : Blames P
      (if (Text.references statement).contains cypherParamsName = true then do
        Drafting.share cypherParamsName (.obj setting.cypherParams)
        pure [(cypherParamsName, Binding.parameter cypherParamsName)] >>= f
      else pure [] >>= f) := by
    split
    · exact (Drafting.share_blames _ _).followedBy fun _ => (StepFailsOnly.of_pure _).followedBy
        fun _ => hf _
    · exact (StepFailsOnly.of_pure _).followedBy fun _ => hf _
  unfold customCall
  apply hambient
  intro ambient
  split
  · split
    · exact (StepFailsOnly.of_throw trivial).followedBy fun _ => hfinish ambient
    · exact hfinish ambient
  · exact hfinish ambient

theorem readWith_blames (htype : setting.catalog.type? root.typeName = some type) (s : Selection)
    (path : ParameterPath) {project : NodeType → Plan → Drafting (List Item)}
    (hproject : ∀ predicate aliases aliases' plan,
      Plan.make setting.catalog root s.selections none predicate aliases = .ok (plan, aliases') →
        Blames P (project type plan)) :
    Blames P (s.readWith setting root path project) := by
  unfold readWith
  refine (readHead_blames htype s path).bind fun head _ _ hhead => ?_
  obtain ⟨_, _, read, hfound, -, hread, hplan, -⟩ := readHead_cases hhead
  obtain ⟨_, -, -, hmake⟩ := planRead_cases hread
  obtain rfl : head.type = type := Option.some.inj (hfound.symm.trans htype)
  rw [← hplan] at hmake
  refine (hproject _ _ _ _ hmake).followedBy fun items => ?_
  exact .lift_bind (s.orderTerms_faultsRequest _ _ _).gives fun _ _ =>
    (Drafting.hoist_blames (s.window_blames path)).followedBy fun _ => .of_pure _

-- Without a type to read from, this is the reason that is given.
theorem readWith_unknown (hmissing : setting.catalog.type? root.typeName = none)
    (hreason : P (SchemaError.unknownType root.typeName).message) (s : Selection)
    (path : ParameterPath) (project : NodeType → Plan → Drafting (List Item)) :
    Blames P (s.readWith setting root path project) := by
  have hrequire : FailsOnly (RequestError.Gives P) (setting.catalog.require root.typeName) := by
    rw [Catalog.require, hmissing]
    exact .error hreason
  unfold readWith readHead
  refine StepFailsOnly.bind (.lift_bind hrequire fun type hfound => ?_) fun _ d _ hrun => ?_
  · cases hmissing.symm.trans (Catalog.require_eq_ok.mp hfound)
  · obtain ⟨type, _, hfound, -⟩ := bind_eq_ok.mp hrun
    obtain ⟨_, hfound, -⟩ := lift_eq_ok.mp hfound
    cases hmissing.symm.trans (Catalog.require_eq_ok.mp hfound)

theorem planSelections_blames {catalog : Catalog} {typeName : String}
    (htype : catalog.type? typeName = some type) (node : String) (selections : List Selection) :
    Blames P (planSelections catalog node typeName selections) := by
  have hroot : catalog.type? (Root.mk node typeName none).typeName = some type := htype
  exact Drafting.plan_blames fun _ => (Plan.make_faultsRequest hroot (.inl rfl)).gives

-- The sub-fields of a selection are those of its compound, or one of them is to blame.
theorem parts_blames {catalog : Catalog} (hnames : s.NamesField) {field : Field}
    (hfield : type.field? s.name = some field) {compound : Compound}
    (hkind : field.kind = .compound compound) :
    FailsOnly (RequestError.Gives (SelectsUnknown catalog type [s])) (s.parts compound) := by
  unfold parts
  split
  · exact .ok _
  · refine .mapM fun t ht => ?_
    split
    · rename_i hmissing
      have hsub : compound.hasSubField t.name = false := by simpa using hmissing
      exact .error (.subField List.mem_cons_self hnames hfield hkind ht hsub)
    · split <;> exact .ok _

-- A plan in which every selected relationship finds a step of the type that it leads to.
def FindsSteps (type : NodeType) (plan : Plan) (selections : List Selection) : Prop :=
  ∀ s ∈ selections, ∀ relation, (type.field? s.name).bind Field.relation? = some relation →
    ∃ step, plan.selectionStep? s.responseKey = some step ∧ step.typeName = relation.target

theorem findsSteps_make {catalog : Catalog} {groupBy : Option String} {predicate : Predicate}
    {aliases aliases' : AliasRegistry} {plan : Plan}
    (hsiblings : s.SiblingsAgree) (htype : catalog.type? root.typeName = some type)
    (h : Plan.make catalog root s.selections groupBy predicate aliases = .ok (plan, aliases')) :
    FindsSteps type plan s.selections := by
  intro t ht relation hrelation
  obtain ⟨field, hfield, hkind⟩ := Option.bind_eq_some_iff.mp hrelation
  obtain ⟨step, hstep⟩ := Plan.exists_selectionStep? htype h ht hfield hkind
  refine ⟨step, hstep, ?_⟩
  obtain ⟨hown, htyped⟩ := stepsAgree_make hsiblings htype h t ht step hstep
  rw [htyped, Option.some.inj (hown.symm.trans hrelation)]

-- Selections of nodes that are read from a root of some type, whatever else is planned for it.
abbrev ProjectBlames (P : String → Prop) (setting : Setting) (name : String) (target : NodeType)
    (selections : List Selection) : Prop :=
  ∀ (root : Root) (predicate : Predicate) (aliases aliases' : AliasRegistry) (plan : Plan),
    root.typeName = name →
    Plan.make setting.catalog root selections none predicate aliases = .ok (plan, aliases') →
      Blames P (projectAll setting target root.node plan selections)

theorem computedNodes_blames {name : String} {target : NodeType}
    (hfound : setting.catalog.type? name = some target) {selections : List Selection}
    (hproject : ProjectBlames P setting name target selections) (base : String)
    (finish : String → List Item → Item) :
    Blames P (do
      let item ← Drafting.claim base
      let targetType ← setting.catalog.require name
      let inner ← planSelections setting.catalog item name selections
      let items ← projectAll setting targetType item inner selections
      return finish item items) := by
  refine (Drafting.claim_blames base).followedBy fun item => ?_
  refine .lift_ok (Catalog.require_eq_ok.mpr hfound) ?_
  refine (planSelections_blames hfound item selections).bind fun inner _ _ hplan => ?_
  obtain ⟨hmake, -⟩ := planSelections_cases hplan
  exact (hproject _ _ _ _ inner rfl hmake).followedBy fun _ => .of_pure _

-- A selection names what there is not, as long as the plan has a step for every relationship and
-- selections of one response key agree at every depth.
def ProjectExplains (catalog : Catalog) (type : NodeType) (plan : Plan)
    (selections : List Selection) (reason : String) : Prop :=
  FindsSteps type plan selections → (∀ t ∈ nodesOfAll selections, t.SiblingsAgree) →
    SelectsUnknown catalog type selections reason

mutual

-- The entry for a selection blames the schema only where it or a selection below it names what
-- its type does not have. The type below a relationship is the one that its own step leads to.
theorem project_blames {type : NodeType} (htype : type ∈ setting.catalog.types) (node : String)
    (plan : Plan) (s : Selection) :
    Blames (ProjectExplains setting.catalog type plan [s]) (s.project setting type node plan) := by
  have hsize := sizeOf_selections_lt s
  have hself : s ∈ nodesOfAll [s] := by simp [nodesOfAll, mem_nodes_self]
  have hbelow : nodesOfAll s.selections ⊆ nodesOfAll [s] := by
    simpa [nodesOfAll] using nodesOfAll_selections_subset s
  -- wherever the field leads, there is a type from which the entries below are read
  have hinner : ∀ {field name}, s.NamesField → type.field? s.name = some field →
      field.target? = some name → ∃ target, setting.catalog.type? name = some target ∧
        ProjectBlames (ProjectExplains setting.catalog type plan [s]) setting name target
          s.selections := by
    intro field name hnames hfield htarget
    obtain ⟨target, hmem, hfound⟩ :=
      Catalog.exists_target htype (NodeType.field?_eq_some hfield).1 htarget
    refine ⟨target, hfound, ?_⟩
    rintro root predicate aliases aliases' inner rfl hmake
    refine (projectAll_blames hmem root.node inner s.selections).mono fun _ h _ hsiblings => ?_
    exact .nested List.mem_cons_self hnames hfield htarget hfound
      (h (findsSteps_make (hsiblings s hself) hfound hmake) fun t ht => hsiblings t (hbelow ht))
  cases s with
  | mk name aliasName arguments selections =>
      rw [project]
      split
      · exact .of_pure _
      · rename_i htypeName
        split
        · exact .of_pure _
        · rename_i hid
          have hnames : NamesField ⟨name, aliasName, arguments, selections⟩ := ⟨htypeName, hid⟩
          cases hfield : type.field? name with
          | none => exact .of_throw fun _ _ => .field List.mem_cons_self hnames hfield
          | some field =>
              simp only
              cases hkind : field.kind with
              | scalar scalar =>
                  simp only
                  split <;> exact .of_pure _
              | compound compound =>
                  exact .lift_bind ((parts_blames hnames hfield hkind).mono fun _ h =>
                    h.mono fun _ hunknown _ _ => hunknown) fun _ _ => .of_pure _
              | relationship relation =>
                  have hrelation : field.relation? = some relation := by
                    rw [Field.relation?, hkind]
                  have hsteps
                      (h : FindsSteps type plan [⟨name, aliasName, arguments, selections⟩]) :=
                    h _ List.mem_cons_self relation (by
                      simp only [hfield, Option.bind_some, hrelation])
                  simp only
                  cases hstep : plan.selectionStep?
                      (responseKey ⟨name, aliasName, arguments, selections⟩) with
                  | none =>
                      refine .of_throw fun h _ => ?_
                      obtain ⟨step, hfound, -⟩ := hsteps h
                      cases hstep.symm.trans hfound
                  | some step =>
                      by_cases hown : step.typeName = relation.target
                      · obtain ⟨target, hfound, hproject⟩ :=
                          hinner hnames hfield (Field.target?_of_relation? hrelation)
                        rw [← hown] at hfound hproject
                        exact (readWith_blames hfound _ _ fun _ _ _ _ hmake =>
                          hproject _ _ _ _ _ rfl hmake).followedBy fun _ => .of_pure _
                      · -- the step leads to another type, and so any reason will do
                        have hany (reason : String) : ProjectExplains setting.catalog type plan
                            [⟨name, aliasName, arguments, selections⟩] reason := by
                          intro h
                          obtain ⟨other, hfound, htyped⟩ := hsteps h
                          obtain rfl : step = other := Option.some.inj (hstep.symm.trans hfound)
                          exact absurd htyped hown
                        cases hfound : setting.catalog.type? step.typeName with
                        | none =>
                            exact (readWith_unknown hfound (hany _) _ _ _).followedBy
                              fun _ => .of_pure _
                        | some target =>
                            have hmem := (Catalog.type?_eq_some hfound).1
                            exact (readWith_blames hfound _ _ fun _ _ _ inner _ =>
                              (projectAll_blames hmem _ inner selections).mono fun reason _ =>
                                hany reason).followedBy fun _ => .of_pure _
              | computed statement returns =>
                  refine (customCall_blames _ setting field statement node).followedBy
                    fun call => ?_
                  cases returns with
                  | object target =>
                      have htarget : field.target? = some target := by rw [Field.target?, hkind]
                      obtain ⟨targetType, hfound, hproject⟩ := hinner hnames hfield htarget
                      simp only
                      split
                      · exact .of_pure _
                      · exact computedNodes_blames hfound hproject _ _
                  | _ => exact .of_pure _
termination_by sizeOf s

theorem projectAll_blames {type : NodeType} (htype : type ∈ setting.catalog.types) (node : String)
    (plan : Plan) (selections : List Selection) :
    Blames (ProjectExplains setting.catalog type plan selections)
      (projectAll setting type node plan selections) := by
  match selections with
  | [] =>
      rw [projectAll]
      exact .of_pure _
  | s :: rest =>
      rw [projectAll]
      have hentry : Blames (ProjectExplains setting.catalog type plan (s :: rest))
          (s.project setting type node plan) := by
        refine (project_blames htype node plan s).mono fun _ h hsteps hsiblings => ?_
        rw [nodesOfAll, List.forall_mem_append] at hsiblings
        have hone : FindsSteps type plan [s] :=
          List.forall_mem_singleton.mpr (hsteps s List.mem_cons_self)
        exact (h hone (by simpa [nodesOfAll] using hsiblings.1)).mono
          (List.subset_append_left [s] rest)
      have hentries : Blames (ProjectExplains setting.catalog type plan (s :: rest))
          (projectAll setting type node plan rest) := by
        refine (projectAll_blames htype node plan rest).mono fun _ h hsteps hsiblings => ?_
        rw [nodesOfAll, List.forall_mem_append] at hsiblings
        exact (h (List.forall_mem_cons.mp hsteps).2 hsiblings.2).mono (List.subset_cons_self s rest)
      exact hentry.followedBy fun _ => hentries.followedBy fun _ => .of_pure _
termination_by sizeOf selections

end

-- A selection below a field names what there is not, as long as selections of one response key
-- agree at every depth.
def Explains (catalog : Catalog) (type : NodeType) (s : Selection) (reason : String) : Prop :=
  (∀ t ∈ s.nodes, t.SiblingsAgree) → SelectsUnknown catalog type s.selections reason

-- The entries of a field, as soon as its selections are planned.
theorem selections_blames (htype : setting.catalog.type? root.typeName = some type)
    {groupBy : Option String} {predicate : Predicate} {aliases aliases' : AliasRegistry}
    {plan : Plan}
    (h : Plan.make setting.catalog root s.selections groupBy predicate aliases =
      .ok (plan, aliases')) :
    Blames (s.Explains setting.catalog type)
      (projectAll setting type root.node plan s.selections) := by
  have hmem := (Catalog.type?_eq_some htype).1
  refine (projectAll_blames hmem root.node plan s.selections).mono fun _ hexplains hsiblings => ?_
  exact hexplains (findsSteps_make (hsiblings s (mem_nodes_self s)) htype h)
    fun t ht => hsiblings t (nodesOfAll_selections_subset s ht)

theorem readQuery_blames (htype : setting.catalog.type? root.typeName = some type)
    (s : Selection) (path : ParameterPath) :
    Blames (s.Explains setting.catalog type) (s.readQuery setting root path) :=
  readWith_blames htype s path fun _ _ _ _ hmake => selections_blames htype hmake

-- A count shows no selection, and so it never blames the schema.
theorem countQuery_blames (htype : setting.catalog.type? type.name = some type) (s : Selection) :
    Blames P (s.countQuery setting type) := by
  unfold countQuery
  refine (s.searchCall_blames _ type .root).followedBy fun search => ?_
  refine .lift_bind s.groupByPath_faultsRequest.gives fun groupBy _ => ?_
  refine (planRead_blames htype s _ .root (.inr rfl)).bind fun read _ _ hread => ?_
  exact .lift_bind (source_blames (.inr rfl) hread type search) fun _ _ => .of_pure _

end Selection

end CypherCompiler
