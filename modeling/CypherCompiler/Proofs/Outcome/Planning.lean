import CypherCompiler.Traversal.Planning
import CypherCompiler.Proofs.Outcome.Filter

namespace CypherCompiler

theorem HopOrigin.has_add (o : HopOrigin) (added source : HopSource) :
    (o.add added).has source = (o.has source || decide (added = source)) := by
  cases added <;> cases source <;> simp [add, has]

theorem HopOrigin.has_ofSource (added source : HopSource) :
    (ofSource added).has source = decide (added = source) := by
  cases added <;> cases source <;> rfl

namespace HopRequest

-- The step that is opened for a request.
def opened (r : HopRequest) (node parent : String) : Step :=
  ⟨node, r.relation.target, r.path, ⟨parent, r.relation⟩, r.required, HopOrigin.ofSource r.source⟩

theorem matchesStep_iff {r : HopRequest} {s : Step} :
    r.matchesStep s = true ↔ s.path = r.path ∧ s.incoming.relation = r.relation := by
  simp [matchesStep]

end HopRequest

theorem updateFirst_append {α : Type} {test : α → Bool} {change : α → α} {before after : List α}
    {a : α} (hbefore : ∀ b ∈ before, test b = false) (ha : test a = true) :
    updateFirst test change (before ++ a :: after) = before ++ change a :: after := by
  induction before with
  | nil => simp [updateFirst, ha]
  | cons b rest ih =>
      have hb := hbefore b List.mem_cons_self
      have hrest := ih fun c hc => hbefore c (List.mem_cons_of_mem b hc)
      simp [updateFirst, hb, hrest]

-- A step that may have been asked for again. It keeps its name and its hop, stays required where it
-- was required before, and no part of the field takes its request back.
structure Step.KeptAs (s t : Step) : Prop where
  node : t.node = s.node
  typeName : t.typeName = s.typeName
  path : t.path = s.path
  incoming : t.incoming = s.incoming
  required : s.required = true → t.required = true
  origin : ∀ source, s.origin.has source = true → t.origin.has source = true

-- Steps that begin with others, position by position.
def StepsKept (before after : List Step) : Prop :=
  ∀ (i : Nat) (s : Step), before[i]? = some s → ∃ t, after[i]? = some t ∧ s.KeptAs t

theorem Step.KeptAs.refl (s : Step) : s.KeptAs s :=
  ⟨rfl, rfl, rfl, rfl, id, fun _ => id⟩

theorem Step.KeptAs.trans {s t u : Step} (h : s.KeptAs t) (k : t.KeptAs u) : s.KeptAs u :=
  ⟨k.node.trans h.node, k.typeName.trans h.typeName, k.path.trans h.path,
    k.incoming.trans h.incoming, fun hs => k.required (h.required hs),
    fun source hs => k.origin source (h.origin source hs)⟩

theorem HopRequest.keptAs_mergeInto (r : HopRequest) (s : Step) : s.KeptAs (r.mergeInto s) := by
  refine ⟨rfl, rfl, rfl, rfl, fun hrequired => ?_, fun source horigin => ?_⟩
  · simp [mergeInto, hrequired]
  · simp [mergeInto, HopOrigin.has_add, horigin]

namespace StepsKept

variable {before after later : List Step}

theorem refl (steps : List Step) : StepsKept steps steps :=
  fun _ s hs => ⟨s, hs, .refl s⟩

theorem trans (h : StepsKept before after) (k : StepsKept after later) :
    StepsKept before later := by
  intro i s hs
  obtain ⟨t, ht, hst⟩ := h i s hs
  obtain ⟨u, hu, htu⟩ := k i t ht
  exact ⟨u, hu, hst.trans htu⟩

theorem append (steps opened : List Step) : StepsKept steps (steps ++ opened) := by
  intro i s hs
  have hlt : i < steps.length := (List.getElem?_eq_some_iff.mp hs).1
  exact ⟨s, by rwa [List.getElem?_append_left hlt], .refl s⟩

theorem update {s t : Step} (h : s.KeptAs t) :
    StepsKept (before ++ s :: after) (before ++ t :: after) := by
  intro i u hu
  obtain hlt | heq | hlt := Nat.lt_trichotomy i before.length
  · rw [List.getElem?_append_left hlt] at hu ⊢
    exact ⟨u, hu, .refl u⟩
  · subst heq
    obtain rfl : s = u := by simpa using hu
    exact ⟨t, by simp, h⟩
  · obtain ⟨k, rfl⟩ := Nat.exists_eq_add_of_lt hlt
    have htail : ∀ v : Step, (before ++ v :: after)[before.length + k + 1]? = after[k]? := by
      intro v
      rw [List.getElem?_append_right (by omega)]
      simp [show before.length + k + 1 - before.length = k + 1 by omega]
    rw [htail] at hu ⊢
    exact ⟨u, hu, .refl u⟩

end StepsKept

namespace Planning

-- The ways in which a hop is added to a plan.
inductive AddOutcome (p : Planning) (r : HopRequest) : Planning → Prop
  | shared {before after : List Step} {s : Step} (hsteps : p.steps = before ++ s :: after)
      (hmatch : r.matchesStep s = true) (hbefore : ∀ t ∈ before, r.matchesStep t = false) :
      AddOutcome p r ⟨p.root, before ++ r.mergeInto s :: after, p.aliases⟩
  | opened {parent : String} (hnew : ∀ s ∈ p.steps, r.matchesStep s = false)
      (hparent : findNode? p.root p.steps r.parentPath r.source = some parent) :
      AddOutcome p r
        ⟨p.root, p.steps ++ [r.opened (p.aliases.fresh (Alias.child parent r.key)) parent],
          p.aliases.reserve (p.aliases.fresh (Alias.child parent r.key))⟩
  | dropped (hnew : ∀ s ∈ p.steps, r.matchesStep s = false)
      (hparent : findNode? p.root p.steps r.parentPath r.source = none) : AddOutcome p r p

theorem add_cases (p : Planning) (r : HopRequest) : AddOutcome p r (p.add r) := by
  unfold add
  by_cases hany : p.steps.any r.matchesStep = true
  · rw [if_pos hany]
    have hfound : (p.steps.find? r.matchesStep).isSome = true := by
      rw [List.find?_isSome]
      simpa using hany
    obtain ⟨s, hfind⟩ := Option.isSome_iff_exists.mp hfound
    obtain ⟨hmatch, before, after, hsteps, hbefore⟩ := List.find?_eq_some_iff_append.mp hfind
    have hnone : ∀ t ∈ before, r.matchesStep t = false := by simpa using hbefore
    have hupdated : updateFirst r.matchesStep r.mergeInto (before ++ s :: after) =
        before ++ r.mergeInto s :: after := updateFirst_append hnone hmatch
    rw [← hsteps] at hupdated
    rw [hupdated]
    exact .shared hsteps hmatch hnone
  · rw [if_neg hany]
    have hnew : ∀ s ∈ p.steps, r.matchesStep s = false := by
      simpa using hany
    cases hparent : findNode? p.root p.steps r.parentPath r.source with
    | none => exact .dropped hnew hparent
    | some parent => exact .opened hnew hparent

-- A step of the new plan is a step of the old one, one of them asked for once more, or new.
theorem mem_add_steps {p : Planning} {r : HopRequest} {t : Step} (h : t ∈ (p.add r).steps) :
    t ∈ p.steps ∨ (∃ s ∈ p.steps, r.matchesStep s = true ∧ t = r.mergeInto s) ∨
      ∃ parent, findNode? p.root p.steps r.parentPath r.source = some parent ∧
        t = r.opened (p.aliases.fresh (Alias.child parent r.key)) parent := by
  have hadd := add_cases p r
  generalize p.add r = q at h hadd
  cases hadd with
  | shared hsteps hmatch _ =>
      rw [hsteps]
      simp only [List.mem_append, List.mem_cons] at h ⊢
      rcases h with h | rfl | h
      · exact .inl (.inl h)
      · exact .inr (.inl ⟨_, .inr (.inl rfl), hmatch, rfl⟩)
      · exact .inl (.inr (.inr h))
  | opened hnew hparent =>
      rcases List.mem_append.mp h with h | h
      · exact .inl h
      · exact .inr (.inr ⟨_, hparent, List.mem_singleton.mp h⟩)
  | dropped => exact .inl h

-- A hop changes no step but the one that it shares, and opens its own behind all others.
theorem add_keeps (p : Planning) (r : HopRequest) : StepsKept p.steps (p.add r).steps := by
  have hadd := add_cases p r
  generalize p.add r = q at hadd
  cases hadd with
  | shared hsteps =>
      rw [hsteps]
      exact .update (r.keptAs_mergeInto _)
  | opened => exact .append _ _
  | dropped => exact .refl _

theorem mem_add_of_mem {p : Planning} {s : Step} (hs : s ∈ p.steps) (r : HopRequest) :
    ∃ t ∈ (p.add r).steps, s.KeptAs t := by
  obtain ⟨i, hi⟩ := List.getElem?_of_mem hs
  obtain ⟨t, ht, hkept⟩ := add_keeps p r i s hi
  exact ⟨t, List.mem_of_getElem? ht, hkept⟩

-- A step stands for nodes of the type that its relation leads to.
theorem add_typeName {p : Planning} (h : ∀ s ∈ p.steps, s.typeName = s.incoming.relation.target)
    (r : HopRequest) : ∀ s ∈ (p.add r).steps, s.typeName = s.incoming.relation.target := by
  intro t ht
  obtain ht | ⟨s, hs, -, rfl⟩ | ⟨parent, -, rfl⟩ := mem_add_steps ht
  · exact h t ht
  · exact h s hs
  · rfl

-- What a hop leaves alone.
@[simp]
theorem add_root (p : Planning) (r : HopRequest) : (p.add r).root = p.root := by
  have h := add_cases p r
  generalize p.add r = q at h
  cases h <;> rfl

@[simp]
theorem foldl_add_root (p : Planning) (requests : List HopRequest) :
    (requests.foldl add p).root = p.root := by
  induction requests generalizing p with
  | nil => rfl
  | cons r rest ih => rw [List.foldl_cons, ih, add_root]

-- What every hop preserves holds of all of them together.
theorem foldl_add_induct {motive : Planning → Prop} {p : Planning} {requests : List HopRequest}
    (hp : motive p) (hadd : ∀ q, ∀ r ∈ requests, motive q → motive (q.add r)) :
    motive (requests.foldl add p) := by
  induction requests generalizing p with
  | nil => exact hp
  | cons r rest ih =>
      exact ih (hadd p r List.mem_cons_self hp) fun q t ht => hadd q t (List.mem_cons_of_mem r ht)

theorem foldl_add_keeps (p : Planning) (requests : List HopRequest) :
    StepsKept p.steps (requests.foldl add p).steps :=
  foldl_add_induct (motive := fun q => StepsKept p.steps q.steps) (.refl _)
    fun q r _ hq => hq.trans (add_keeps q r)

theorem selectedHop?_cases {type : NodeType} {s : Selection} {r : HopRequest}
    (h : selectedHop? type s = some r) :
    ∃ field relation, type.field? s.name = some field ∧ field.relation? = some relation ∧
      r = ⟨[], s.responseKey, s.responseKey, relation, !field.list && field.required,
        .selection⟩ := by
  unfold selectedHop? at h
  cases hfield : type.field? s.name with
  | none => simp [hfield] at h
  | some field =>
      cases hrelation : field.relation? with
      | none => simp [hfield, hrelation] at h
      | some relation =>
          simp only [hfield, hrelation, Option.bind_eq_bind, Option.bind_some, Option.pure_def,
            Option.some.injEq] at h
          exact ⟨field, relation, rfl, hrelation, h.symm⟩

theorem filterHop?_eq_some {hop : FilterHop} {r : HopRequest} :
    filterHop? hop = some r ↔ ∃ path segment, hop.path = path ++ [segment] ∧
      r = ⟨path, segment, hop.field, hop.relation, true, .predicate⟩ := by
  unfold filterHop?
  rw [Option.map_eq_some_iff]
  constructor
  · rintro ⟨segment, hlast, rfl⟩
    obtain ⟨path, hpath⟩ := List.getLast?_eq_some_iff.mp hlast
    exact ⟨path, segment, hpath, by rw [hpath, List.dropLast_concat]⟩
  · rintro ⟨path, segment, hpath, rfl⟩
    exact ⟨segment, by rw [hpath, List.getLast?_concat], by rw [hpath, List.dropLast_concat]⟩

-- The hops of a group-by path, from the type reached so far to the first segment that is no
-- relationship.
def groupHops (catalog : Catalog) (type : NodeType) (path : List String) :
    List String → List HopRequest
  | [] => []
  | segment :: rest =>
    match (type.field? segment).bind Field.relation? with
    | none => []
    | some relation =>
      ⟨path, segment, segment, relation, true, .groupBy⟩ ::
        match catalog.type? relation.target with
        | none => []
        | some target => groupHops catalog target (path ++ [segment]) rest

theorem source_of_mem_groupHops {catalog : Catalog} {type : NodeType} {path segments : List String}
    {r : HopRequest} (hr : r ∈ groupHops catalog type path segments) : r.source = .groupBy := by
  induction segments generalizing type path with
  | nil => cases hr
  | cons segment rest ih =>
      rw [groupHops] at hr
      split at hr
      · cases hr
      · rcases List.mem_cons.mp hr with rfl | hr
        · rfl
        · split at hr
          · cases hr
          · exact ih hr

theorem addGroupHops_cons_cases {catalog : Catalog} {type last : NodeType} {path rest : List String}
    {segment : String} {p q : Planning}
    (h : addGroupHops catalog type path p (segment :: rest) = .ok (last, q)) :
    ∃ relation target, (type.field? segment).bind Field.relation? = some relation ∧
      catalog.type? relation.target = some target ∧
      addGroupHops catalog target (path ++ [segment])
        (p.add ⟨path, segment, segment, relation, true, .groupBy⟩) rest = .ok (last, q) := by
  rw [addGroupHops] at h
  cases hrelation : (type.field? segment).bind Field.relation? with
  | none => simp [hrelation, except_throw_eq_ok] at h
  | some relation =>
      simp only [hrelation, except_bind_eq_ok, Catalog.require_eq_ok] at h
      obtain ⟨target, htarget, hrest⟩ := h
      exact ⟨relation, target, rfl, htarget, hrest⟩

theorem groupHops_cons {catalog : Catalog} {type target : NodeType} {path rest : List String}
    {segment : String} {relation : Relation}
    (hrelation : (type.field? segment).bind Field.relation? = some relation)
    (htarget : catalog.type? relation.target = some target) :
    groupHops catalog type path (segment :: rest) =
      ⟨path, segment, segment, relation, true, .groupBy⟩ ::
        groupHops catalog target (path ++ [segment]) rest := by
  simp only [groupHops, hrelation, htarget]

theorem addGroupHops_eq {catalog : Catalog} {type last : NodeType} {path segments : List String}
    {p q : Planning} (h : addGroupHops catalog type path p segments = .ok (last, q)) :
    q = (groupHops catalog type path segments).foldl add p := by
  induction segments generalizing type path p with
  | nil =>
      cases h
      rfl
  | cons segment rest ih =>
      obtain ⟨relation, target, hrelation, htarget, hrest⟩ := addGroupHops_cons_cases h
      rw [groupHops_cons hrelation htarget]
      exact ih hrest

-- A group-by path adds nothing but its hops.
theorem addGroupBy_hops {catalog : Catalog} {type : NodeType} {written : String} {p q : Planning}
    {key : GroupKey} (h : p.addGroupBy catalog type written = .ok (key, q)) :
    ∃ last, addGroupHops catalog type [] p (Text.pieces written '.').dropLast = .ok (last, q) := by
  unfold addGroupBy at h
  simp only [except_bind_eq_ok] at h
  obtain ⟨⟨last, q'⟩, hhops, h⟩ := h
  have hq : q = q' := by
    split at h
    · simp [except_throw_eq_ok, except_bind_eq_ok] at h
    · split at h
      · cases h
        rfl
      · simp [except_throw_eq_ok] at h
  exact ⟨last, hq ▸ hhops⟩

end Planning

namespace Plan

-- The segments of a group-by path that have to be relationships.
def groupSegments : Option String → List String
  | none => []
  | some written => (Text.pieces written '.').dropLast

-- The hops that the parts of a read field ask for, those of the filter last.
def requests (catalog : Catalog) (type : NodeType) (selections : List Selection)
    (groupBy : Option String) (predicate : Predicate) : List HopRequest :=
  selections.filterMap (Planning.selectedHop? type) ++
    Planning.groupHops catalog type [] (groupSegments groupBy) ++
    predicate.hops.filterMap Planning.filterHop?

variable {catalog : Catalog} {root : Root} {selections : List Selection} {groupBy : Option String}
  {predicate : Predicate} {aliases aliases' : AliasRegistry} {plan : Plan}

-- A plan adds its hops one after the other.
theorem make_requests
    (h : make catalog root selections groupBy predicate aliases = .ok (plan, aliases')) :
    ∃ type, catalog.type? root.typeName = some type ∧
      (∃ p last q, Planning.addGroupHops catalog type [] p (groupSegments groupBy) =
        .ok (last, q)) ∧
      ∃ q, q = (requests catalog type selections groupBy predicate).foldl Planning.add
          (Planning.start root aliases) ∧
        plan.root = root ∧ plan.steps = q.steps ∧ aliases' = q.aliases := by
  unfold make at h
  simp only [except_bind_eq_ok, Catalog.require_eq_ok] at h
  obtain ⟨type, htype, h⟩ := h
  refine ⟨type, htype, ?_⟩
  cases groupBy with
  | none =>
      simp only [pure_bind] at h
      cases h
      refine ⟨⟨Planning.start root aliases, _, _, rfl⟩, _, rfl, ?_⟩
      simp [requests, groupSegments, Planning.groupHops, Planning.addFilters,
        Planning.addSelections, Planning.start]
  | some written =>
      simp only [except_bind_eq_ok] at h
      obtain ⟨⟨key, p⟩, hgroup, _, hr, h⟩ := h
      cases hr
      cases h
      obtain ⟨last, hhops⟩ := Planning.addGroupBy_hops hgroup
      refine ⟨⟨_, last, p, hhops⟩, _, rfl, ?_⟩
      obtain rfl := Planning.addGroupHops_eq hhops
      simp [requests, groupSegments, Planning.addFilters, Planning.addSelections, Planning.start]

theorem make_cases
    (h : make catalog root selections groupBy predicate aliases = .ok (plan, aliases')) :
    ∃ type, ∃ groups : List HopRequest, catalog.type? root.typeName = some type ∧
      (∀ r ∈ groups, r.source = .groupBy) ∧ (groupBy = none → groups = []) ∧
      ∃ q, q = (selections.filterMap (Planning.selectedHop? type) ++ groups ++
          predicate.hops.filterMap Planning.filterHop?).foldl Planning.add
            (Planning.start root aliases) ∧
        plan.root = root ∧ plan.steps = q.steps ∧ aliases' = q.aliases := by
  obtain ⟨type, htype, -, hmade⟩ := make_requests h
  refine ⟨type, Planning.groupHops catalog type [] (groupSegments groupBy), htype,
    fun _ => Planning.source_of_mem_groupHops, ?_, hmade⟩
  rintro rfl
  rfl

theorem make_root
    (h : make catalog root selections groupBy predicate aliases = .ok (plan, aliases')) :
    plan.root = root := by
  obtain ⟨_, _, _, _, _, _, _, hroot, _⟩ := make_cases h
  exact hroot

theorem make_typeName
    (h : make catalog root selections groupBy predicate aliases = .ok (plan, aliases')) :
    ∀ s ∈ plan.steps, s.typeName = s.incoming.relation.target := by
  obtain ⟨_, _, _, _, _, q, rfl, _, hsteps, _⟩ := make_cases h
  rw [hsteps]
  exact Planning.foldl_add_induct
    (motive := fun q => ∀ s ∈ q.steps, s.typeName = s.incoming.relation.target)
    (by simp [Planning.start]) fun q r _ hq => Planning.add_typeName hq r

theorem make_selectionStep?_typeName
    (h : make catalog root selections groupBy predicate aliases = .ok (plan, aliases'))
    {key : String} {step : Step} (hstep : plan.selectionStep? key = some step) :
    step.typeName = step.incoming.relation.target :=
  make_typeName h step (List.mem_of_find?_eq_some hstep)

end Plan

end CypherCompiler
