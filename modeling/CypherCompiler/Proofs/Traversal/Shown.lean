import CypherCompiler.Compilation.Source
import CypherCompiler.Proofs.Traversal.Steps

namespace CypherCompiler

-- The relation that is followed for a response key.
def shownRelation? (steps : List Step) (key : String) : Option Relation :=
  (findStep? steps [key] .selection).map fun s => s.incoming.relation

-- The relation behind a response key is that of the first relationship selected under it.
def NodeType.selectedRelation? (type : NodeType) (selections : List Selection) (key : String) :
    Option Relation :=
  selections.findSome? fun s =>
    if s.responseKey = key then (type.field? s.name).bind Field.relation? else none

namespace Planning

variable {p : Planning} {r : HopRequest} {key : String}

theorem shownRelation?_nil (key : String) : shownRelation? [] key = none := rfl

theorem shownRelation?_append (steps more : List Step) (key : String) :
    shownRelation? (steps ++ more) key =
      (shownRelation? steps key).or (shownRelation? more key) := by
  rw [shownRelation?, findStep?, List.find?_append, Option.map_or]
  rfl

theorem shownRelation?_cons (s : Step) (rest : List Step) (key : String) :
    shownRelation? (s :: rest) key =
      if s.path = [key] ∧ s.origin.has .selection = true then some s.incoming.relation
      else shownRelation? rest key := by
  rw [shownRelation?, findStep?, List.find?_cons]
  by_cases h : s.path = [key] ∧ s.origin.has .selection = true
  · simp [h]
  · simp only [h, if_false]
    rw [not_and_or] at h
    have htest : (s.path == [key] && s.origin.has .selection) = false := by
      cases h <;> simp [*]
    rw [htest]
    rfl

-- A hop adds to what is shown only where nothing is shown yet.
theorem add_shownRelation?
    (hroot : r.source = .selection → r.parentPath = [])
    (hselected : r.source = .selection → ∀ s ∈ p.steps, s.origin.has .selection = true) :
    shownRelation? (p.add r).steps key = (shownRelation? p.steps key).or
      (if r.source = .selection ∧ r.path = [key] then some r.relation else none) := by
  have hadd := add_cases p r
  generalize p.add r = q at hadd
  cases hadd with
  | @shared before after s hsteps hmatch hbefore =>
      obtain ⟨hpath, hrelation⟩ := HopRequest.matchesStep_iff.mp hmatch
      rw [hsteps] at hselected ⊢
      simp only [shownRelation?_append, shownRelation?_cons, HopRequest.mergeInto,
        HopOrigin.has_add]
      by_cases hsource : r.source = .selection
      · have hs := hselected hsource s (by simp)
        by_cases hkey : r.path = [key] <;> simp [hsource, hs, hpath, hrelation, hkey]
      · simp [hsource]
  | opened =>
      simp [shownRelation?_append, shownRelation?_cons, shownRelation?_nil, HopRequest.opened,
        HopOrigin.has_ofSource, and_comm]
  | dropped hnew hmissing =>
      by_cases hsource : r.source = .selection
      · simp [findNode?, hroot hsource] at hmissing
      · simp [hsource]

theorem add_all_selected (hsource : r.source = .selection)
    (hselected : ∀ s ∈ p.steps, s.origin.has .selection = true) :
    ∀ s ∈ (p.add r).steps, s.origin.has .selection = true := by
  intro t ht
  obtain ht | ⟨s, hs, -, rfl⟩ | ⟨parent, -, rfl⟩ := mem_add_steps ht
  · exact hselected t ht
  · simp [HopRequest.mergeInto, HopOrigin.has_add, hselected s hs]
  · simp [HopRequest.opened, HopOrigin.has_ofSource, hsource]

theorem selectedRelation?_cons (type : NodeType) (s : Selection) (rest : List Selection)
    (key : String) :
    type.selectedRelation? (s :: rest) key =
      (if s.responseKey = key then (type.field? s.name).bind Field.relation? else none).or
        (type.selectedRelation? rest key) := by
  rw [NodeType.selectedRelation?, List.findSome?_cons]
  split <;> simp [*, NodeType.selectedRelation?]

-- Selections are looked at in their order.
theorem foldl_add_selections_shownRelation? {type : NodeType} (selections : List Selection)
    (hselected : ∀ s ∈ p.steps, s.origin.has .selection = true) :
    shownRelation? ((selections.filterMap (selectedHop? type)).foldl add p).steps key =
      (shownRelation? p.steps key).or (type.selectedRelation? selections key) := by
  induction selections generalizing p with
  | nil => simp [NodeType.selectedRelation?]
  | cons s rest ih =>
      rw [selectedRelation?_cons]
      cases hhop : selectedHop? type s with
      | none =>
          have hnone : (type.field? s.name).bind Field.relation? = none := by
            cases hfound : (type.field? s.name).bind Field.relation? with
            | none => rfl
            | some relation =>
                obtain ⟨field, hfield, hrelation⟩ := Option.bind_eq_some_iff.mp hfound
                simp [selectedHop?, hfield, hrelation] at hhop
          rw [List.filterMap_cons_none hhop, ih hselected, hnone, ite_self, Option.none_or]
      | some r =>
          obtain ⟨field, relation, hfield, hrelation, rfl⟩ := selectedHop?_cases hhop
          rw [List.filterMap_cons_some hhop, List.foldl_cons, ih (add_all_selected rfl hselected),
            add_shownRelation? (fun _ => rfl) (fun _ => hselected), Option.or_assoc, hfield,
            Option.bind_some, hrelation]
          simp [HopRequest.path]

end Planning

namespace Plan

variable {catalog : Catalog} {root : Root} {selections : List Selection}
  {groupBy : Option String} {predicate : Predicate} {aliases aliases' : AliasRegistry} {plan : Plan}

-- Neither a group-by path nor a filter changes what is shown.
theorem make_shownRelation? {type : NodeType} (htype : catalog.type? root.typeName = some type)
    (h : make catalog root selections groupBy predicate aliases = .ok (plan, aliases'))
    (key : String) : shownRelation? plan.steps key = type.selectedRelation? selections key := by
  obtain ⟨found, groups, hfound, hgroups, -, q, rfl, -, hsteps, -⟩ := make_cases h
  obtain rfl : found = type := Option.some.inj (hfound.symm.trans htype)
  rw [hsteps, List.append_assoc, List.foldl_append]
  refine Planning.foldl_add_induct (motive := fun q =>
    shownRelation? q.steps key = found.selectedRelation? selections key) ?_ ?_
  · rw [Planning.foldl_add_selections_shownRelation? selections (by simp [Planning.start])]
    rfl
  · intro q r hr hq
    have hother : r.source ≠ .selection := by
      obtain hr | hr := List.mem_append.mp hr
      · simp [hgroups r hr]
      · obtain ⟨hop, -, hhop⟩ := List.mem_filterMap.mp hr
        obtain ⟨_, _, -, rfl⟩ := Planning.filterHop?_eq_some.mp hhop
        simp
    rw [Planning.add_shownRelation? (fun hsource => (hother hsource).elim)
      (fun hsource => (hother hsource).elim), hq, if_neg (fun hboth => hother hboth.1),
      Option.or_none]

-- The step of a selected relationship follows the relation that is shown under its response key,
-- to nodes of the type that this relation leads to.
def Shows (plan : Plan) (type : NodeType) (selections : List Selection) : Prop :=
  ∀ {key step}, plan.selectionStep? key = some step →
    type.selectedRelation? selections key = some step.incoming.relation ∧
      step.typeName = step.incoming.relation.target

theorem make_shows {type : NodeType} (htype : catalog.type? root.typeName = some type)
    (h : make catalog root selections groupBy predicate aliases = .ok (plan, aliases')) :
    plan.Shows type selections := by
  intro key step hstep
  refine ⟨?_, make_selectionStep?_typeName h hstep⟩
  rw [← make_shownRelation? htype h key, shownRelation?]
  exact congrArg (Option.map fun s : Step => s.incoming.relation) hstep

end Plan

end CypherCompiler
