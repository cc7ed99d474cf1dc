import Mathlib.Data.List.Forall2
import CypherCompiler.Proofs.Filter.Apart
import CypherCompiler.Proofs.Outcome.Compilation
import CypherCompiler.Proofs.Outcome.Source
import CypherCompiler.Proofs.Traversal.Steps

namespace CypherCompiler

open Cypher

namespace Cypher

mutual

-- The hops of a condition that are not simply required, as they stand in the condition.
def Condition.apartHops (apart : Bool) : Condition → List Hop
  | .compare .. => []
  | .all children => apartHopsOfAll apart children
  | .any children => apartHopsOfAll apart children
  | .not child => apartHops true child
  | .related hop quantifier child =>
    if apart = true ∨ quantifier ≠ .some then hop :: apartHops true child
    else apartHops false child

def Condition.apartHopsOfAll (apart : Bool) : List Condition → List Hop
  | [] => []
  | c :: rest => apartHops apart c ++ apartHopsOfAll apart rest

end

-- The names that a pattern binds.
def Pattern.names (p : Pattern) : List String :=
  (match p.start with
    | .node name _ => [name]
    | .hop h => [h.parent, h.child]) ++ p.chain.map Hop.child

theorem Condition.apartHopsOfAll_append (apart : Bool) (cs more : List Condition) :
    apartHopsOfAll apart (cs ++ more) = apartHopsOfAll apart cs ++ apartHopsOfAll apart more := by
  induction cs with
  | nil => rfl
  | cons c rest ih =>
      rw [List.cons_append, apartHopsOfAll, apartHopsOfAll, ih, List.append_assoc]

-- The presence of a related node is simply required.
theorem Condition.apartHopsOfAll_leadsSomewhere (hops : List Hop) :
    apartHopsOfAll false (hops.map leadsSomewhere) = [] := by
  induction hops with
  | nil => rfl
  | cons hop rest ih =>
      have hone : (leadsSomewhere hop).apartHops false = [] := by
        simp [leadsSomewhere, apartHops, apartHopsOfAll]
      rw [List.map_cons, apartHopsOfAll, hone, ih]
      rfl

end Cypher

namespace Plan

variable {plan : Plan}

mutual

-- A plan states the hops of a predicate one by one, and leaves them where they stand.
theorem condition_apartHops (apart : Bool) : ∀ (p : Predicate) (c : Condition),
    plan.condition p = .ok c →
      List.Forall₂ (fun asked hop => plan.filterHop asked = .ok hop) (p.apartHops apart)
        (c.apartHops apart)
  | .compare comparison, c, h => by
      obtain ⟨node, -, rfl⟩ := condition_compare_eq_ok.mp h
      exact .nil
  | .all children, c, h => by
      obtain ⟨cs, hcs, rfl⟩ := condition_all_eq_ok.mp h
      rw [Predicate.apartHops, Condition.apartHops]
      exact conditions_apartHops apart children cs hcs
  | .any children, c, h => by
      obtain ⟨cs, hcs, rfl⟩ := condition_any_eq_ok.mp h
      rw [Predicate.apartHops, Condition.apartHops]
      exact conditions_apartHops apart children cs hcs
  | .not child, c, h => by
      obtain ⟨inner, hinner, rfl⟩ := condition_not_eq_ok.mp h
      rw [Predicate.apartHops, Condition.apartHops]
      exact condition_apartHops true child inner hinner
  | .related hop child, c, h => by
      obtain ⟨s, inner, hs, hinner, rfl⟩ := condition_related_eq_ok.mp h
      rw [Predicate.apartHops, Condition.apartHops]
      split
      · exact .cons (filterHop_eq_ok.mpr ⟨s, hs, rfl⟩) (condition_apartHops true child inner hinner)
      · exact condition_apartHops false child inner hinner

theorem conditions_apartHops (apart : Bool) : ∀ (ps : List Predicate) (cs : List Condition),
    plan.conditions ps = .ok cs →
      List.Forall₂ (fun asked hop => plan.filterHop asked = .ok hop)
        (Predicate.apartHopsOfAll apart ps) (Condition.apartHopsOfAll apart cs)
  | [], cs, h => by
      rw [conditions_nil_eq_ok.mp h]
      exact .nil
  | p :: rest, cs, h => by
      obtain ⟨c, more, hc, hmore, rfl⟩ := conditions_cons_eq_ok.mp h
      rw [Predicate.apartHopsOfAll, Condition.apartHopsOfAll]
      exact List.rel_append (condition_apartHops apart p c hc)
        (conditions_apartHops apart rest more hmore)

end

theorem sourceConditions_apartHops {predicate : Predicate} {conditions : List Condition}
    (h : plan.sourceConditions predicate = .ok conditions) :
    List.Forall₂ (fun asked hop => plan.filterHop asked = .ok hop) (predicate.apartHops false)
      (Condition.apartHopsOfAll false conditions) := by
  obtain ⟨stated, rfl, hstated⟩ := sourceConditions_eq_ok h
  rw [Condition.apartHopsOfAll_append, ← List.map_map, Condition.apartHopsOfAll_leadsSomewhere,
    List.append_nil]
  obtain ⟨rfl, rfl⟩ | ⟨c, hc, rfl⟩ := hstated
  · exact .nil
  · rw [Condition.apartHopsOfAll, Condition.apartHopsOfAll, List.append_nil]
    exact condition_apartHops false predicate c hc

end Plan

namespace Planning

-- The steps of a group-by path stay on the path.
def GroupedWithin (limit : List String) (steps : List Step) : Prop :=
  ∀ s ∈ steps, s.origin.groupBy = true → s.path <+: limit

variable {p : Planning} {limit : List String}

theorem add_groupedWithin (h : GroupedWithin limit p.steps) {r : HopRequest}
    (hr : r.source = .groupBy → r.path <+: limit) : GroupedWithin limit (p.add r).steps := by
  intro t ht horigin
  obtain ht | ⟨s, hs, hmatch, rfl⟩ | ⟨parent, -, rfl⟩ := mem_add_steps ht
  · exact h t ht horigin
  · have hasked : (s.origin.add r.source).has .groupBy = true := horigin
    rw [HopOrigin.has_add, Bool.or_eq_true, decide_eq_true_eq] at hasked
    cases hasked with
    | inl hold => exact h s hs hold
    | inr hsource =>
        have hpath : s.path = r.path := (HopRequest.matchesStep_iff.mp hmatch).1
        exact hpath ▸ hr hsource
  · have hasked : (HopOrigin.ofSource r.source).has .groupBy = true := horigin
    rw [HopOrigin.has_ofSource, decide_eq_true_eq] at hasked
    exact hr hasked

theorem foldl_add_groupedWithin (h : GroupedWithin limit p.steps) {requests : List HopRequest}
    (hrequests : ∀ r ∈ requests, r.source ≠ .groupBy) :
    GroupedWithin limit (requests.foldl add p).steps :=
  foldl_add_induct (motive := fun q => GroupedWithin limit q.steps) h fun _ r hr hq =>
    add_groupedWithin hq fun hsource => (hrequests r hr hsource).elim

theorem addGroupHops_groupedWithin {catalog : Catalog} {type last : NodeType}
    {path segments : List String} {q : Planning} (h : GroupedWithin limit p.steps)
    (hhops : addGroupHops catalog type path p segments = .ok (last, q))
    (hlimit : path ++ segments <+: limit) : GroupedWithin limit q.steps := by
  induction segments generalizing type path p with
  | nil =>
      cases hhops
      exact h
  | cons segment rest ih =>
      obtain ⟨relation, target, -, -, hrest⟩ := addGroupHops_cons_cases hhops
      have hlonger : (path ++ [segment]) ++ rest <+: limit := by
        simpa using hlimit
      have hpath : path ++ [segment] <+: limit := (List.prefix_append _ rest).trans hlonger
      have hnext := add_groupedWithin h
        (r := ⟨path, segment, segment, relation, true, .groupBy⟩) fun _ => hpath
      exact ih hnext hrest hlonger

end Planning

namespace Plan

variable {catalog : Catalog} {root : Root} {selections : List Selection} {written : String}
  {predicate : Predicate} {aliases aliases' : AliasRegistry} {plan : Plan}

theorem make_groupedWithin
    (h : make catalog root selections (some written) predicate aliases = .ok (plan, aliases')) :
    Planning.GroupedWithin (Text.pieces written '.').dropLast plan.steps := by
  unfold make at h
  simp only [except_bind_eq_ok] at h
  obtain ⟨type, -, ⟨key, q⟩, hadd, _, hr, h⟩ := h
  cases hr
  cases h
  obtain ⟨last, hhops⟩ := Planning.addGroupBy_hops hadd
  have hstart : Planning.GroupedWithin (Text.pieces written '.').dropLast
      (Planning.start root aliases).steps := by
    simp [Planning.GroupedWithin, Planning.start]
  have hselections : ∀ r ∈ selections.filterMap (Planning.selectedHop? type),
      r.source ≠ .groupBy := by
    intro r hr
    obtain ⟨s, -, hs⟩ := List.mem_filterMap.mp hr
    obtain ⟨_, _, -, -, rfl⟩ := Planning.selectedHop?_cases hs
    simp
  have hselected := Planning.foldl_add_groupedWithin hstart hselections
  have hgrouped := Planning.addGroupHops_groupedWithin hselected hhops (List.prefix_refl _)
  refine Planning.foldl_add_groupedWithin hgrouped fun r hr => ?_
  obtain ⟨hop, -, hhop⟩ := List.mem_filterMap.mp hr
  obtain ⟨_, _, -, rfl⟩ := Planning.filterHop?_eq_some.mp hhop
  simp

-- The outer pattern of a plan that starts a statement binds the root and the steps of the group-by
-- path.
theorem pattern_names {type : NodeType} {pattern : Pattern} (hroot : plan.root.incoming = none)
    (h : plan.pattern type = .ok pattern) :
    pattern.names = plan.root.node :: plan.groupBySteps.map Step.node := by
  unfold Plan.pattern at h
  simp only [except_bind_eq_ok, except_pure_eq_ok, hroot] at h
  obtain ⟨hops, hhops, rfl⟩ := h
  rw [Pattern.names, chainFrom_eq_ok hhops, List.map_map]
  rfl

-- A hop of the filter is stated through a step of its own, and leads to a node that the pattern
-- does not bind.
structure KeptApart (plan : Plan) (pattern : Pattern) (asked : FilterHop) (hop : Hop) : Prop where
  step : ∃ s, plan.step? asked.path .predicate = some s ∧ s.origin.groupBy = false ∧
    hop = ⟨s.incoming.parent, asked.relation, s.node⟩
  unbound : hop.child ∉ pattern.names

theorem make_keptApart {type : NodeType} (hroot : root.incoming = none)
    (h : make catalog root selections (some written) predicate aliases = .ok (plan, aliases'))
    {pattern : Pattern} (hpattern : plan.pattern type = .ok pattern) {asked : FilterHop}
    (hpath : ¬ asked.path <+: (Text.pieces written '.').dropLast) {hop : Hop}
    (hhop : plan.filterHop asked = .ok hop) : plan.KeptApart pattern asked hop := by
  have hnamed := make_newlyNamed h
  have hmade := make_root h
  obtain ⟨s, hs, rfl⟩ := filterHop_eq_ok.mp hhop
  obtain ⟨hmem, hspath, -⟩ := findStep?_eq_some hs
  have hgroup : s.origin.groupBy = false := by
    rw [Bool.eq_false_iff]
    intro hgrouped
    exact hpath (hspath ▸ make_groupedWithin h s hmem hgrouped)
  refine ⟨⟨s, hs, hgroup, rfl⟩, ?_⟩
  rw [pattern_names (by rw [hmade, hroot]) hpattern, List.mem_cons, List.mem_map]
  -- no step is named like the root, and no two steps are named alike
  rintro (hname | ⟨t, ht, hname⟩)
  · apply hnamed.fresh s hmem
    rw [← hmade]
    exact AliasRegistry.mem_reserve.mpr (.inl hname)
  · obtain ⟨htmem, hgrouped⟩ := List.mem_filter.mp ht
    obtain rfl := hnamed.eq_of_node_eq htmem hmem hname
    rw [hgroup] at hgrouped
    cases hgrouped

end Plan

namespace Request

variable {r : Request} {catalog : Catalog} {config : Config} {type : NodeType}

-- A grouped count reads the node of its group only where the filter simply requires it: every other
-- hop of the filter has a node of its own, unless the group-by path itself is spelt like such a
-- hop.
theorem compile_keptApart (hcount : r.operation = .count)
    (htype : r.rootType catalog config = .ok type) {written : String}
    (hgroup : r.field.groupByPath = .ok (some written))
    (hplain : ¬ catalog.NamesQuantified type (Text.pieces written '.').dropLast)
    {plan : StatementPlan} (h : r.compile catalog config = .ok plan) :
    ∃ query search read d e, plan.statement = .count query ∧
      r.field.searchCall ⟨Alias.root type.name, type.name, none⟩ type .root r.initialDraft =
        .ok (search, d) ∧
      r.field.planRead catalog config.strictArguments ⟨Alias.root type.name, type.name, none⟩ .root
        [] (some written) d = .ok (read, e) ∧
      read.plan.source type read.predicate search = .ok query.source ∧
      List.Forall₂ (read.plan.KeptApart query.source.pattern) (read.predicate.apartHops false)
        (Condition.apartHopsOfAll false query.source.conditions) := by
  obtain ⟨found, d, hfound, -, hstatement, -⟩ := compile_cases h
  obtain rfl : found = type := Except.ok.inj (hfound.symm.trans htype)
  have hmem := type?_of_rootType htype
  obtain ⟨hother, -⟩ | ⟨-, query, hquery, hrun⟩ | hmutation := statement_cases hstatement
  · cases hcount.symm.trans hother
  · obtain ⟨search, e, groupBy, read, source, hsearch, hpath, hread, hsource, rfl⟩ :=
      Selection.countQuery_cases hrun
    obtain rfl : groupBy = some written := Except.ok.inj (hpath.symm.trans hgroup)
    obtain ⟨type', htype', hpredicate, hmake⟩ := Selection.planRead_cases hread
    obtain rfl : type' = found := Option.some.inj (htype'.symm.trans hmem)
    have hapart := Predicate.ofSelection_apart hpredicate
    obtain ⟨-, hpattern, hconditions⟩ := Plan.source_eq_ok hsource
    refine ⟨_, search, read, e, d, hquery, hsearch, hread, hsource, ?_⟩
    have hstated := (List.forall₂_and_left _ _).mpr
      ⟨hapart, Plan.sourceConditions_apartHops hconditions⟩
    refine hstated.imp fun asked hop ⟨hnames, hhop⟩ => ?_
    refine Plan.make_keptApart rfl hmake hpattern ?_ hhop
    rintro ⟨more, hmore⟩
    exact hplain (hmore ▸ hnames.append more)
  · rw [hcount] at hmutation
    generalize plan.statement = statement at hmutation
    cases Mutation.statement_cases hmutation with
    | change hoperation => simp at hoperation

-- Counts the persons of each movie title who were in no movie of one title, and in some movie with
-- a single actor of another name.
def titleCountsRequest : Request :=
  ⟨.count, ⟨"CountPerson", none,
    [("filter", .obj [("movies_not", .obj [("title", .str "Up")]),
      ("movies", .obj [("actors_single", .obj [("name_not", .str "Ann")])])]),
      ("groupBy", .str "movies.title")], []⟩, none, [], ⟨[]⟩⟩

theorem not_namesQuantified_movies : ¬ movies.NamesQuantified personType ["movies"] := by
  intro h
  generalize hpath : ["movies"] = path at h
  cases h with
  | @here _ field quantifier _ hfield _ =>
      have hdistinct : ∀ f ∈ personType.fields, ∀ q : Quantifier,
          "movies" ≠ f.name ++ "_" ++ q.suffix := by
        intro f hf q
        cases q <;> revert f <;> decide
      exact hdistinct field hfield quantifier (List.cons.inj hpath).1
  | beyond _ _ _ hrest =>
      obtain ⟨-, rfl⟩ := List.cons.inj hpath
      cases hrest

theorem compile_keptApart_titleCounts :
    ∃ plan query, titleCountsRequest.compile movies .default = .ok plan ∧
      plan.statement = .count query ∧
      ¬ movies.NamesQuantified personType (Text.pieces "movies.title" '.').dropLast ∧
      query.source.pattern.names = ["person", "person_movies"] ∧
      (Condition.apartHopsOfAll false query.source.conditions).map Hop.child =
        ["person_movies_2", "person_movies_actors"] ∧
      ∀ hop ∈ Condition.apartHopsOfAll false query.source.conditions,
        hop.child ∉ query.source.pattern.names := by
  have hpieces : (Text.pieces "movies.title" '.').dropLast = ["movies"] := by decide
  have hplain : ¬ movies.NamesQuantified personType (Text.pieces "movies.title" '.').dropLast := by
    rw [hpieces]
    exact not_namesQuantified_movies
  obtain ⟨plan, hplan⟩ : ∃ plan, titleCountsRequest.compile movies .default = .ok plan :=
    ⟨_, rfl⟩
  have htype : titleCountsRequest.rootType movies .default = .ok personType := rfl
  obtain ⟨query, search, read, d, e, hquery, -, -, -, hkept⟩ :=
    compile_keptApart rfl htype rfl hplain hplan
  have hunbound : ∀ hop ∈ Condition.apartHopsOfAll false query.source.conditions,
      hop.child ∉ query.source.pattern.names := by
    intro hop hhop
    obtain ⟨i, hi, rfl⟩ := List.getElem_of_mem hhop
    exact (hkept.get (by rw [hkept.length_eq]; exact hi) hi).unbound
  refine ⟨plan, query, hplan, hquery, hplain, ?_, ?_, hunbound⟩
  · cases hplan
    cases hquery
    rfl
  · cases hplan
    cases hquery
    rfl

-- Persons with a relationship that is called like another one with the ending of a quantifier.
def stageType : NodeType where
  name := "Person"
  additionalLabels := []
  scopes := .unrestricted
  fields :=
    [⟨"name", .scalar .string, false, true, false, true, none, [], []⟩,
      ⟨"movies", .relationship ⟨"ACTED_IN", .out, "Movie"⟩, true, false, false, false, none, [],
        []⟩,
      ⟨"movies_none", .relationship ⟨"ACTED_IN", .out, "Movie"⟩, true, false, false, false, none,
        [], []⟩]
  primaryKey := some "name"
  fields_nodup := by decide
  primaryKey_scalar := by decide

def filmType : NodeType where
  name := "Movie"
  additionalLabels := []
  scopes := .unrestricted
  fields := [⟨"title", .scalar .string, false, true, false, true, none, [], []⟩]
  primaryKey := some "title"
  fields_nodup := by decide
  primaryKey_scalar := by decide

def stages : Catalog where
  types := [stageType, filmType]
  types_nodup := by decide
  closed := by decide

-- Grouped by the other relationship, the hop of the first one reads the node of the group.
theorem compile_reads_grouped :
    ∃ plan query,
      (⟨.count, ⟨"CountPerson", none,
        [("filter", .obj [("movies_not", .obj [("title", .str "Up")])]),
          ("groupBy", .str "movies_none.title")], []⟩, none, [], ⟨[]⟩⟩ : Request).compile stages
        .default = .ok plan ∧
      plan.statement = .count query ∧
      query.source.pattern.names = ["person", "person_movies_none"] ∧
      Condition.apartHopsOfAll false query.source.conditions =
        [⟨"person", ⟨"ACTED_IN", .out, "Movie"⟩, "person_movies_none"⟩] :=
  ⟨_, _, rfl, rfl, rfl, rfl⟩

end Request

end CypherCompiler
