import CypherCompiler.Proofs.Authorization.Grouped
import CypherCompiler.Proofs.Cypher.Wording
import CypherCompiler.Proofs.Traversal.Asked
import CypherCompiler.Proofs.Traversal.Resolved

namespace CypherCompiler

open Cypher Selection

-- Names that lead from one type to another: each is a relationship of the type reached so far.
inductive Catalog.LeadsAlong (c : Catalog) :
    NodeType → List String → List Relation → NodeType → Prop
  | nil {type : NodeType} : LeadsAlong c type [] [] type
  | cons {type target last : NodeType} {name : String} {relation : Relation} {names : List String}
      {relations : List Relation} (hname : (type.field? name).bind Field.relation? = some relation)
      (htarget : c.type? relation.target = some target)
      (h : LeadsAlong c target names relations last) :
      LeadsAlong c type (name :: names) (relation :: relations) last

-- A group-by path that can be followed: its last segment is a stored property of the type that all
-- segments before it lead to.
def Catalog.Groups (c : Catalog) (type : NodeType) (segments : List String)
    (relations : List Relation) (field : Field) : Prop :=
  ∃ names name last, segments = names ++ [name] ∧ c.LeadsAlong type names relations last ∧
    last.field? name = some field ∧ field.isProperty = true

-- The first segment at which a group-by path cannot be followed.
def Catalog.BreaksAt (c : Catalog) (type : NodeType) (segments : List String)
    (segment : String) : Prop :=
  ∃ before after relations reached, segments = before ++ segment :: after ∧
    c.LeadsAlong type before relations reached ∧
      if after = [] then (reached.field? segment).any Field.isProperty = false
      else (reached.field? segment).bind Field.relation? = none

namespace Catalog

variable {c : Catalog} {type : NodeType}

-- Names either lead somewhere or stop at one that is no relationship.
theorem leads_or_stops (htype : type ∈ c.types) (names : List String) :
    (∃ relations last, c.LeadsAlong type names relations last) ∨
      ∃ before name after relations reached, names = before ++ name :: after ∧
        c.LeadsAlong type before relations reached ∧
        (reached.field? name).bind Field.relation? = none := by
  induction names generalizing type with
  | nil => exact .inl ⟨[], type, .nil⟩
  | cons name rest ih =>
      cases hname : (type.field? name).bind Field.relation? with
      | none => exact .inr ⟨[], name, rest, [], type, rfl, .nil, hname⟩
      | some relation =>
          obtain ⟨field, hfield, hkind⟩ := Option.bind_eq_some_iff.mp hname
          obtain ⟨target, hmem, htarget⟩ := exists_target htype
            (NodeType.field?_eq_some hfield).1 (Field.target?_of_relation? hkind)
          obtain ⟨relations, last, hleads⟩ |
            ⟨before, stop, after, relations, reached, rfl, hleads, hstop⟩ := ih hmem
          · exact .inl ⟨relation :: relations, last, .cons hname htarget hleads⟩
          · exact .inr ⟨name :: before, stop, after, relation :: relations, reached, rfl,
              .cons hname htarget hleads, hstop⟩

-- A path that cannot be followed breaks somewhere.
theorem groups_or_breaksAt (htype : type ∈ c.types) {segments : List String}
    (hsegments : segments ≠ []) :
    (∃ relations field, c.Groups type segments relations field) ∨
      ∃ segment, c.BreaksAt type segments segment := by
  obtain ⟨names, name, rfl⟩ := (List.eq_nil_or_concat' segments).resolve_left hsegments
  obtain ⟨relations, last, hleads⟩ |
    ⟨before, stop, after, relations, reached, rfl, hleads, hstop⟩ := leads_or_stops htype names
  · cases hproperty : (last.field? name).any Field.isProperty with
    | false => exact .inr ⟨name, names, [], relations, last, rfl, hleads, by simpa using hproperty⟩
    | true =>
        rw [Option.any_eq_true] at hproperty
        obtain ⟨field, hfield, hstored⟩ := hproperty
        exact .inl ⟨relations, field, names, name, last, rfl, hleads, hfield, hstored⟩
  · exact .inr ⟨stop, before, after ++ [name], relations, reached, by simp, hleads,
      by rwa [if_neg (by simp)]⟩

end Catalog

-- Steps that follow the names of a path, one step for each name.
structure FormsPath (steps : List Step) (first last : String) (names : List String)
    (relations : List Relation) : Prop where
  paths : steps.map Step.path = names.inits.tail
  relations : steps.map (·.incoming.relation) = relations
  required : ∀ s ∈ steps, s.required = true
  trail : Trail first last steps

-- A step that is asked for once more keeps its place.
theorem FormsPath.mergeInto {before after : List Step} {s : Step} {first last : String}
    {names : List String} {relations : List Relation}
    (h : FormsPath (before ++ s :: after) first last names relations) (r : HopRequest) :
    FormsPath (before ++ r.mergeInto s :: after) first last names relations := by
  obtain ⟨hpaths, hrelations, hrequired, htrail⟩ := h
  refine ⟨?_, ?_, ?_, htrail.update rfl rfl⟩
  · rw [← hpaths, List.map_append, List.map_append]
    rfl
  · rw [← hrelations, List.map_append, List.map_append]
    rfl
  · rw [List.forall_mem_append, List.forall_mem_cons] at hrequired ⊢
    obtain ⟨hbefore, hs, hafter⟩ := hrequired
    refine ⟨hbefore, ?_, hafter⟩
    rw [HopRequest.mergeInto, hs]
    rfl

namespace Planning

variable {catalog : Catalog} {type last : NodeType} {path names : List String}
  {relations : List Relation} {p : Planning} {node : String}

-- The names that lead somewhere are planned before those that follow them are looked at.
theorem addGroupHops_append (h : catalog.LeadsAlong type names relations last) (path : List String)
    (p : Planning) (rest : List String) :
    addGroupHops catalog type path p (names ++ rest) =
      addGroupHops catalog last (path ++ names)
        ((groupHops catalog type path names).foldl Planning.add p) rest := by
  induction h generalizing path p with
  | nil => simp [groupHops]
  | @cons type target last name relation names relations hname htarget h ih =>
      have hrequire : catalog.require relation.target = .ok target :=
        Catalog.require_eq_ok.mpr htarget
      rw [groupHops_cons hname htarget, List.foldl_cons, List.cons_append, addGroupHops]
      simp only [hname, hrequire]
      rw [List.append_cons path name names]
      exact ih _ _

-- Each of them opens a step behind all others.
theorem GroupedTo.opens_all (h : p.GroupedTo path node)
    (hleads : catalog.LeadsAlong type names relations last) :
    ∃ opened next,
      ((groupHops catalog type path names).foldl Planning.add p).steps = p.steps ++ opened ∧
      opened.map Step.path = names.inits.tail.map (path ++ ·) ∧
      opened.map (·.incoming.relation) = relations ∧ (∀ s ∈ opened, s.required = true) ∧
      ((groupHops catalog type path names).foldl Planning.add p).GroupedTo (path ++ names)
        next := by
  induction hleads generalizing path p node with
  | nil => exact ⟨[], node, by simp [groupHops], rfl, rfl, by simp, by simpa [groupHops] using h⟩
  | @cons type target last name relation names relations hname htarget hleads ih =>
      rw [groupHops_cons hname htarget, List.foldl_cons]
      generalize hr : (⟨path, name, name, relation, true, .groupBy⟩ : HopRequest) = r
      have hpath : r.path = path ++ [name] := by rw [← hr, HopRequest.path]
      have hparent : r.parentPath = path := by rw [← hr]
      have hsource : r.source = .groupBy := by rw [← hr]
      obtain ⟨fresh, hsteps⟩ := h.opens hparent hsource
      obtain ⟨next, hnext⟩ := h.add hparent hsource
      rw [hpath] at hnext
      obtain ⟨opened, ending, hopened, hpaths, hrelations, hrequired, hending⟩ := ih hnext
      rw [List.append_assoc, List.singleton_append] at hending
      refine ⟨r.opened fresh node :: opened, ending, ?_, ?_, ?_,
        List.forall_mem_cons.mpr ⟨?_, hrequired⟩, hending⟩
      · rw [hopened, hsteps, List.append_assoc, List.singleton_append]
      · have hbelow (above : List String) :
            path ++ [name] ++ above = path ++ name :: above := by simp
        simp only [hbelow] at hpaths
        rw [inits_tail_cons, List.map_cons, List.map_cons, List.map_map, hpaths]
        exact congrArg (· :: _) hpath
      · rw [List.map_cons, hrelations, HopRequest.opened, ← hr]
      · rw [HopRequest.opened, ← hr]

variable {root : Root} {aliases : AliasRegistry} {written : String}

-- A group-by path that can be followed is planned, and its steps form the path.
theorem addGroupBy_of_groups (root : Root) (aliases : AliasRegistry) {field : Field}
    (h : catalog.Groups type (Text.pieces written '.') relations field) :
    ∃ q ending, (start root aliases).addGroupBy catalog type written =
        .ok (⟨ending, field.name⟩, q) ∧ q.root = root ∧
      FormsPath (q.steps.filter (·.origin.groupBy)) root.node ending
        (Text.pieces written '.').dropLast relations := by
  obtain ⟨names, name, last, hpieces, hleads, hfield, hstored⟩ := h
  obtain ⟨opened, ending, hsteps, hpaths, hrelations, hrequired, hgrouped⟩ :=
    (groupedTo_start root aliases).opens_all hleads
  have hhops := addGroupHops_append hleads [] (start root aliases) []
  have hroot := foldl_add_root (start root aliases) (groupHops catalog type [] names)
  generalize (groupHops catalog type [] names).foldl Planning.add (start root aliases) = q at *
  rw [List.append_nil, List.nil_append, addGroupHops] at hhops
  rw [List.nil_append] at hgrouped
  rw [start, List.nil_append] at hsteps
  have hname : field.name = name := (NodeType.field?_eq_some hfield).2
  refine ⟨q, ending, ?_, hroot, ?_⟩
  · simp only [addGroupBy, hpieces, List.dropLast_concat, List.getLastD_concat, hhops, pure_bind,
      hfield, Option.any_some, hstored, hgrouped.found, hname]
    rfl
  · rw [hpieces, List.dropLast_concat, List.filter_eq_self.mpr hgrouped.grouped, hsteps]
    have htrail := hgrouped.trail
    rw [hroot, hsteps] at htrail
    exact ⟨by simpa using hpaths, hrelations, hrequired, htrail⟩

-- One that breaks is refused with the segment at which it breaks.
theorem addGroupBy_of_breaksAt (p : Planning) {segment : String}
    (h : catalog.BreaksAt type (Text.pieces written '.') segment) :
    p.addGroupBy catalog type written = .error (.invalidGroupByPath segment) := by
  obtain ⟨before, after, relations, reached, hpieces, hleads, hbreaks⟩ := h
  obtain rfl | ⟨more, name, rfl⟩ := List.eq_nil_or_concat' after
  · have hhops := addGroupHops_append hleads [] p []
    rw [if_pos rfl] at hbreaks
    rw [List.append_nil, addGroupHops] at hhops
    simp only [addGroupBy, hpieces, List.dropLast_concat, List.getLastD_concat, hhops, pure_bind,
      hbreaks]
    rfl
  · have hhops := addGroupHops_append hleads [] p (segment :: more)
    rw [if_neg (by simp)] at hbreaks
    rw [addGroupHops, hbreaks] at hhops
    have hsplit : before ++ segment :: (more ++ [name]) =
        (before ++ segment :: more) ++ [name] := by simp
    simp only [addGroupBy, hpieces, hsplit, List.dropLast_concat, hhops]
    rfl

end Planning

-- Where the pattern of a read statement starts.
def Root.start (root : Root) (type : NodeType) : Start :=
  match root.incoming with
  | some incoming => .hop ⟨incoming.parent, incoming.relation, root.node⟩
  | none => .node root.node type.labels

-- The rows that are grouped: those of the root, each with the nodes along the group-by path.
def Plan.groupedMatch (plan : Plan) (type : NodeType) : String :=
  "MATCH " ++ Wording.start (plan.root.start type) ++
    String.join (plan.groupBySteps.map fun s => Wording.onward s.hop)

namespace Plan

variable {catalog : Catalog} {type : NodeType} {root : Root} {predicate : Predicate}
  {aliases aliases' : AliasRegistry} {written : String} {plan : Plan}

-- A plan whose group-by steps are those of a path and whose rows are grouped by the property at
-- its end.
structure GroupsAlong (plan : Plan) (root : Root) (segments : List String)
    (relations : List Relation) (field : Field) (last : String) : Prop where
  rooted : plan.root = root
  steps : FormsPath plan.groupBySteps root.node last segments.dropLast relations
  key : plan.groupKey = some ⟨last, field.name⟩

-- A count has no selections, so that the group-by path is planned first.
theorem make_grouped (htype : catalog.type? root.typeName = some type) (predicate : Predicate)
    (aliases : AliasRegistry) (written : String) :
    make catalog root [] (some written) predicate aliases =
      ((Planning.start root aliases).addGroupBy catalog type written).map fun (key, p) =>
        (⟨(p.addFilters predicate).root, (p.addFilters predicate).steps, some key⟩,
          (p.addFilters predicate).aliases) := by
  have hselected :
      (Planning.start root aliases).addSelections type [] = Planning.start root aliases := rfl
  unfold make
  rw [Catalog.require_eq_ok.mpr htype]
  cases hadd : (Planning.start root aliases).addGroupBy catalog type written with
  | ok added => simp [bind, Except.bind, pure, Except.pure, hselected, hadd, Except.map]
  | error e => simp [bind, Except.bind, hselected, hadd, Except.map]

-- Whatever the filter shares or adds, the steps of the path stay as they were.
theorem make_of_groups (htype : catalog.type? root.typeName = some type) (predicate : Predicate)
    (aliases : AliasRegistry) {relations : List Relation} {field : Field}
    (h : catalog.Groups type (Text.pieces written '.') relations field) :
    ∃ plan aliases' last,
      make catalog root [] (some written) predicate aliases = .ok (plan, aliases') ∧
      plan.GroupsAlong root (Text.pieces written '.') relations field last := by
  obtain ⟨q, last, hadd, hroot, hsteps⟩ :=
    Planning.addGroupBy_of_groups root aliases h
  have hkept : FormsPath ((q.addFilters predicate).steps.filter (·.origin.groupBy)) root.node last
      (Text.pieces written '.').dropLast relations := by
    refine Planning.foldl_add_induct (motive := fun p =>
      FormsPath (p.steps.filter (·.origin.groupBy)) root.node last
        (Text.pieces written '.').dropLast relations) hsteps ?_
    intro p r hr hp
    obtain ⟨hop, -, hhop⟩ := List.mem_filterMap.mp hr
    obtain ⟨_, _, -, rfl⟩ := Planning.filterHop?_eq_some.mp hhop
    obtain hsame | ⟨before, s, after, hbefore, hafter, -⟩ :=
      p.grouped_add_cases (r := ⟨_, _, hop.field, hop.relation, true, .predicate⟩) (by simp)
    · rwa [hsame]
    · rw [hbefore] at hp
      rw [hafter]
      exact hp.mergeInto _
  have hfilters : (q.addFilters predicate).root = root := by
    rw [Planning.addFilters, Planning.foldl_add_root, hroot]
  refine ⟨⟨_, _, _⟩, (q.addFilters predicate).aliases, last, ?_, hfilters, hkept, rfl⟩
  rw [make_grouped htype, hadd]
  rfl

theorem make_of_breaksAt (htype : catalog.type? root.typeName = some type) (predicate : Predicate)
    (aliases : AliasRegistry) {segment : String}
    (h : catalog.BreaksAt type (Text.pieces written '.') segment) :
    make catalog root [] (some written) predicate aliases =
      .error (.invalidGroupByPath segment) := by
  rw [make_grouped htype, Planning.addGroupBy_of_breaksAt _ h]
  rfl

-- What is planned has followed its path.
theorem groups_of_make (htype : catalog.type? root.typeName = some type)
    (hmake : make catalog root [] (some written) predicate aliases = .ok (plan, aliases')) :
    ∃ relations field last, catalog.Groups type (Text.pieces written '.') relations field ∧
      plan.GroupsAlong root (Text.pieces written '.') relations field last := by
  obtain ⟨relations, field, hgroups⟩ | ⟨segment, hbreaks⟩ :=
    Catalog.groups_or_breaksAt (Catalog.type?_eq_some htype).1 (Text.pieces_ne_nil written '.')
  · obtain ⟨_, _, last, hmade, halong⟩ := make_of_groups htype predicate aliases hgroups
    cases hmake.symm.trans hmade
    exact ⟨relations, field, last, hgroups, halong⟩
  · cases hmake.symm.trans (make_of_breaksAt htype predicate aliases hbreaks)

theorem GroupsAlong.pattern {segments : List String} {relations : List Relation} {field : Field}
    {last : String} (h : plan.GroupsAlong root segments relations field last) (type : NodeType) :
    plan.pattern type = .ok ⟨root.start type, plan.groupBySteps.map Step.hop⟩ := by
  obtain ⟨hops, hhops⟩ := h.steps.trail.exists_chainFrom
  rw [Plan.pattern, h.rooted, hhops, chainFrom_eq_ok hhops]
  rfl

-- The text of what a plan reads whose pattern follows a group-by path.
theorem GroupsAlong.source_render {segments : List String} {relations : List Relation}
    {field : Field} {last : String} (h : plan.GroupsAlong root segments relations field last)
    {source : Source}
    (hpattern : source.pattern = ⟨root.start type, plan.groupBySteps.map Step.hop⟩) :
    source.render = (source.search.map Wording.search).getD "" ++ plan.groupedMatch type ++
      Wording.conditions source.conditions := by
  rw [Source.render_eq, Wording.source, groupedMatch, hpattern, h.rooted, List.map_map]
  simp only [String.append_assoc]
  rfl

-- A count is planned exactly if its group-by path can be followed, else it is refused with the
-- first segment that fails. Its pattern follows the path, hop by hop, and nothing else, and so does
-- its text.
theorem make_groupsAlong (htype : catalog.type? root.typeName = some type)
    (hread : predicate.ReadFor catalog type) (aliases : AliasRegistry) (written : String) :
    ((∃ plan aliases',
        make catalog root [] (some written) predicate aliases = .ok (plan, aliases')) ↔
      ∃ relations field, catalog.Groups type (Text.pieces written '.') relations field) ∧
    (∀ e, make catalog root [] (some written) predicate aliases = .error e ↔
      ∃ segment, catalog.BreaksAt type (Text.pieces written '.') segment ∧
        e = .invalidGroupByPath segment) ∧
    (∀ plan aliases',
      make catalog root [] (some written) predicate aliases = .ok (plan, aliases') →
      ∃ relations field last, catalog.Groups type (Text.pieces written '.') relations field ∧
        plan.GroupsAlong root (Text.pieces written '.') relations field last ∧
        ∀ search, ∃ source, plan.source type predicate search = .ok source ∧
          source.pattern = ⟨root.start type, plan.groupBySteps.map Step.hop⟩ ∧
          source.render = (search.map Wording.search).getD "" ++ plan.groupedMatch type ++
            Wording.conditions source.conditions) ∧
    ∀ (setting : Setting) (s : Selection) (d d' : Draft) (query : CountQuery),
      setting.catalog = catalog → root = ⟨Alias.root type.name, type.name, none⟩ →
      s.groupByPath = .ok (some written) → s.countQuery setting type d = .ok (query, d') →
      ∃ predicate before after plan relations field last,
        make catalog root [] (some written) predicate before = .ok (plan, after) ∧
        catalog.Groups type (Text.pieces written '.') relations field ∧
        plan.GroupsAlong root (Text.pieces written '.') relations field last ∧
        query.source.pattern = ⟨root.start type, plan.groupBySteps.map Step.hop⟩ ∧
        query.group = some (last, field.name) ∧
        query.render = (query.source.search.map Wording.search).getD "" ++
          plan.groupedMatch type ++ Wording.conditions query.source.conditions ++ " RETURN " ++
          Wording.counted root.node (some (last, field.name)) ++ " AS " ++
          quoteIdentifier s.responseKey := by
  refine ⟨⟨?_, ?_⟩, fun e => ⟨?_, ?_⟩, ?_, ?_⟩
  · rintro ⟨plan, aliases', hmake⟩
    obtain ⟨relations, field, _, hgroups, -⟩ := groups_of_make htype hmake
    exact ⟨relations, field, hgroups⟩
  · rintro ⟨relations, field, hgroups⟩
    obtain ⟨plan, aliases', _, hmake, -⟩ := make_of_groups htype predicate aliases hgroups
    exact ⟨plan, aliases', hmake⟩
  · intro hmake
    obtain ⟨relations, field, hgroups⟩ | ⟨segment, hbreaks⟩ :=
      Catalog.groups_or_breaksAt (Catalog.type?_eq_some htype).1 (Text.pieces_ne_nil written '.')
    · obtain ⟨_, _, _, hmade, -⟩ := make_of_groups htype predicate aliases hgroups
      cases hmake.symm.trans hmade
    · cases hmake.symm.trans (make_of_breaksAt htype predicate aliases hbreaks)
      exact ⟨segment, hbreaks, rfl⟩
  · rintro ⟨segment, hbreaks, rfl⟩
    exact make_of_breaksAt htype predicate aliases hbreaks
  · intro plan aliases' hmake
    obtain ⟨relations, field, last, hgroups, halong⟩ := groups_of_make htype hmake
    refine ⟨relations, field, last, hgroups, halong, fun search => ?_⟩
    obtain ⟨source, hsource⟩ := exists_source (.inr rfl) hread.inScope.1.1 hmake type search
    obtain ⟨rfl, hpattern, -⟩ := source_eq_ok hsource
    have hfollows := Except.ok.inj (hpattern.symm.trans (halong.pattern type))
    exact ⟨source, hsource, hfollows, halong.source_render hfollows⟩
  · rintro setting s d d' query rfl rfl hpath hcount
    obtain ⟨_, _, groupBy, read, source, -, hfound, hplan, hsource, rfl⟩ := countQuery_cases hcount
    obtain rfl : groupBy = some written := Except.ok.inj (hfound.symm.trans hpath)
    obtain ⟨_, -, -, hmake⟩ := planRead_cases hplan
    obtain ⟨relations, field, last, hgroups, halong⟩ := groups_of_make htype hmake
    have hpattern := (source_eq_ok hsource).2.1
    have hfollows := Except.ok.inj (hpattern.symm.trans (halong.pattern type))
    have hgroup : read.plan.groupKey.map (fun key => (key.node, key.field)) =
        some (last, field.name) := by
      rw [halong.key]
      rfl
    refine ⟨_, _, _, read.plan, relations, field, last, hmake, hgroups, halong, hfollows, hgroup,
      ?_⟩
    unfold CountQuery.render
    rw [renderCounts_eq, hgroup, halong.source_render hfollows]

-- The filter shares the first hop of the path and adds one of its own beside the second.
theorem make_groupsAlong_sharedActors :
    ∃ children qs plan aliases relations field last source,
      Predicate.ofFilter movies movieType ⟨["filter"]⟩ onlyHereFilter .empty =
        .ok (children, qs) ∧
      make movies ⟨"movie", "Movie", none⟩ [] (some "actors.movies.title") (.all children) .empty =
        .ok (plan, aliases) ∧
      plan.GroupsAlong ⟨"movie", "Movie", none⟩ (Text.pieces "actors.movies.title" '.') relations
        field last ∧
      plan.groupBySteps.map (fun s => (s.path, s.node, s.incoming.parent, s.origin)) =
        [(["actors"], "movie_actors", "movie", ⟨false, true, true⟩),
          (["actors", "movies"], "movie_actors_movies", "movie_actors", ⟨false, true, false⟩)] ∧
      plan.source movieType (.all children) none = .ok source ∧
      source.render = "MATCH (`movie`:`Movie`)<-[:`ACTED_IN`]-(`movie_actors`:`Person`)" ++
        "-[:`ACTED_IN`]->(`movie_actors_movies`:`Movie`)" ++
        Wording.conditions source.conditions ∧
      make movies ⟨"movie", "Movie", none⟩ [] (some "actors.roles.title") (.all children) .empty =
        .error (.invalidGroupByPath "roles") := by
  have hread : ∀ {children qs},
      Predicate.ofFilter movies movieType ⟨["filter"]⟩ onlyHereFilter .empty =
        .ok (children, qs) → Predicate.ReadFor movies movieType (.all children) :=
    fun h => .filter h
  have hbreaks : movies.BreaksAt movieType (Text.pieces "actors.roles.title" '.') "roles" :=
    ⟨["actors"], ["title"], _, personType, rfl, .cons rfl rfl .nil, rfl⟩
  have htype : movies.type? (Root.typeName ⟨"movie", "Movie", none⟩) = some movieType := rfl
  obtain ⟨-, -, hplanned, -⟩ := make_groupsAlong htype (hread rfl) .empty "actors.movies.title"
  obtain ⟨-, hrefused, -, -⟩ := make_groupsAlong htype (hread rfl) .empty "actors.roles.title"
  obtain ⟨relations, field, last, -, halong, hsources⟩ := hplanned _ _ rfl
  obtain ⟨source, hsource, -, htext⟩ := hsources none
  refine ⟨_, _, _, _, relations, field, last, source, rfl, rfl, halong, rfl, hsource, ?_,
    (hrefused _).mpr ⟨"roles", hbreaks, rfl⟩⟩
  rw [htext]
  congr 1

end Plan

end CypherCompiler
