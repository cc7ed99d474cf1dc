import Mathlib.Data.List.Infix
import CypherCompiler.Proofs.Traversal.Served

namespace CypherCompiler

-- The relation at the end of a path of relationships.
def Catalog.relationAlong? (c : Catalog) (type : NodeType) : List String → Option Relation
  | [] => none
  | segment :: rest => do
    let relation ← (type.field? segment).bind Field.relation?
    if rest.isEmpty then return relation
    relationAlong? c (← c.type? relation.target) rest

-- What each part of a read field asks for, in its order: the paths that it follows from the root,
-- each with the relation of its last hop.
def Catalog.asked (c : Catalog) (type : NodeType) (selections : List Selection)
    (groupBy : Option String) (predicate : Predicate) : HopSource → List (List String × Relation)
  | .selection => selections.filterMap fun s =>
      ((type.field? s.name).bind Field.relation?).map (Prod.mk [s.responseKey])
  | .groupBy => (Plan.groupSegments groupBy).inits.tail.filterMap fun path =>
      (c.relationAlong? type path).map (Prod.mk path)
  | .predicate => predicate.hops.map fun hop => (hop.path, hop.relation)

-- A predicate that was read from a request for the nodes of a type.
inductive Predicate.ReadFor (catalog : Catalog) (type : NodeType) : Predicate → Prop
  | none : ReadFor catalog type (.all [])
  | filter {path : ParameterPath} {v : Json} {ps qs : Parameters} {children : List Predicate}
      (h : ofFilter catalog type path v ps = .ok (children, qs)) :
      ReadFor catalog type (.all children)
  | selection {path : ParameterPath} {strict : Bool} {s : Selection} {ps qs : Parameters}
      {p : Predicate} (h : ofSelection catalog type path strict s ps = .ok (p, qs)) :
      ReadFor catalog type p

theorem Predicate.ReadFor.inScope {catalog : Catalog} {type : NodeType} {p : Predicate}
    (h : ReadFor catalog type p) : InScope catalog type [] [p] := by
  cases h with
  | none => exact InScope.nil.all
  | filter hfilter =>
      obtain ⟨members, -, hmembers⟩ := ofFilter_cases hfilter
      exact (ofMembers_inScope .root members hmembers).all
  | selection hselection => exact ofSelection_inScope hselection

theorem inits_tail_cons {α : Type} (a : α) (as : List α) :
    (a :: as).inits.tail = [a] :: as.inits.tail.map (a :: ·) := by
  cases as <;> rfl

theorem ne_nil_of_mem_inits_tail {α : Type} {as bs : List α} (h : bs ∈ as.inits.tail) :
    bs ≠ [] := by
  cases as with
  | nil => cases h
  | cons a as =>
      obtain ⟨cs, -, rfl⟩ := List.mem_map.mp h
      exact List.cons_ne_nil a cs

namespace Planning

theorem grounded_selectedHops (type : NodeType) (selections : List Selection)
    {reached : List (List String)} (hreached : [] ∈ reached) :
    Grounded .selection reached (selections.filterMap (selectedHop? type)) := by
  induction selections generalizing reached with
  | nil => trivial
  | cons s rest ih =>
      rw [List.filterMap_cons]
      split
      · exact ih hreached
      · rename_i r hr
        obtain ⟨_, _, -, -, rfl⟩ := selectedHop?_cases hr
        exact ⟨rfl, hreached, ih (List.mem_cons_of_mem _ hreached)⟩

theorem grounded_groupHops (catalog : Catalog) (type : NodeType) (segments : List String)
    {path : List String} {reached : List (List String)} (hreached : path ∈ reached) :
    Grounded .groupBy reached (groupHops catalog type path segments) := by
  induction segments generalizing type path reached with
  | nil => trivial
  | cons segment rest ih =>
      rw [groupHops]
      split
      · trivial
      · refine ⟨rfl, hreached, ?_⟩
        split
        · trivial
        · exact ih _ List.mem_cons_self

mutual

theorem grounded_filterHops (predicate : Predicate) {path : List String}
    {reached : List (List String)} (hscope : Predicate.ScopedAt path predicate)
    (hreached : path ∈ reached) :
    Grounded .predicate reached (predicate.hops.filterMap filterHop?) := by
  match predicate, hscope with
  | .compare _, _ =>
      rw [Predicate.hops]
      trivial
  | .all children, hscope =>
      rw [Predicate.hops]
      exact grounded_filterHopsOfAll children hscope hreached
  | .any children, hscope =>
      rw [Predicate.hops]
      exact grounded_filterHopsOfAll children hscope hreached
  | .not child, hscope =>
      rw [Predicate.hops]
      exact grounded_filterHops child hscope hreached
  | .related hop child, hscope =>
      obtain ⟨⟨segment, hsegment⟩, hchild⟩ := hscope
      have hrequest : filterHop? hop =
          some ⟨path, segment, hop.field, hop.relation, true, .predicate⟩ :=
        filterHop?_eq_some.mpr ⟨path, segment, hsegment, rfl⟩
      rw [Predicate.hops, List.filterMap_cons_some hrequest]
      -- what stands inside the hop starts where it ends
      have hinner : hop.path ∈ (path ++ [segment]) :: reached := by
        rw [hsegment]
        exact List.mem_cons_self
      exact ⟨rfl, hreached, grounded_filterHops child hchild hinner⟩
termination_by sizeOf predicate

theorem grounded_filterHopsOfAll (children : List Predicate) {path : List String}
    {reached : List (List String)} (hscope : Predicate.AllScopedAt path children)
    (hreached : path ∈ reached) :
    Grounded .predicate reached ((Predicate.hopsOfAll children).filterMap filterHop?) := by
  match children, hscope with
  | [], _ =>
      rw [Predicate.hopsOfAll]
      trivial
  | child :: rest, hscope =>
      obtain ⟨hchild, hrest⟩ := hscope
      rw [Predicate.hopsOfAll, List.filterMap_append]
      exact (grounded_filterHops child hchild hreached).append
        (grounded_filterHopsOfAll rest hrest hreached)
termination_by sizeOf children

end

-- The hops of each part stand for the places that the part asks for.
section Places

variable (catalog : Catalog) (type : NodeType)

theorem selectedHops_places (selections : List Selection) (groupBy : Option String)
    (predicate : Predicate) :
    (selections.filterMap (selectedHop? type)).map HopRequest.place =
      catalog.asked type selections groupBy predicate .selection := by
  rw [List.map_filterMap, Catalog.asked]
  congr 1
  funext s
  cases hfield : type.field? s.name with
  | none => simp [selectedHop?, hfield]
  | some field =>
      cases hrelation : field.relation? with
      | none => simp [selectedHop?, hfield, hrelation]
      | some relation => simp [selectedHop?, hfield, hrelation, HopRequest.place, HopRequest.path]

theorem groupHops_places (path segments : List String) :
    (groupHops catalog type path segments).map HopRequest.place =
      segments.inits.tail.filterMap fun above =>
        (catalog.relationAlong? type above).map (Prod.mk (path ++ above)) := by
  induction segments generalizing type path with
  | nil => rfl
  | cons segment rest ih =>
      rw [inits_tail_cons, List.filterMap_cons, List.filterMap_map]
      cases hrelation : (type.field? segment).bind Field.relation? with
      | none =>
          have hnone : ∀ above, catalog.relationAlong? type (segment :: above) = none := by
            intro above
            simp [Catalog.relationAlong?, hrelation]
          simp [groupHops, hrelation, hnone]
      | some relation =>
          have hfirst : catalog.relationAlong? type [segment] = some relation := by
            simp [Catalog.relationAlong?, hrelation]
          simp only [groupHops, hrelation, hfirst, Option.map_some, List.map_cons]
          refine congrArg (List.cons _) ?_
          have hlonger : ∀ above ∈ rest.inits.tail, catalog.relationAlong? type (segment :: above) =
              (catalog.type? relation.target).bind (catalog.relationAlong? · above) := by
            intro above habove
            have hnil : above ≠ [] := ne_nil_of_mem_inits_tail habove
            simp [Catalog.relationAlong?, hrelation, hnil]
          cases htarget : catalog.type? relation.target with
          | none =>
              symm
              rw [List.map_nil, List.filterMap_eq_nil_iff]
              intro above habove
              simp [hlonger above habove, htarget]
          | some target =>
              rw [ih target (path ++ [segment])]
              refine List.filterMap_congr fun above habove => ?_
              simp [hlonger above habove, htarget]

theorem groupHops_asked (selections : List Selection) (groupBy : Option String)
    (predicate : Predicate) :
    (groupHops catalog type [] (Plan.groupSegments groupBy)).map HopRequest.place =
      catalog.asked type selections groupBy predicate .groupBy := by
  rw [groupHops_places, Catalog.asked]
  rfl

theorem filterHops_places (selections : List Selection) (groupBy : Option String)
    {predicate : Predicate} (hpaths : ∀ hop ∈ predicate.hops, hop.path ≠ []) :
    (predicate.hops.filterMap filterHop?).map HopRequest.place =
      catalog.asked type selections groupBy predicate .predicate := by
  rw [List.map_filterMap, Catalog.asked, ← List.filterMap_eq_map]
  refine List.filterMap_congr fun hop hhop => ?_
  obtain ⟨path, segment, hpath⟩ := (List.eq_nil_or_concat' hop.path).resolve_left (hpaths hop hhop)
  rw [filterHop?_eq_some.mpr ⟨path, segment, hpath, rfl⟩]
  simp [HopRequest.place, HopRequest.path, hpath]

end Places

-- Every segment of a group-by path that is planned follows a relationship.
theorem addGroupHops_relationAlong? {catalog : Catalog} {type last : NodeType}
    {path segments : List String} {p q : Planning}
    (h : addGroupHops catalog type path p segments = .ok (last, q)) :
    ∀ above ∈ segments.inits.tail, ∃ relation,
      catalog.relationAlong? type above = some relation := by
  induction segments generalizing type path p with
  | nil => simp
  | cons segment rest ih =>
      obtain ⟨relation, target, hrelation, htarget, hrest⟩ := addGroupHops_cons_cases h
      rw [inits_tail_cons]
      intro above habove
      rcases List.mem_cons.mp habove with rfl | habove
      · exact ⟨relation, by simp [Catalog.relationAlong?, hrelation]⟩
      · obtain ⟨below, hbelow, rfl⟩ := List.mem_map.mp habove
        obtain ⟨next, hnext⟩ := ih hrest below hbelow
        have hnil := ne_nil_of_mem_inits_tail hbelow
        exact ⟨next, by simp [Catalog.relationAlong?, hrelation, htarget, hnil, hnext]⟩

end Planning

namespace Plan

-- A plan that has one step for each place that is asked for, in the order in which they are first
-- asked for.
structure LaysOut (plan : Plan) (root : Root) (before : AliasRegistry)
    (asked : HopSource → List (List String × Relation)) : Prop where
  rooted : plan.root = root
  places : plan.steps.map Step.place =
    (asked .selection ++ asked .groupBy ++ asked .predicate).eraseDups
  distinct : (plan.steps.map Step.place).Nodup
  named : (root.node :: plan.steps.map Step.node).Nodup
  fresh : ∀ s ∈ plan.steps, s.node ∉ before.taken
  starts : StartInOrder root plan.steps
  target : ∀ s ∈ plan.steps, s.typeName = s.incoming.relation.target
  origin : ∀ s ∈ plan.steps, ∀ source, s.origin.has source = true ↔ s.place ∈ asked source

section Requests

variable (catalog : Catalog) (type : NodeType) (selections : List Selection)
  (groupBy : Option String) {predicate : Predicate}

theorem requests_places (hpaths : ∀ hop ∈ predicate.hops, hop.path ≠ []) :
    (requests catalog type selections groupBy predicate).map HopRequest.place =
      catalog.asked type selections groupBy predicate .selection ++
        catalog.asked type selections groupBy predicate .groupBy ++
        catalog.asked type selections groupBy predicate .predicate := by
  rw [requests, List.map_append, List.map_append,
    Planning.selectedHops_places catalog type selections groupBy predicate,
    Planning.groupHops_asked catalog type selections groupBy predicate,
    Planning.filterHops_places catalog type selections groupBy hpaths]

theorem grounded_requests (hscope : Predicate.ScopedAt [] predicate) :
    Planning.Grounded .selection [[]] (selections.filterMap (Planning.selectedHop? type)) ∧
      Planning.Grounded .groupBy [[]]
        (Planning.groupHops catalog type [] (groupSegments groupBy)) ∧
      Planning.Grounded .predicate [[]] (predicate.hops.filterMap Planning.filterHop?) :=
  ⟨Planning.grounded_selectedHops type selections List.mem_cons_self,
    Planning.grounded_groupHops catalog type _ List.mem_cons_self,
    Planning.grounded_filterHops predicate hscope List.mem_cons_self⟩

theorem requests_placesOf (hscope : Predicate.ScopedAt [] predicate)
    (hpaths : ∀ hop ∈ predicate.hops, hop.path ≠ []) (source : HopSource) :
    HopRequest.placesOf source (requests catalog type selections groupBy predicate) =
      catalog.asked type selections groupBy predicate source := by
  obtain ⟨hselected, hgrouped, hfiltered⟩ :=
    grounded_requests catalog type selections groupBy hscope
  rw [requests, HopRequest.placesOf_append, HopRequest.placesOf_append,
    HopRequest.placesOf_grounded hselected, HopRequest.placesOf_grounded hgrouped,
    HopRequest.placesOf_grounded hfiltered,
    Planning.selectedHops_places catalog type selections groupBy predicate,
    Planning.groupHops_asked catalog type selections groupBy predicate,
    Planning.filterHops_places catalog type selections groupBy hpaths]
  cases source <;> simp

theorem serves_requests (hscope : Predicate.ScopedAt [] predicate) (root : Root)
    (aliases : AliasRegistry) :
    Planning.Serves root (requests catalog type selections groupBy predicate)
      ((requests catalog type selections groupBy predicate).foldl Planning.add
        (Planning.start root aliases)) := by
  obtain ⟨hselected, hgrouped, hfiltered⟩ :=
    grounded_requests catalog type selections groupBy hscope
  have hstart := Planning.serves_start root aliases
  have hserved := ((hstart.foldl_add (by simp) hselected).foldl_add (by simp) hgrouped).foldl_add
    (by simp) hfiltered
  rwa [List.nil_append, ← List.foldl_append, ← List.foldl_append, ← List.append_assoc,
    ← requests] at hserved

end Requests

variable {catalog : Catalog} {root : Root} {type : NodeType} {selections : List Selection}
  {groupBy : Option String} {predicate : Predicate} {aliases aliases' : AliasRegistry} {plan : Plan}

-- No hop that is asked for is left out, planned twice or opened before the one it starts from, and
-- every segment of the group-by path before its last one is a hop.
theorem make_laysOut (htype : catalog.type? root.typeName = some type)
    (hread : predicate.ReadFor catalog type)
    (h : make catalog root selections groupBy predicate aliases = .ok (plan, aliases')) :
    plan.LaysOut root aliases (catalog.asked type selections groupBy predicate) ∧
      ∀ path ∈ (groupSegments groupBy).inits.tail, ∃ relation,
        catalog.relationAlong? type path = some relation := by
  obtain ⟨⟨hscope, -⟩, hfollows⟩ := hread.inScope
  rw [Predicate.hopsOfAll, Predicate.hopsOfAll, List.append_nil] at hfollows
  have hpaths : ∀ hop ∈ predicate.hops, hop.path ≠ [] := by
    intro hop hhop
    obtain ⟨_, _, _, _, _, -, -, -, hpath⟩ := hfollows hop hhop
    simp [hpath]
  have hnamed := make_newlyNamed h
  obtain ⟨found, hfound, ⟨p, last, p', hhops⟩, q, rfl, hroot, hsteps, -⟩ := make_requests h
  obtain rfl : found = type := Option.some.inj (hfound.symm.trans htype)
  have hserves := serves_requests catalog found selections groupBy hscope root aliases
  obtain ⟨-, hplaces, hdistinct, horigin, hstarts⟩ := hserves
  rw [← hsteps] at hplaces hdistinct horigin hstarts
  rw [requests_places catalog found selections groupBy hpaths] at hplaces
  have hroot_fresh : ∀ s ∈ plan.steps, s.node ≠ root.node ∧ s.node ∉ aliases.taken := by
    intro s hs
    have hfresh := hnamed.fresh s hs
    rwa [AliasRegistry.mem_reserve, not_or] at hfresh
  refine ⟨⟨hroot, hplaces, hdistinct, ?_, fun s hs => (hroot_fresh s hs).2, hstarts,
    make_typeName h, ?_⟩, Planning.addGroupHops_relationAlong? hhops⟩
  · rw [List.nodup_cons]
    refine ⟨?_, hnamed.nodup⟩
    intro hmem
    obtain ⟨s, hs, hnode⟩ := List.mem_map.mp hmem
    exact (hroot_fresh s hs).1 hnode
  · intro s hs source
    rw [horigin s hs source, ← HopRequest.mem_placesOf,
      requests_placesOf catalog found selections groupBy hscope hpaths]

-- A movie whose actors are selected twice, followed by the group-by path and tested by the filter.
def castSelections : List Selection :=
  [⟨"actors", some "cast", [], []⟩, ⟨"actors", none, [], []⟩]

def onlyHereFilter : Json :=
  .obj [("actors", .obj [("movies_none", .obj [("title", .str "Up")])])]

theorem make_laysOut_castSelections :
    ∃ children qs plan aliases,
      Predicate.ofFilter movies movieType ⟨["filter"]⟩ onlyHereFilter .empty =
        .ok (children, qs) ∧
      make movies ⟨"movie", "Movie", none⟩ castSelections (some "actors.movies.title")
        (.all children) .empty = .ok (plan, aliases) ∧
      plan.steps.map (fun s => (s.path, s.node, s.incoming.parent, s.origin)) =
        [(["cast"], "movie_cast", "movie", ⟨true, false, false⟩),
          (["actors"], "movie_actors", "movie", ⟨true, true, true⟩),
          (["actors", "movies"], "movie_actors_movies", "movie_actors", ⟨false, true, false⟩),
          (["actors", "movies_none"], "movie_actors_movies_2", "movie_actors",
            ⟨false, false, true⟩)] ∧
      plan.LaysOut ⟨"movie", "Movie", none⟩ .empty
        (movies.asked movieType castSelections (some "actors.movies.title") (.all children)) := by
  have hread : ∀ {children qs},
      Predicate.ofFilter movies movieType ⟨["filter"]⟩ onlyHereFilter .empty =
        .ok (children, qs) → Predicate.ReadFor movies movieType (.all children) :=
    fun h => .filter h
  exact ⟨_, _, _, _, rfl, rfl, rfl, (make_laysOut rfl (hread rfl) rfl).1⟩

end Plan

end CypherCompiler
