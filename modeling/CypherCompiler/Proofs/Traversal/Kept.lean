import CypherCompiler.Proofs.Traversal.GroupPath

namespace CypherCompiler

namespace Planning

variable {catalog : Catalog} {type last : NodeType} {names : List String}
  {relations : List Relation}

-- The path of the names that were followed is asked for by the last of their hops.
theorem exists_mem_groupHops (h : catalog.LeadsAlong type names relations last)
    (hnames : names ≠ []) (path : List String) :
    ∃ r ∈ groupHops catalog type path names, r.path = path ++ names := by
  induction h generalizing path with
  | nil => exact (hnames rfl).elim
  | @cons type target last name relation names relations hname htarget h ih =>
      rw [groupHops_cons hname htarget]
      cases names with
      | nil => exact ⟨_, List.mem_cons_self, rfl⟩
      | cons next rest =>
          obtain ⟨r, hr, hpath⟩ := ih (by simp) (path ++ [name])
          exact ⟨r, List.mem_cons_of_mem _ hr, by rw [hpath, List.append_assoc]; rfl⟩

-- A group-by path that can be followed is planned, whatever was planned before it.
theorem exists_addGroupBy {root : Root} {made : List HopRequest} {p : Planning}
    (hserves : Serves root made p) {written : String} {field : Field}
    (h : catalog.Groups type (Text.pieces written '.') relations field) :
    ∃ added, p.addGroupBy catalog type written = .ok added := by
  obtain ⟨names, name, last, hpieces, hleads, hfield, hstored⟩ := h
  have hhops := addGroupHops_append hleads [] p []
  rw [List.append_nil, List.nil_append, addGroupHops] at hhops
  have hgrouped := hserves.foldl_add (by simp)
    (grounded_groupHops catalog type names (List.mem_singleton_self []))
  have hasked : names = [] ∨ ∃ t ∈ made ++ groupHops catalog type [] names,
      t.source = .groupBy ∧ t.path = names := by
    by_cases hnames : names = []
    · exact .inl hnames
    · obtain ⟨r, hr, hpath⟩ := exists_mem_groupHops hleads hnames []
      exact .inr ⟨r, List.mem_append_right made hr, source_of_mem_groupHops hr, hpath⟩
  obtain ⟨node, hnode⟩ := hgrouped.exists_node hasked
  refine ⟨(⟨node, name⟩, (groupHops catalog type [] names).foldl add p), ?_⟩
  simp only [addGroupBy, hpieces, List.dropLast_concat, List.getLastD_concat, hhops, pure_bind,
    hfield, Option.any_some, hstored, hnode]
  rfl

end Planning

namespace Plan

variable {catalog : Catalog} {type : NodeType} {root : Root} {aliases : AliasRegistry}

-- A plan is made exactly if its group-by path can be followed.
theorem exists_make_iff (htype : catalog.type? root.typeName = some type)
    (selections : List Selection) (groupBy : Option String) (predicate : Predicate)
    (aliases : AliasRegistry) :
    (∃ made, make catalog root selections groupBy predicate aliases = .ok made) ↔
      ∀ written ∈ groupBy, ∃ relations field,
        catalog.Groups type (Text.pieces written '.') relations field := by
  have hselected : (Planning.start root aliases).addSelections type selections =
      (selections.filterMap (Planning.selectedHop? type)).foldl Planning.add
        (Planning.start root aliases) := rfl
  have hserves := (Planning.serves_start root aliases).foldl_add (by simp)
    (Planning.grounded_selectedHops type selections (List.mem_singleton_self []))
  rw [← hselected] at hserves
  unfold make
  rw [Catalog.require_eq_ok.mpr htype]
  cases groupBy with
  | none => exact ⟨fun _ _ h => (nomatch h), fun _ => ⟨_, rfl⟩⟩
  | some written =>
      simp only [Option.mem_def, Option.some.injEq, forall_eq']
      constructor
      · rintro ⟨made, hmade⟩
        obtain hgroups | ⟨segment, hbreaks⟩ := Catalog.groups_or_breaksAt
          (Catalog.type?_eq_some htype).1 (Text.pieces_ne_nil written '.')
        · exact hgroups
        · have hrefused := Planning.addGroupBy_of_breaksAt
            ((Planning.start root aliases).addSelections type selections) hbreaks
          simp [bind, Except.bind, hrefused] at hmade
      · rintro ⟨relations, field, hgroups⟩
        obtain ⟨added, hadded⟩ := Planning.exists_addGroupBy hserves hgroups
        simp [bind, Except.bind, hadded, pure, Except.pure]

-- The hops of a group-by path and of a filter come behind those of the selections, and leave their
-- names alone: a plan begins with the steps that the same selections have on their own.
theorem make_keepsSelected (htype : catalog.type? root.typeName = some type)
    (selections : List Selection) (groupBy : Option String) (predicate : Predicate)
    (aliases : AliasRegistry) :
    ∃ plain before,
      make catalog root selections none (.all []) aliases = .ok (plain, before) ∧
      ((∃ made, make catalog root selections groupBy predicate aliases = .ok made) ↔
        ∀ written ∈ groupBy, ∃ relations field,
          catalog.Groups type (Text.pieces written '.') relations field) ∧
      ∀ plan after, make catalog root selections groupBy predicate aliases = .ok (plan, after) →
        plan.root = plain.root ∧ StepsKept plain.steps plan.steps := by
  obtain ⟨plain, before, hplain⟩ := exists_make htype selections (.all []) aliases
  refine ⟨plain, before, hplain, exists_make_iff htype selections groupBy predicate aliases, ?_⟩
  intro plan after hplan
  obtain ⟨first, hfirst, -, q, rfl, hroot, hsteps, -⟩ := make_requests hplain
  obtain ⟨second, hsecond, -, q, rfl, hroot', hsteps', -⟩ := make_requests hplan
  obtain rfl : first = second := Option.some.inj (hfirst.symm.trans hsecond)
  refine ⟨hroot'.trans hroot.symm, ?_⟩
  have halone : requests catalog first selections none (.all []) =
      selections.filterMap (Planning.selectedHop? first) := by
    simp [requests, groupSegments, Planning.groupHops, Predicate.hops, Predicate.hopsOfAll]
  rw [hsteps, hsteps', halone, requests, List.append_assoc, List.foldl_append]
  exact Planning.foldl_add_keeps _ _

-- The group-by path and the filter both share the step of the second selection.
theorem make_keepsSelected_castSelections :
    ∃ children qs plain before plan after,
      Predicate.ofFilter movies movieType ⟨["filter"]⟩ onlyHereFilter .empty =
        .ok (children, qs) ∧
      make movies ⟨"movie", "Movie", none⟩ castSelections none (.all []) .empty =
        .ok (plain, before) ∧
      make movies ⟨"movie", "Movie", none⟩ castSelections (some "actors.movies.title")
        (.all children) .empty = .ok (plan, after) ∧
      plain.steps.map (fun s => (s.node, s.required, s.origin)) =
        [("movie_cast", false, ⟨true, false, false⟩),
          ("movie_actors", false, ⟨true, false, false⟩)] ∧
      plan.steps.map (fun s => (s.node, s.required, s.origin)) =
        [("movie_cast", false, ⟨true, false, false⟩),
          ("movie_actors", true, ⟨true, true, true⟩),
          ("movie_actors_movies", true, ⟨false, true, false⟩),
          ("movie_actors_movies_2", true, ⟨false, false, true⟩)] ∧
      StepsKept plain.steps plan.steps := by
  have htype : movies.type? (Root.typeName ⟨"movie", "Movie", none⟩) = some movieType := rfl
  obtain ⟨children, qs, hfilter⟩ : ∃ children qs, Predicate.ofFilter movies movieType ⟨["filter"]⟩
      onlyHereFilter .empty = .ok (children, qs) := ⟨_, _, rfl⟩
  obtain ⟨plain, before, hplain, -, hkept⟩ := make_keepsSelected htype castSelections
    (some "actors.movies.title") (.all children) .empty
  obtain ⟨plan, after, hplan⟩ : ∃ plan after, make movies ⟨"movie", "Movie", none⟩ castSelections
      (some "actors.movies.title") (.all children) .empty = .ok (plan, after) := by
    cases hfilter
    exact ⟨_, _, rfl⟩
  refine ⟨children, qs, plain, before, plan, after, hfilter, hplain, hplan, ?_, ?_,
    (hkept plan after hplan).2⟩
  · cases hplain
    rfl
  · cases hfilter
    cases hplan
    rfl

end Plan

end CypherCompiler
