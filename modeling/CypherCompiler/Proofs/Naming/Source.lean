import CypherCompiler.Proofs.Naming.Ledger
import CypherCompiler.Proofs.Outcome.Projection

namespace CypherCompiler

open Cypher

-- The meaning of the root, where it is reached by a hop.
def Root.mentions (r : Root) : List Mention :=
  (r.incoming.map fun i => .hop ⟨i.parent, i.relation, r.node⟩).toList

namespace Plan

variable {p : Plan}

theorem chainFrom_chained {previous : String} {steps : List Step} {hops : List Hop}
    (h : chainFrom previous steps = .ok hops) : chainHops previous hops = hops := by
  induction steps generalizing previous hops with
  | nil =>
      cases h
      rfl
  | cons s rest ih =>
      rw [chainFrom] at h
      by_cases hparent : s.incoming.parent ≠ previous
      · simp only [hparent, ne_eq, not_false_eq_true, ite_true, except_bind_eq_ok,
          except_throw_eq_ok, false_and, exists_false] at h
      · simp only [hparent, ite_false, except_bind_eq_ok, except_pure_eq_ok] at h
        obtain ⟨more, hmore, rfl⟩ := h
        rw [chainHops, ih hmore, not_not.mp hparent]

-- A pattern is made of the hop to the root and of steps.
theorem pattern_hops {type : NodeType} {pattern : Pattern} (h : p.pattern type = .ok pattern) :
    ∀ hop ∈ pattern.hops, Mention.hop hop ∈ p.root.mentions ∨ ∃ s ∈ p.steps, s.hop = hop := by
  unfold Plan.pattern at h
  simp only [except_bind_eq_ok, except_pure_eq_ok] at h
  obtain ⟨hops, hhops, rfl⟩ := h
  have hsteps : ∀ hop ∈ hops, ∃ s ∈ p.steps, s.hop = hop := by
    rw [chainFrom_eq_ok hhops]
    intro hop hhop
    obtain ⟨s, hs, rfl⟩ := List.mem_map.mp hhop
    exact ⟨s, (List.mem_filter.mp hs).1, rfl⟩
  have hchain := chainFrom_chained hhops
  intro hop hhop
  cases hincoming : p.root.incoming with
  | none =>
      simp only [Pattern.hops, hincoming, hchain] at hhop
      exact .inr (hsteps hop hhop)
  | some incoming =>
      simp only [Pattern.hops, hincoming, hchain, List.mem_cons] at hhop
      rcases hhop with rfl | hhop
      · exact .inl (by simp [Root.mentions, hincoming])
      · exact .inr (hsteps hop hhop)

variable {catalog : Catalog} {type : NodeType}

mutual

-- The hops of a condition are steps: the path of a filter hop tells its relation.
theorem condition_hops (hcatalog : catalog.HasDistinctHops) (htype : type ∈ catalog.types)
    (hsteps : Planning.FollowsPaths catalog type p.steps) (predicate : Predicate) {c : Condition}
    (h : p.condition predicate = .ok c)
    (hhops : ∀ hop ∈ predicate.hops, catalog.Follows type hop.path hop.relation) :
    ∀ hop ∈ c.hops, ∃ s ∈ p.steps, s.hop = hop := by
  match predicate, h with
  | .compare _, h =>
      obtain ⟨_, _, rfl⟩ := condition_compare_eq_ok.mp h
      simp [Condition.hops]
  | .all children, h =>
      obtain ⟨cs, hcs, rfl⟩ := condition_all_eq_ok.mp h
      exact conditions_hops hcatalog htype hsteps children hcs hhops
  | .any children, h =>
      obtain ⟨cs, hcs, rfl⟩ := condition_any_eq_ok.mp h
      exact conditions_hops hcatalog htype hsteps children hcs hhops
  | .not child, h =>
      obtain ⟨inner, hinner, rfl⟩ := condition_not_eq_ok.mp h
      rw [Condition.hops]
      exact condition_hops hcatalog htype hsteps child hinner hhops
  | .related filterHop child, h =>
      obtain ⟨s, inner, hs, hinner, rfl⟩ := condition_related_eq_ok.mp h
      obtain ⟨hmem, hpath, horigin⟩ := findStep?_eq_some hs
      have hfollows := hhops filterHop List.mem_cons_self
      rw [← hpath] at hfollows
      have hrelation := (hsteps s hmem horigin).unique hcatalog htype hfollows
      intro hop hhop
      rw [Condition.hops] at hhop
      split at hhop
      · cases hhop
      · rcases List.mem_cons.mp hhop with rfl | hhop
        · exact ⟨s, hmem, by rw [Step.hop, hrelation]⟩
        · exact condition_hops hcatalog htype hsteps child hinner
            (fun inner hmem => hhops inner (List.mem_cons_of_mem filterHop hmem)) hop hhop
termination_by sizeOf predicate

theorem conditions_hops (hcatalog : catalog.HasDistinctHops) (htype : type ∈ catalog.types)
    (hsteps : Planning.FollowsPaths catalog type p.steps) (children : List Predicate)
    {cs : List Condition} (h : p.conditions children = .ok cs)
    (hhops : ∀ hop ∈ Predicate.hopsOfAll children, catalog.Follows type hop.path hop.relation) :
    ∀ hop ∈ Condition.hopsOfAll cs, ∃ s ∈ p.steps, s.hop = hop := by
  match children, h with
  | [], h =>
      rw [conditions_nil_eq_ok.mp h]
      simp [Condition.hopsOfAll]
  | child :: rest, h =>
      obtain ⟨c, more, hc, hmore, rfl⟩ := conditions_cons_eq_ok.mp h
      rw [Predicate.hopsOfAll] at hhops
      intro hop hhop
      rcases List.mem_append.mp hhop with hhop | hhop
      · exact condition_hops hcatalog htype hsteps child hc
          (fun inner hmem => hhops inner (List.mem_append_left _ hmem)) hop hhop
      · exact conditions_hops hcatalog htype hsteps rest hmore
          (fun inner hmem => hhops inner (List.mem_append_right _ hmem)) hop hhop
termination_by sizeOf children

end

-- A source gives a meaning to the score of its search and to the nodes of its plan.
theorem source_mentions (hcatalog : catalog.HasDistinctHops) (htype : type ∈ catalog.types)
    (hsteps : Planning.FollowsPaths catalog type p.steps) {predicate : Predicate}
    (hhops : ∀ hop ∈ predicate.hops, catalog.Follows type hop.path hop.relation)
    {search : Option SearchCall} {source : Source}
    (h : p.source type predicate search = .ok source) :
    ∀ m ∈ source.mentions, m ∈ (search.map fun c => Mention.score c.score).toList ∨
      m ∈ p.root.mentions ∨ m ∈ p.mentions := by
  obtain ⟨rfl, hpattern, hconditions⟩ := source_eq_ok h
  obtain ⟨stated, hall, hstated⟩ := sourceConditions_eq_ok hconditions
  have hstep : ∀ hop : Hop, (∃ s ∈ p.steps, s.hop = hop) → Mention.hop hop ∈ p.mentions := by
    rintro _ ⟨s, hs, rfl⟩
    exact List.mem_map_of_mem hs
  intro m hm
  rw [Source.mentions, List.mem_append, List.map_append, List.mem_append, hall,
    Condition.hopsOfAll_append, List.map_append, List.mem_append] at hm
  obtain hm | hm | hm | hm := hm
  · exact .inl hm
  · obtain ⟨hop, hhop, rfl⟩ := List.mem_map.mp hm
    exact .inr ((pattern_hops hpattern hop hhop).imp_right (hstep hop))
  · obtain ⟨hop, hhop, rfl⟩ := List.mem_map.mp hm
    obtain ⟨-, rfl⟩ | ⟨c, hc, rfl⟩ := hstated
    · cases hhop
    · rw [Condition.hopsOfAll, Condition.hopsOfAll, List.append_nil] at hhop
      exact .inr (.inr (hstep hop (condition_hops hcatalog htype hsteps predicate hc hhops hop
        hhop)))
  · rw [← List.map_map, Condition.hopsOfAll_leadsSomewhere, List.map_map] at hm
    obtain ⟨s, hs, rfl⟩ := List.mem_map.mp hm
    exact .inr (.inr (List.mem_map_of_mem (List.mem_filter.mp hs).1))

end Plan

namespace Selection

variable {s : Selection} {setting : Setting} {root : Root} {path : ParameterPath} {d d' : Draft}

-- The root is reserved before a search claims its score.
theorem searchCall_introduces {type : NodeType} {search : Option SearchCall}
    (h : s.searchCall root type path d = .ok (search, d')) :
    Introduces (d.aliases.reserve root.node) (d'.aliases.reserve root.node)
      (search.map fun c => Mention.score c.score).toList := by
  obtain ⟨-, rfl, rfl⟩ | ⟨index, v, -, -, rfl, rfl⟩ := searchCall_cases h
  · exact .refl _
  · exact (Introduces.claim rfl).reserve root.node

-- The parts of a read statement before its items: everything that is named in them is new,
-- apart from the root.
theorem planRead_introduces (hcatalog : setting.catalog.HasDistinctHops) {type : NodeType}
    (htype : setting.catalog.type? root.typeName = some type) {search : Option SearchCall}
    {groupBy : Option String} {selections : List Selection} {read : ReadPlan} {source : Source}
    {e : Draft} (hsearch : s.searchCall root type path d = .ok (search, e))
    (hread : s.planRead setting.catalog setting.strictArguments root path selections groupBy e =
      .ok (read, d'))
    (hsource : read.plan.source type read.predicate search = .ok source) :
    ∃ entries, Introduces (d.aliases.reserve root.node) d'.aliases entries ∧
      read.plan.mentions ⊆ entries ∧ ∀ m ∈ source.mentions, m ∈ root.mentions ∨ m ∈ entries := by
  obtain ⟨type', htype', hpredicate, hmake⟩ := planRead_cases hread
  rw [htype, Option.some.injEq] at htype'
  subst htype'
  have hmem := (Catalog.type?_eq_some htype).1
  have hfollows := Predicate.ofSelection_follows hpredicate
  have hsteps := Plan.make_followsPaths hfollows hmake
  have hroot := Plan.make_root hmake
  have hnamed : Introduces (e.aliases.reserve root.node) d'.aliases read.plan.mentions :=
    (Plan.make_newlyNamed hmake).introduces
  refine ⟨_, (searchCall_introduces hsearch).trans hnamed, List.subset_append_right _ _, ?_⟩
  intro m hm
  obtain hm | hm | hm := Plan.source_mentions hcatalog hmem hsteps hfollows hsource m hm
  · exact .inr (List.mem_append_left _ hm)
  · exact .inl (hroot ▸ hm)
  · exact .inr (List.mem_append_right _ hm)

theorem readHead_introduces (hcatalog : setting.catalog.HasDistinctHops) {head : ReadHead}
    (h : s.readHead setting root path d = .ok (head, d')) :
    ∃ entries, Introduces (d.aliases.reserve root.node) d'.aliases entries ∧
      head.plan.mentions ⊆ entries ∧
      ∀ m ∈ head.source.mentions, m ∈ root.mentions ∨ m ∈ entries := by
  obtain ⟨search, e, read, htype, hsearch, hread, hplan, hsource, -⟩ := readHead_cases h
  rw [hplan]
  exact planRead_introduces hcatalog htype hsearch hread hsource

end Selection

end CypherCompiler
