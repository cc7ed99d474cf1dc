import CypherCompiler.Proofs.Cypher.References
import CypherCompiler.Proofs.Graph.Condition
import CypherCompiler.Proofs.Graph.Predicate
import CypherCompiler.Proofs.Outcome.Resolution
import CypherCompiler.Proofs.Traversal.Reached

namespace CypherCompiler

open Cypher

-- The node at the end of a path is bound, and apart from it only nodes on the way to it are.
structure Cypher.Env.Binds {g : Graph} (env : Env g) (plan : Plan) (path : List String)
    (n : g.Node) : Prop where
  node : ∃ name, LeadsTo plan.root plan.steps path name ∧ env name = some n
  others : ∀ name, env name ≠ none →
    ∃ outer, outer <+: path ∧ LeadsTo plan.root plan.steps outer name

namespace Plan

variable {plan : Plan} {hops : List FilterHop} {g : Graph} {env : Env g} {path : List String}
  {n : g.Node}

-- Only the root is bound where a condition starts.
theorem binds_root : (Env.root plan.root.node n).Binds plan [] n := by
  refine ⟨⟨_, .inl ⟨rfl, rfl⟩, by simp [Env.root, Env.bind]⟩, ?_⟩
  intro name hname
  by_cases h : name = plan.root.node
  · exact ⟨[], List.prefix_rfl, .inl ⟨rfl, h⟩⟩
  · simp [Env.root, Env.bind, h] at hname

theorem Covers.parent_eq (hplan : plan.Covers hops) (henv : env.Binds plan path n) {s : Step}
    (hs : s ∈ plan.steps) {segment : String} (hpath : s.path = path ++ [segment]) :
    env s.incoming.parent = some n := by
  obtain ⟨name, hname, hbound⟩ := henv.node
  have hparent := hplan.parent s hs
  rw [hpath, List.dropLast_concat] at hparent
  rw [hplan.unique path _ _ hparent hname]
  exact hbound

-- The node of a hop has no meaning before the hop is reached.
theorem Covers.node_eq_none (hplan : plan.Covers hops) (henv : env.Binds plan path n) {s : Step}
    {segment : String} (hs : LeadsTo plan.root plan.steps (path ++ [segment]) s.node) :
    env s.node = none := by
  by_contra hbound
  obtain ⟨outer, hprefix, houter⟩ := henv.others s.node hbound
  have hlonger := hprefix.length_le
  rw [hplan.injective _ _ _ houter hs, List.length_append, List.length_singleton] at hlonger
  omega

theorem Covers.binds_hop (hplan : plan.Covers hops) (henv : env.Binds plan path n) {s : Step}
    (hs : s ∈ plan.steps) {segment : String} (hpath : s.path = path ++ [segment])
    (hnode : LeadsTo plan.root plan.steps (path ++ [segment]) s.node) {relation : Relation}
    (e : g.Edge) :
    (env.bindHop ⟨s.incoming.parent, relation, s.node⟩ e).Binds plan (path ++ [segment])
      (g.stop relation e) := by
  refine ⟨⟨s.node, hnode, by simp [Env.bindHop, Env.bind]⟩, ?_⟩
  intro name hname
  by_cases hchild : name = s.node
  · exact ⟨path ++ [segment], List.prefix_rfl, hchild ▸ hnode⟩
  · have hwas : env name ≠ none := by
      by_cases hparent : name = s.incoming.parent
      · rw [hparent, hplan.parent_eq henv hs hpath]
        simp
      · simpa [Env.bindHop, Env.bind, hchild, hparent] using hname
    obtain ⟨outer, hprefix, houter⟩ := henv.others name hwas
    exact ⟨outer, hprefix.trans (List.prefix_append path [segment]), houter⟩

-- The condition states on the node at the end of the path what the predicate does.
def States (plan : Plan) (path : List String) (c : Condition) (p : Predicate) : Prop :=
  ∀ (g : Graph) (ps : Parameters) (env : Env g) (n : g.Node), env.Binds plan path n →
    (c.expression.Holds g ps env ↔ p.Holds g ps n)

theorem States.related (hplan : plan.Covers hops) {hop : FilterHop} (hhop : hop ∈ hops)
    {segment : String} (hpath : hop.path = path ++ [segment]) {c : Condition} {p : Predicate}
    (hc : plan.condition p = .ok c) (h : plan.States hop.path c p) :
    ∃ c, plan.condition (.related hop p) = .ok c ∧ plan.States path c (.related hop p) := by
  obtain ⟨name, hname⟩ := hplan.reached hop hhop
  obtain ⟨s, hs⟩ := hname.exists_findStep? (by simp [hpath])
  obtain ⟨hmem, hspath, horigin⟩ := findStep?_eq_some hs
  have hnode : LeadsTo plan.root plan.steps (path ++ [segment]) s.node :=
    .inr ⟨s, hmem, hspath.trans hpath, horigin, rfl⟩
  refine ⟨_, condition_related_eq_ok.mpr ⟨s, c, hs, hc, rfl⟩, ?_⟩
  intro g ps env n henv
  rw [Condition.expression, Predicate.Holds]
  refine Condition.holds_relatedExpression (hplan.parent_eq henv hmem (hspath.trans hpath))
    (hplan.node_eq_none henv hnode) ?_
  intro e hstart
  rw [hpath] at h
  rw [← h g ps _ _ (hplan.binds_hop henv hmem (hspath.trans hpath) hnode e)]
  by_cases hvacuous : c.isVacuous = true
  · -- without an inner condition, every match of the hop will do
    have hall := Condition.isVacuous_iff.mp hvacuous
    simp [hall, Condition.isVacuous, Condition.holds_all_nil]
  · simp [hvacuous]

mutual

theorem exists_condition (hplan : plan.Covers hops) (p : Predicate) {path : List String}
    (hscope : p.ScopedAt path) (hhops : ∀ hop ∈ p.hops, hop ∈ hops)
    (hreached : ∃ node, LeadsTo plan.root plan.steps path node) :
    ∃ c, plan.condition p = .ok c ∧ plan.States path c p := by
  match p, hscope with
  | .compare comparison, hscope =>
      obtain ⟨node, hnode⟩ := hreached
      cases hscope
      refine ⟨_, condition_compare_eq_ok.mpr ⟨node, hplan.node? hnode, rfl⟩, ?_⟩
      intro g ps env n henv
      obtain ⟨name, hname, hbound⟩ := henv.node
      rw [hplan.unique _ _ _ hname hnode] at hbound
      rw [Condition.expression, Predicate.Holds]
      exact Condition.holds_compareExpression hbound _ _ _
  | .all children, hscope =>
      obtain ⟨cs, hcs, hall, -⟩ := exists_conditions hplan children hscope hhops hreached
      exact ⟨.all cs, condition_all_eq_ok.mpr ⟨cs, hcs, rfl⟩, hall⟩
  | .any children, hscope =>
      obtain ⟨cs, hcs, -, hany⟩ := exists_conditions hplan children hscope hhops hreached
      exact ⟨.any cs, condition_any_eq_ok.mpr ⟨cs, hcs, rfl⟩, hany⟩
  | .not child, hscope =>
      obtain ⟨c, hc, hstates⟩ := exists_condition hplan child hscope hhops hreached
      refine ⟨.not c, condition_not_eq_ok.mpr ⟨c, hc, rfl⟩, ?_⟩
      intro g ps env n henv
      rw [Condition.holds_not, Predicate.Holds, hstates g ps env n henv]
  | .related hop child, hscope =>
      obtain ⟨⟨segment, hsegment⟩, hchild⟩ := hscope
      have hhop := hhops hop List.mem_cons_self
      obtain ⟨c, hc, hstates⟩ := exists_condition hplan child hchild
        (fun inner hinner => hhops inner (List.mem_cons_of_mem hop hinner))
        (hplan.reached hop hhop)
      exact States.related hplan hhop hsegment hc hstates
termination_by sizeOf p

theorem exists_conditions (hplan : plan.Covers hops) (children : List Predicate)
    {path : List String} (hscope : Predicate.AllScopedAt path children)
    (hhops : ∀ hop ∈ Predicate.hopsOfAll children, hop ∈ hops)
    (hreached : ∃ node, LeadsTo plan.root plan.steps path node) :
    ∃ cs, plan.conditions children = .ok cs ∧ plan.States path (.all cs) (.all children) ∧
      plan.States path (.any cs) (.any children) := by
  match children, hscope with
  | [], _ =>
      refine ⟨[], conditions_nil_eq_ok.mpr rfl, ?_, ?_⟩
      · intro g ps env n _
        exact iff_of_true Condition.holds_all_nil trivial
      · intro g ps env n _
        exact iff_of_false Condition.not_holds_any_nil id
  | child :: rest, hscope =>
      obtain ⟨hchild, hrest⟩ := hscope
      have hmem : ∀ hop ∈ child.hops ++ Predicate.hopsOfAll rest, hop ∈ hops := hhops
      obtain ⟨c, hc, hfirst⟩ := exists_condition hplan child hchild
        (fun hop hhop => hmem hop (List.mem_append_left _ hhop)) hreached
      obtain ⟨cs, hcs, hall, hany⟩ := exists_conditions hplan rest hrest
        (fun hop hhop => hmem hop (List.mem_append_right _ hhop)) hreached
      refine ⟨c :: cs, conditions_cons_eq_ok.mpr ⟨c, cs, hc, hcs, rfl⟩, ?_, ?_⟩
      · intro g ps env n henv
        rw [Condition.holds_all_cons]
        exact and_congr (hfirst g ps env n henv) (hall g ps env n henv)
      · intro g ps env n henv
        rw [Condition.holds_any_cons]
        exact or_congr (hfirst g ps env n henv) (hany g ps env n henv)
termination_by sizeOf children

end

-- The condition that is made of a filter holds for a node exactly if the node meets the filter
-- as it is written.
theorem condition_holds_iff_meetsFilter {catalog : Catalog} (hcatalog : catalog.HasDistinctHops)
    {root : Root} {type : NodeType} (htype : catalog.type? root.typeName = some type)
    {path : ParameterPath} {filter : Json} {ps qs : Parameters} {children : List Predicate}
    (hfilter : Predicate.ofFilter catalog type path filter ps = .ok (children, qs))
    (selections : List Selection) :
    ∃ plan aliases condition,
      Plan.make catalog root selections none (.all children) .empty = .ok (plan, aliases) ∧
      plan.condition (.all children) = .ok condition ∧
      condition.render = condition.expression.text ∧
      ∀ (g : Graph) (n : g.Node),
        condition.expression.Holds g qs (Env.root root.node n) ↔
          g.MeetsFilter catalog type filter n := by
  obtain ⟨plan, aliases, hmake⟩ := exists_make htype selections (.all children) .empty
  have hread := Predicate.ofFilter_expresses hfilter
  obtain ⟨members, rfl, hmembers⟩ := Predicate.ofFilter_cases hfilter
  obtain ⟨hscopes, hfollows⟩ := Predicate.ofMembers_inScope .root members hmembers
  have hscope : (Predicate.all children).ScopedAt [] := hscopes
  have hcovers : plan.Covers (Predicate.all children).hops := by
    refine make_covers hcatalog htype hscope ?_ hmake
    rw [Predicate.hops]
    exact hfollows
  obtain ⟨condition, hcondition, hstates⟩ := exists_condition hcovers (.all children) hscope
    (fun _ hhop => hhop) ⟨_, .inl ⟨rfl, rfl⟩⟩
  refine ⟨plan, aliases, condition, hmake, hcondition, (Condition.text_expression condition).symm,
    ?_⟩
  intro g n
  rw [← make_root hmake, hstates g qs _ n binds_root]
  exact hread.iff g qs n (.refl qs)

-- Movies with an actor of that name, or with one who has no name, that are cast at all.
def castFilter : Json :=
  .obj
    [("OR", .arr
      [.obj [("actors", .obj [("name", .str "Al")])],
        .obj [("NOT", .obj [("actors_every", .obj [("name_not", .null)])])]]),
      ("actors_none", .null)]

theorem condition_holds_iff_meetsFilter_castFilter :
    ∃ children qs,
      Predicate.ofFilter movies movieType ⟨["filter"]⟩ castFilter .empty = .ok (children, qs) ∧
      ∃ plan aliases condition,
        Plan.make movies ⟨"movie", "Movie", none⟩ [] none (.all children) .empty =
          .ok (plan, aliases) ∧
        plan.condition (.all children) = .ok condition ∧
        condition.render = condition.expression.text ∧
        ∀ (g : Graph) (n : g.Node),
          condition.expression.Holds g qs (Env.root "movie" n) ↔
            g.MeetsFilter movies movieType castFilter n := by
  have hread : ∃ children qs,
      Predicate.ofFilter movies movieType ⟨["filter"]⟩ castFilter .empty = .ok (children, qs) :=
    ⟨_, _, rfl⟩
  obtain ⟨children, qs, hfilter⟩ := hread
  exact ⟨children, qs, hfilter,
    condition_holds_iff_meetsFilter movies_hasDistinctHops rfl hfilter []⟩

end Plan

end CypherCompiler
