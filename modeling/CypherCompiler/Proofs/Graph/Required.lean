import CypherCompiler.Proofs.Graph.Condition
import CypherCompiler.Proofs.Outcome.Compilation
import CypherCompiler.Proofs.Outcome.Source
import CypherCompiler.Proofs.Traversal.Selected

namespace CypherCompiler

open Cypher

namespace Predicate

mutual

-- Wherever the predicate holds, the hop of the path leads to some node: the hop stands under no
-- negation, and under a disjunction only if every branch asks for it.
def Demands (path : List String) (relation : Relation) : Predicate → Prop
  | compare _ => False
  | all children => SomeDemands path relation children
  | any children => AllDemand path relation children
  | not _ => False
  | related hop _ =>
    hop.path = path ∧ hop.relation = relation ∧
      (hop.quantifier = .some ∨ hop.quantifier = .single)

def SomeDemands (path : List String) (relation : Relation) : List Predicate → Prop
  | [] => False
  | p :: rest => Demands path relation p ∨ SomeDemands path relation rest

def AllDemand (path : List String) (relation : Relation) : List Predicate → Prop
  | [] => True
  | p :: rest => Demands path relation p ∧ AllDemand path relation rest

end

theorem SomeDemands.append_left {path : List String} {relation : Relation}
    {children : List Predicate} (h : SomeDemands path relation children)
    (more : List Predicate) : SomeDemands path relation (more ++ children) := by
  induction more with
  | nil => exact h
  | cons p rest ih => exact .inr ih

-- A member that asks for related nodes of its own demands them for the whole object.
theorem ofMembers_someDemands {catalog : Catalog} {type : NodeType} {path : ParameterPath}
    {members inner : Json.Members} {key : String} (hmember : (key, .obj inner) ∈ members)
    {field : Field} {relation : Relation}
    (hkey : FilterKey.read? type key = some (.relationship field relation .some))
    {ps qs : Parameters} {children : List Predicate}
    (h : ofMembers catalog type [] false path members ps = .ok (children, qs)) :
    SomeDemands [field.name] relation children := by
  induction members generalizing ps children with
  | nil => cases hmember
  | cons m rest ih =>
      obtain ⟨p, more, ms, hp, hmore, rfl⟩ := ofMembers_cons_eq_ok.mp h
      rcases List.mem_cons.mp hmember with rfl | hmember
      · left
        cases ofMember_cases hp with
        | not hother | comparison hother => cases hkey.symm.trans hother
        | related hread =>
            cases hkey.symm.trans hread
            exact ⟨rfl, rfl, .inl rfl⟩
      · exact .inr (ih hmember hmore)

end Predicate

-- A node has an edge that fits the relation.
def Graph.Leads (g : Graph) (relation : Relation) (n : g.Node) : Prop :=
  ∃ e, g.Fits relation e ∧ g.start relation e = n

section

variable {g : Graph} {ps : Parameters} {env : Env g} {n : g.Node}

theorem Cypher.Env.Matches.leads {hop : Hop} (hparent : env hop.parent = some n) {e : g.Edge}
    (h : env.Matches hop e) : g.Leads hop.relation n := by
  obtain ⟨hfits, hadmits, -⟩ := h
  exact ⟨e, hfits, (hadmits n hparent).symm⟩

theorem Cypher.Condition.leads_of_related {hop : Hop} {quantifier : Quantifier}
    {inner : Option Expression} (hparent : env hop.parent = some n)
    (hquantifier : quantifier = .some ∨ quantifier = .single)
    (h : (relatedExpression hop quantifier inner).Holds g ps env) : g.Leads hop.relation n := by
  obtain rfl | rfl := hquantifier
  · cases inner with
    | none =>
        obtain ⟨e, he⟩ := h
        exact he.leads hparent
    | some E =>
        obtain ⟨e, he, -⟩ := h
        exact he.leads hparent
  · cases inner with
    | none =>
        obtain ⟨e, he, -⟩ := h
        exact he.leads hparent
    | some E =>
        obtain ⟨e, ⟨he, -⟩, -⟩ := h
        exact he.leads hparent

namespace Plan

variable {plan : Plan} {key : String} {relation : Relation} {node : String}

mutual

theorem leads_of_demands (hplan : ∀ s ∈ plan.steps, s.path = [key] → s.incoming.parent = node)
    (hnode : env node = some n) (p : Predicate) {c : Condition} (hc : plan.condition p = .ok c)
    (hdemands : p.Demands [key] relation) (h : c.expression.Holds g ps env) :
    g.Leads relation n := by
  match p, hdemands with
  | .compare _, hdemands => exact hdemands.elim
  | .not _, hdemands => exact hdemands.elim
  | .all children, hdemands =>
      obtain ⟨cs, hcs, rfl⟩ := condition_all_eq_ok.mp hc
      exact leads_of_someDemands hplan hnode children hcs hdemands h
  | .any children, hdemands =>
      obtain ⟨cs, hcs, rfl⟩ := condition_any_eq_ok.mp hc
      exact leads_of_allDemand hplan hnode children hcs hdemands h
  | .related hop child, hdemands =>
      obtain ⟨hpath, rfl, hquantifier⟩ := hdemands
      obtain ⟨s, inner, hs, -, rfl⟩ := condition_related_eq_ok.mp hc
      obtain ⟨hmem, hspath, -⟩ := findStep?_eq_some hs
      rw [Condition.expression] at h
      refine Condition.leads_of_related ?_ hquantifier h
      rw [hplan s hmem (hspath.trans hpath)]
      exact hnode
termination_by sizeOf p

theorem leads_of_someDemands
    (hplan : ∀ s ∈ plan.steps, s.path = [key] → s.incoming.parent = node)
    (hnode : env node = some n) (children : List Predicate) {cs : List Condition}
    (hcs : plan.conditions children = .ok cs)
    (hdemands : Predicate.SomeDemands [key] relation children)
    (h : (Condition.all cs).expression.Holds g ps env) : g.Leads relation n := by
  match children, hdemands with
  | [], hdemands => exact hdemands.elim
  | child :: rest, hdemands =>
      obtain ⟨c, more, hc, hmore, rfl⟩ := conditions_cons_eq_ok.mp hcs
      obtain ⟨hfirst, hothers⟩ := Condition.holds_all_cons.mp h
      obtain hchild | hrest := hdemands
      · exact leads_of_demands hplan hnode child hc hchild hfirst
      · exact leads_of_someDemands hplan hnode rest hmore hrest hothers
termination_by sizeOf children

theorem leads_of_allDemand
    (hplan : ∀ s ∈ plan.steps, s.path = [key] → s.incoming.parent = node)
    (hnode : env node = some n) (children : List Predicate) {cs : List Condition}
    (hcs : plan.conditions children = .ok cs)
    (hdemands : Predicate.AllDemand [key] relation children)
    (h : (Condition.any cs).expression.Holds g ps env) : g.Leads relation n := by
  match children, hdemands with
  | [], _ =>
      rw [conditions_nil_eq_ok.mp hcs] at h
      exact (Condition.not_holds_any_nil h).elim
  | child :: rest, hdemands =>
      obtain ⟨c, more, hc, hmore, rfl⟩ := conditions_cons_eq_ok.mp hcs
      obtain ⟨hchild, hrest⟩ := hdemands
      obtain hfirst | hothers := Condition.holds_any_cons.mp h
      · exact leads_of_demands hplan hnode child hc hchild hfirst
      · exact leads_of_allDemand hplan hnode rest hmore hrest hothers
termination_by sizeOf children

end

end Plan

end

namespace Selection

variable {s : Selection} {setting : Setting} {root : Root} {path : ParameterPath} {d d' : Draft}

-- Whether the filter of a field, as far as it follows a relationship from the root under a
-- response key, demands that the relationship leads somewhere.
def FilterDemands (s : Selection) (setting : Setting) (type : NodeType) (path : ParameterPath)
    (key : String) (relation : Relation) : Prop :=
  ∀ predicate ps qs,
    Predicate.ofSelection setting.catalog type path setting.strictArguments s ps =
      .ok (predicate, qs) →
    (∃ hop ∈ predicate.hops, hop.path = [key] ∧ hop.relation = relation) →
      predicate.Demands [key] relation

-- A filter that asks for the relationship in one of its own members demands it.
theorem filterDemands_of_member {type : NodeType} {members inner : Json.Members} {key : String}
    (h : s.argument? Argument.filter = some (.obj members)) (hmember : (key, .obj inner) ∈ members)
    {field : Field} {relation : Relation}
    (hkey : FilterKey.read? type key = some (.relationship field relation .some)) :
    s.FilterDemands setting type path field.name relation := by
  rintro predicate ps qs hpredicate -
  obtain ⟨tests, filter, ms, -, ⟨hnone, -, -⟩ | ⟨v, hv, hread⟩, rfl⟩ :=
    Predicate.ofSelection_cases hpredicate
  · cases hnone.symm.trans h
  · obtain rfl : v = .obj members := Option.some.inj (hv.symm.trans h)
    exact (Predicate.ofMembers_someDemands hmember hkey hread).append_left tests

-- Every node that a query returns has a node behind each selected relationship that has to be
-- there: the query checks for one, or its filter implies it.
theorem readQuery_required_leads {query : ReadQuery} {type : NodeType}
    (htype : setting.catalog.type? root.typeName = some type)
    (h : s.readQuery setting root path d = .ok (query, d')) {t : Selection}
    (ht : t ∈ s.selections) {field : Field} (hfield : type.field? t.name = some field)
    {relation : Relation} (hrelation : field.relation? = some relation)
    (hlist : field.list = false) (hrequired : field.required = true)
    (hfilter : s.FilterDemands setting type path t.responseKey relation) {g : Graph}
    {ps : Parameters} {env : Env g} {n : g.Node} (hnode : env query.node = some n)
    (hwhere : ∀ c ∈ query.source.conditions, c.expression.Holds g ps env) :
    (∀ c ∈ query.source.conditions, c.render = c.expression.text) ∧ g.Leads relation n := by
  refine ⟨fun c _ => c.text_expression.symm, ?_⟩
  obtain ⟨head, e, f, items, order, window, hhead, -, -, -, -, rfl⟩ := readWith_cases h
  obtain ⟨search, c, read, htype', -, hread, -, hsource, -⟩ := readHead_cases hhead
  obtain ⟨type', htype'', hpredicate, hmake⟩ := planRead_cases hread
  obtain rfl : type' = type := Option.some.inj (htype''.symm.trans htype)
  obtain ⟨-, -, hconditions⟩ := Plan.source_eq_ok hsource
  obtain ⟨stated, hall, hstated⟩ := Plan.sourceConditions_eq_ok hconditions
  obtain ⟨step, hstep, hincoming, honly | hshared⟩ :=
    Plan.make_requires htype hmake ht hfield hrelation hlist hrequired
  · -- the query states the presence of the related node
    have hcheck : Condition.leadsSomewhere step.hop ∈ head.source.conditions := by
      rw [hall]
      exact List.mem_append_right _
        (List.mem_map_of_mem (List.mem_filter.mpr ⟨hstep, honly⟩))
    have hholds := hwhere _ hcheck
    rw [Condition.leadsSomewhere, Condition.expression] at hholds
    have hleads := Condition.leads_of_related (by rw [Step.hop, hincoming]; exact hnode)
      (.inl rfl) hholds
    rwa [Step.hop, hincoming] at hleads
  · -- the filter follows the same hop, and so its condition has to imply the node
    have hdemands := hfilter read.predicate _ _ hpredicate hshared
    obtain ⟨hvacuous, -⟩ | ⟨stating, hstating, rfl⟩ := hstated
    · rw [hvacuous] at hdemands
      exact hdemands.elim
    · refine Plan.leads_of_demands (fun s hs hkey => Plan.make_parent hmake hs hkey) hnode
        read.predicate hstating hdemands (hwhere stating ?_)
      rw [hall]
      exact List.mem_append_left _ (List.mem_singleton_self stating)

end Selection

namespace Request

-- Movies that have a director each.
def directorField : Field :=
  ⟨"director", .relationship ⟨"DIRECTED", .into, "Person"⟩, false, true, false, false, none, [], []⟩

def directedMovieType : NodeType where
  name := "Movie"
  additionalLabels := []
  scopes := .unrestricted
  fields :=
    [⟨"title", .scalar .string, false, true, false, true, none, [], []⟩, directorField]
  primaryKey := some "title"
  fields_nodup := by decide
  primaryKey_scalar := by decide

def directedMovies : Catalog where
  types := [directedMovieType, personType]
  types_nodup := by decide
  closed := by decide

-- All movies that pass a filter, with their directors.
def directedField (filter : Json) : Selection :=
  ⟨"movies", none, [("filter", filter)],
    [⟨"title", none, [], []⟩, ⟨"director", none, [], [⟨"name", none, [], []⟩]⟩]⟩

def directedRequest (filter : Json) : Request :=
  ⟨.query, directedField filter, some "Movie", [], ⟨[]⟩⟩

-- A movie with a director, a movie of the same title without one, and the director.
def films : Graph where
  Node := Fin 3
  Edge := Unit
  Stored := String
  source _ := 2
  target _ := 0
  edgeName _ := "DIRECTED"
  HasLabel n label := label = if n = 2 then "Person" else "Movie"
  property n name :=
    if n = 2 then if name = "name" then some "Ann" else none
    else if name = "title" then some "Up" else none
  number _ := ""
  Compares _ op stored v := op = .eq ∧ v.asString? = some stored
  ComparesNumber _ _ _ := False

def byDirector : Json := .obj [("director", .obj [("name", .str "Ann")])]

def byDirectorOrTitle : Json :=
  .obj [("OR", .arr [byDirector, .obj [("title", .str "Up")]])]

end Request

open Request in
theorem Selection.readQuery_required_leads_byDirector :
    ∃ query d,
      (directedField byDirector).readQuery ⟨directedMovies, true, []⟩ ⟨"movie", "Movie", none⟩
        .root .empty = .ok (query, d) ∧
      (∀ c ∈ query.source.conditions,
        c.expression.Holds films d.parameters (Env.root "movie" (0 : Fin 3))) ∧
      (∀ c ∈ query.source.conditions, c.render = c.expression.text) ∧
      films.Leads ⟨"DIRECTED", .into, "Person"⟩ (0 : Fin 3) := by
  have hread : ∃ query d,
      (directedField byDirector).readQuery ⟨directedMovies, true, []⟩ ⟨"movie", "Movie", none⟩
        .root .empty = .ok (query, d) ∧ query.node = "movie" ∧
      query.source.conditions =
        [.all [.related ⟨"movie", ⟨"DIRECTED", .into, "Person"⟩, "movie_director"⟩ .some
          (.all [.compare "movie_director" (.property "name" none) .eq
            (.parameter "filter_director_name")])]] ∧
      d.parameters.members = [("filter_director_name", .str "Ann")] :=
    ⟨_, _, rfl, rfl, rfl, rfl⟩
  obtain ⟨query, d, hquery, hnode, hconditions, hparameters⟩ := hread
  have hwhere : ∀ c ∈ query.source.conditions,
      c.expression.Holds films d.parameters (Env.root "movie" (0 : Fin 3)) := by
    rw [hconditions]
    intro c hc
    rw [List.mem_singleton.mp hc]
    refine ⟨⟨(), ⟨⟨rfl, rfl⟩, ?_, ?_⟩, ?_⟩, trivial⟩
    · rintro m ⟨⟩
      rfl
    · intro m hm
      cases hm
    · refine ⟨⟨(2 : Fin 3), rfl, "Ann", .str "Ann", rfl, ?_, rfl, rfl⟩, trivial⟩
      rw [Parameters.get?, hparameters]
      rfl
  have htype : directedMovies.type? "Movie" = some directedMovieType := rfl
  have hselected : (⟨"director", none, [], [⟨"name", none, [], []⟩]⟩ : Selection) ∈
      (directedField byDirector).selections := .tail _ (.head _)
  have hkey : FilterKey.read? directedMovieType "director" =
      some (.relationship directorField ⟨"DIRECTED", .into, "Person"⟩ .some) := rfl
  refine ⟨query, d, hquery, hwhere, readQuery_required_leads htype hquery hselected rfl rfl rfl rfl
    (filterDemands_of_member rfl (.head _) hkey) ?_ hwhere⟩
  rw [hnode]
  rfl

open Request in
-- A filter that asks for the director in one branch only shares the hop, and so lets a movie
-- pass that has none.
theorem Selection.readQuery_required_missing :
    ∃ plan query, (directedRequest byDirectorOrTitle).compile directedMovies .default = .ok plan ∧
      plan.statement = .read query ∧
      (∀ c ∈ query.source.conditions,
        c.expression.Holds films plan.parameters (Env.root query.node (1 : Fin 3))) ∧
      ¬ films.Leads ⟨"DIRECTED", .into, "Person"⟩ (1 : Fin 3) := by
  have hcompile : ∃ plan query,
      (directedRequest byDirectorOrTitle).compile directedMovies .default = .ok plan ∧
      plan.statement = .read query ∧ query.node = "movie" ∧
      query.source.conditions =
        [.all [.any
          [.all [.related ⟨"movie", ⟨"DIRECTED", .into, "Person"⟩, "movie_director"⟩ .some
            (.all [.compare "movie_director" (.property "name" none) .eq
              (.parameter "filter_OR_0_director_name")])],
            .all [.compare "movie" (.property "title" none) .eq
              (.parameter "filter_OR_1_title")]]]] ∧
      plan.parameters.get? "filter_OR_1_title" = some (.str "Up") :=
    ⟨_, _, rfl, rfl, rfl, rfl, rfl⟩
  obtain ⟨plan, query, hplan, hquery, hnode, hconditions, htitle⟩ := hcompile
  refine ⟨plan, query, hplan, hquery, ?_, ?_⟩
  · rw [hconditions, hnode]
    intro c hc
    rw [List.mem_singleton.mp hc]
    refine ⟨.inr (.inl ⟨⟨(1 : Fin 3), rfl, "Up", .str "Up", rfl, htitle, rfl, rfl⟩, trivial⟩),
      trivial⟩
  · rintro ⟨e, -, hstart⟩
    cases hstart

end CypherCompiler
