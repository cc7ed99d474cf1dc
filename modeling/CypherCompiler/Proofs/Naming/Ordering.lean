import CypherCompiler.Proofs.Mirror.Projection
import CypherCompiler.Proofs.Outcome.Compilation

namespace CypherCompiler

open Cypher

namespace Cypher

-- The name in a statement that an item of an ordering reads.
def OrderRead.variable : OrderRead → String
  | .property node _ => node
  | .nodeId node => node
  | .score name => name

-- An ordering follows the result, whose column hides whatever else is called like it.
def ReadQuery.OrdersApart (q : ReadQuery) : Prop :=
  ∀ term ∈ q.order, term.read.variable ≠ q.key

mutual

-- The read statements inside an entry, at any depth.
def Item.queries : Item → List ReadQuery
  | .related _ _ query => ReadQuery.queries query
  | .computedNodes _ _ _ _ items => Item.queriesOfAll items
  | _ => []

def ReadQuery.queries : ReadQuery → List ReadQuery
  | ⟨source, node, items, key, order, window⟩ =>
    ⟨source, node, items, key, order, window⟩ :: Item.queriesOfAll items

def Item.queriesOfAll : List Item → List ReadQuery
  | [] => []
  | item :: rest => Item.queries item ++ Item.queriesOfAll rest

end

theorem ReadQuery.queries_eq (q : ReadQuery) : q.queries = q :: Item.queriesOfAll q.items := by
  cases q
  rw [queries]

end Cypher

-- The selections of a plan lead to nodes that are not called like their response keys.
def Plan.NamesApart (plan : Plan) : Prop :=
  ∀ key step, plan.selectionStep? key = some step → step.node ≠ key

theorem Plan.make_namesApart {catalog : Catalog} {root : Root} {selections : List Selection}
    {groupBy : Option String} {predicate : Predicate} {aliases aliases' : AliasRegistry}
    {plan : Plan}
    (h : make catalog root selections groupBy predicate aliases = .ok (plan, aliases')) :
    plan.NamesApart := by
  intro key step hstep heq
  obtain ⟨hmem, hpath, horigin⟩ := findStep?_eq_some hstep
  obtain ⟨type, -, t, -, field, -, hkey, r, hnode⟩ := make_selected h hmem horigin
  obtain rfl : key = t.responseKey := List.singleton_inj.mp (hpath.symm.trans hkey)
  have hlonger := Alias.length_lt_child root.node t.responseKey
  have hfresh := r.length_le_fresh (Alias.child root.node t.responseKey)
  rw [← hnode, heq] at hfresh
  omega

namespace OrderItem

theorem variable_term (node : String) (item : OrderItem) :
    (item.term node).read.variable = node := by
  unfold term
  split <;> rfl

-- No order is asked for by an argument that is left out, or by an empty list.
theorem readAll_eq_nil_iff {type : NodeType} {v : Option Json} {items : List OrderItem}
    (h : readAll type v = .ok items) : items = [] ↔ v = none ∨ v = some (.arr []) := by
  cases v with
  | none =>
      cases h
      simp
  | some v =>
      cases v with
      | arr written =>
          have hlength := (except_mapM_eq_ok_iff.mp h).length_eq
          rw [← List.length_eq_zero_iff, ← hlength, List.length_eq_zero_iff]
          simp
      | _ =>
          simp only [readAll, except_bind_eq_ok, except_pure_eq_ok] at h
          obtain ⟨item, -, rfl⟩ := h
          simp

end OrderItem

namespace Selection

variable {s : Selection} {setting : Setting} {d d' : Draft}

-- The name that the ordering of a field reads, if it has one: that of its node where an order is
-- asked for, else that of the score of its search.
def orderedBy? (s : Selection) (node : String) (score : Option String) : Option String :=
  match s.argument? Argument.orderBy with
  | none => score
  | some (.arr []) => score
  | some _ => some node

theorem orderTerms_apart_iff {type : NodeType} {node : String} {score : Option String}
    {order : List OrderTerm} (h : s.orderTerms type node score = .ok order) (key : String) :
    (∀ term ∈ order, term.read.variable ≠ key) ↔ s.orderedBy? node score ≠ some key := by
  unfold orderTerms at h
  rw [except_bind_eq_ok] at h
  obtain ⟨items, hitems, h⟩ := h
  have hasked := OrderItem.readAll_eq_nil_iff hitems
  by_cases hnil : items = []
  · have hscore : s.orderedBy? node score = score := by
      obtain hnone | hempty := hasked.mp hnil
      · simp [orderedBy?, hnone]
      · simp [orderedBy?, hempty]
    rw [hscore]
    simp only [hnil, List.isEmpty_nil, ite_true, except_pure_eq_ok] at h
    subst h
    cases score <;> simp [OrderRead.variable]
  · have hnode : s.orderedBy? node score = some node := by
      rw [hasked, not_or] at hnil
      unfold orderedBy?
      split
      · rename_i hnone
        exact (hnil.1 hnone).elim
      · rename_i hempty
        exact (hnil.2 hempty).elim
      · rfl
    obtain ⟨first, hfirst⟩ := List.exists_mem_of_ne_nil items hnil
    simp only [List.isEmpty_iff, hnil, if_false, except_pure_eq_ok] at h
    subst h
    rw [hnode]
    constructor
    · intro hapart heq
      have hterm := hapart _ (List.mem_map_of_mem hfirst)
      rw [OrderItem.variable_term] at hterm
      exact hterm (Option.some.inj heq)
    · intro hne term hterm
      obtain ⟨item, -, rfl⟩ := List.mem_map.mp hterm
      rw [OrderItem.variable_term]
      exact fun heq => hne (congrArg some heq)

-- A nested read is ordered by its node, if at all, and stands under another name.
theorem readWith_ordersApart {root : Root} {incoming : Incoming}
    (hroot : root.incoming = some incoming) {path : ParameterPath}
    {project : NodeType → Plan → Drafting (List Item)} {query : ReadQuery}
    (h : s.readWith setting root path project d = .ok (query, d'))
    (hnode : root.node ≠ s.responseKey) : query.OrdersApart := by
  obtain ⟨head, e, f, items, order, window, hhead, -, horder, -, -, rfl⟩ := readWith_cases h
  obtain ⟨search, c, read, -, hsearch, -, -, -, hscore⟩ := readHead_cases hhead
  rw [searchCall_incoming hroot hsearch, Option.map_none] at hscore
  rw [hscore] at horder
  refine (orderTerms_apart_iff horder s.responseKey).mpr ?_
  unfold orderedBy?
  split
  · simp
  · simp
  · exact fun heq => hnode (Option.some.inj heq)

mutual

-- Every level plans its own steps, whose names are longer than the response keys.
theorem project_queries {type : NodeType} {node : String} {plan : Plan} (s : Selection)
    (hnames : plan.NamesApart) {d d' : Draft} {item : Item}
    (h : s.project setting type node plan d = .ok (item, d')) :
    ∀ q ∈ item.queries, q.OrdersApart := by
  have hsize := sizeOf_selections_lt s
  cases project_cases h with
  | @related field relation step query _ _ hfield hkind hfound hquery =>
      obtain ⟨target, inner, _, _, _, e, f, -, hmake, hitems⟩ := readWith_planned hquery
      have hinner := projectAll_queries s.selections (Plan.make_namesApart hmake) hitems
      have hapart := readWith_ordersApart rfl hquery (hnames _ step hfound)
      intro q hq
      rw [Item.queries, ReadQuery.queries_eq, List.mem_cons] at hq
      rcases hq with rfl | hq
      · exact hapart
      · exact hinner q hq
  | computedNodes hfield hkind hshown hcall htarget hplan hitems =>
      obtain ⟨hmake, -⟩ := planSelections_cases hplan
      rw [Item.queries]
      exact projectAll_queries s.selections (Plan.make_namesApart hmake) hitems
  | _ => simp [Item.queries]
termination_by sizeOf s

theorem projectAll_queries {type : NodeType} {node : String} {plan : Plan}
    (selections : List Selection) (hnames : plan.NamesApart) {d d' : Draft} {items : List Item}
    (h : projectAll setting type node plan selections d = .ok (items, d')) :
    ∀ q ∈ Item.queriesOfAll items, q.OrdersApart := by
  match selections, h with
  | [], h =>
      cases projectAll_nil_eq_ok.mp h
      simp [Item.queriesOfAll]
  | s :: rest, h =>
      obtain ⟨item, more, e, hitem, hmore, rfl⟩ := projectAll_cons_cases h
      have hfirst := project_queries s hnames hitem
      have hothers := projectAll_queries rest hnames hmore
      intro q hq
      rw [Item.queriesOfAll, List.mem_append] at hq
      exact hq.elim (hfirst q) (hothers q)
termination_by sizeOf selections

end

-- Before the search of a statement only its root has a name.
theorem searchCall_score {type : NodeType} {root : Root} {path : ParameterPath}
    {search : Option SearchCall} (hempty : d.aliases = .empty)
    (h : s.searchCall root type path d = .ok (search, d')) :
    search.map SearchCall.score =
      (s.argument? Argument.search).map fun _ => Alias.child root.node "score" := by
  obtain ⟨hnone, rfl, -⟩ | ⟨index, v, hv, -, rfl, -⟩ := searchCall_cases h
  · simp [hnone]
  · have hlonger : Alias.child root.node "score" ≠ root.node := by
      intro heq
      have hlength := congrArg String.length heq
      simp only [Alias.child, String.length_append] at hlength
      have hone : "_".length = 1 := rfl
      omega
    have hfree : Alias.child root.node "score" ∉ (d.aliases.reserve root.node).taken := by
      rw [AliasRegistry.mem_reserve, hempty]
      simpa [AliasRegistry.empty] using hlonger
    simp [hv, scoreName, AliasRegistry.fresh_eq_of_not_mem hfree]

end Selection

namespace Request

variable {r : Request} {catalog : Catalog} {config : Config} {type : NodeType}

-- The ordering of a nested read is never hidden by the column of its result. At the root of a
-- statement it is hidden exactly where the field is called like the name that it reads.
theorem compile_ordersApart (hquery : r.operation = .query)
    (htype : r.rootType catalog config = .ok type) {plan : StatementPlan}
    (h : r.compile catalog config = .ok plan) :
    ∃ query, plan.statement = .read query ∧
      (∀ nested ∈ Item.queriesOfAll query.items, nested.OrdersApart) ∧
      (query.OrdersApart ↔
        r.field.orderedBy? (Alias.root type.name)
          ((r.field.argument? Argument.search).map fun _ =>
            Alias.child (Alias.root type.name) "score") ≠ some r.field.responseKey) := by
  obtain ⟨found, d, hfound, -, hstatement, -⟩ := compile_cases h
  obtain rfl : found = type := Except.ok.inj (hfound.symm.trans htype)
  obtain ⟨-, query, hread, hrun⟩ | ⟨hcount, -⟩ | hmutation := statement_cases hstatement
  · obtain ⟨_, _, _, _, _, _, _, -, hmake, hitems⟩ := Selection.readWith_planned hrun
    refine ⟨query, hread, Selection.projectAll_queries _ (Plan.make_namesApart hmake) hitems, ?_⟩
    obtain ⟨head, e, f, items, order, window, hhead, -, horder, -, -, rfl⟩ :=
      Selection.readWith_cases hrun
    obtain ⟨search, c, read, -, hsearch, -, -, -, hscore⟩ := Selection.readHead_cases hhead
    have hempty : r.initialDraft.aliases = .empty := by
      unfold initialDraft
      split <;> rfl
    rw [Selection.searchCall_score hempty hsearch] at hscore
    rw [hscore] at horder
    exact Selection.orderTerms_apart_iff horder r.field.responseKey
  · cases hquery.symm.trans hcount
  · rw [hquery] at hmutation
    generalize plan.statement = statement at hmutation
    cases Mutation.statement_cases hmutation with
    | change hoperation => simp at hoperation

-- The persons by name, each with the movies of the last years first.
def latestMoviesRequest : Request :=
  ⟨.query,
    ⟨"people", none, [("orderBy", .str "name_asc")],
      [⟨"movies", none, [("orderBy", .ofStrings ["released_desc", "_id_asc"])],
        [⟨"title", none, [], []⟩]⟩]⟩,
    some "Person", [], ⟨[]⟩⟩

theorem compile_ordersApart_latestMovies :
    ∃ plan query nested, latestMoviesRequest.compile movies .default = .ok plan ∧
      plan.statement = .read query ∧ query.order = [⟨.property "person" "name", false⟩] ∧
      query.OrdersApart ∧ Item.queriesOfAll query.items = [nested] ∧
      nested.order = [⟨.property "person_movies" "released", true⟩,
        ⟨.nodeId "person_movies", false⟩] ∧ nested.OrdersApart := by
  obtain ⟨plan, hplan⟩ : ∃ plan, latestMoviesRequest.compile movies .default = .ok plan :=
    ⟨_, rfl⟩
  obtain ⟨query, hread, hnested, hroot⟩ := compile_ordersApart rfl rfl hplan
  have hapart := hroot.mpr (by decide)
  cases hplan
  cases hread
  exact ⟨_, _, _, rfl, rfl, rfl, hapart, rfl, rfl, hnested _ List.mem_cons_self⟩

-- A field that is called like the node of its type is ordered by a property of its own result,
-- which need not hold it.
theorem compile_orders_result :
    ∃ plan query,
      (⟨.query, ⟨"movie", none, [("orderBy", .str "released_desc")], [⟨"title", none, [], []⟩]⟩,
        some "Movie", [], ⟨[]⟩⟩ : Request).compile movies .default = .ok plan ∧
      plan.statement = .read query ∧
      query.order = [⟨.property "movie" "released", true⟩] ∧ ¬ query.OrdersApart ∧
      plan.text = "MATCH (`movie`:`Movie`) RETURN `movie` \x7b.title\x7d AS `movie` " ++
        "ORDER BY `movie`.released DESC" :=
  ⟨_, _, rfl, rfl, rfl, fun hapart => hapart _ List.mem_cons_self rfl, by decide⟩

end Request

end CypherCompiler
