import CypherCompiler.Proofs.Graph.Required
import CypherCompiler.Proofs.Outcome.Compilation

namespace CypherCompiler

open Cypher

-- A clause that adds an edge to the graph.
def Cypher.Clause.addsEdge : Clause → Bool
  | .createRelated .. | .connect .. => true
  | _ => false

namespace NestedOperation

-- Nodes that are disconnected lose an edge.
def addsEdge : NestedOperation → Bool
  | .create | .connect => true
  | .disconnect => false

-- The objects that operations are named for, each with its operation.
def items (members : Json.Members) : List (NestedOperation × Json.Members) :=
  members.flatMap fun (key, v) => (ofName? key).toList.flatMap fun operation =>
    v.objects.map fun object => (operation, object)

theorem items_cons {key : String} {operation : NestedOperation}
    (h : ofName? key = some operation) (v : Json) (members : Json.Members) :
    items ((key, v) :: members) =
      (v.objects.map fun object => (operation, object)) ++ items members := by
  simp [items, h]

-- The operations among the members that add an edge for each of their objects.
def edgeMembers (members : Json.Members) : Json.Members :=
  members.filter fun (key, _) => (ofName? key).any addsEdge

-- What the input of a relationship asks for. Without an operation its objects are created.
def inputItems (target : NodeType) : Json → List (NestedOperation × Json.Members)
  | .obj members =>
    if areNamedBy members target then items members else [(.create, members)]
  | v => v.objects.map fun object => (.create, object)

end NestedOperation

-- The input of a relationship field, with the clauses in which it adds an edge.
structure EdgeInput where
  field : Field
  target : NodeType
  value : Json
  edges : List Clause

namespace EdgeInput

-- The input names more than one operation that adds an edge.
def NamesSeveral (e : EdgeInput) : Prop :=
  ∃ members, e.value = .obj members ∧ NestedOperation.areNamedBy members e.target = true ∧
    2 ≤ (NestedOperation.edgeMembers members).length

-- A field for one node adds one edge at most, unless several operations ask for it.
def Bounded (e : EdgeInput) : Prop :=
  e.field.list = false → (e.edges.length ≤ 1 ↔ ¬ e.NamesSeveral)

end EdgeInput

mutual

-- The clauses that follow from the members of an object, and the relationship inputs among
-- these and below them, each with its edges.
inductive Records (catalog : Catalog) :
    NodeType → String → List (String × Json) → List EdgeInput → List Clause → Prop
  | nil {type : NodeType} {node : String} : Records catalog type node [] [] []
  | other {type : NodeType} {node key : String} {v : Json} {rest : List (String × Json)}
      {inputs : List EdgeInput} {clauses : List Clause}
      (hother : v.isNull = true ∨ (type.field? key).bind Field.relation? = none)
      (hrest : Records catalog type node rest inputs clauses) :
      Records catalog type node ((key, v) :: rest) inputs clauses
  | input {type target : NodeType} {node key : String} {v : Json} {rest : List (String × Json)}
      {field : Field} {relation : Relation} {inner inputs : List EdgeInput}
      {edges here clauses : List Clause} (hfield : type.field? key = some field)
      (hrelation : field.relation? = some relation)
      (htarget : catalog.type? relation.target = some target)
      (hitems : RecordsItems catalog node relation target
        (NestedOperation.inputItems target v) edges inner here)
      (hrest : Records catalog type node rest inputs clauses) :
      Records catalog type node ((key, v) :: rest)
        (⟨field, target, v, edges⟩ :: (inner ++ inputs)) (here ++ clauses)

-- The clauses for the objects of one input: an edge for every object but those to be
-- disconnected, and for those created also what follows from their own members.
inductive RecordsItems (catalog : Catalog) :
    String → Relation → NodeType → List (NestedOperation × Json.Members) → List Clause →
      List EdgeInput → List Clause → Prop
  | nil {parent : String} {relation : Relation} {target : NodeType} :
      RecordsItems catalog parent relation target [] [] [] []
  | create {parent node : String} {relation : Relation} {target : NodeType}
      {members : Json.Members} {items : List (NestedOperation × Json.Members)}
      {written : List (String × Written)} {inner inputs : List EdgeInput}
      {edges nested clauses : List Clause}
      (hnested : Records catalog target node members inner nested)
      (hrest : RecordsItems catalog parent relation target items edges inputs clauses) :
      RecordsItems catalog parent relation target ((.create, members) :: items)
        (.createRelated parent relation ⟨node, target.labels, written⟩ :: edges)
        (inner ++ inputs)
        (.createRelated parent relation ⟨node, target.labels, written⟩ :: (nested ++ clauses))
  | connect {parent node : String} {relation : Relation} {target : NodeType}
      {members : Json.Members} {items : List (NestedOperation × Json.Members)}
      {keys : List (String × String)} {inputs : List EdgeInput} {edges clauses : List Clause}
      (hrest : RecordsItems catalog parent relation target items edges inputs clauses) :
      RecordsItems catalog parent relation target ((.connect, members) :: items)
        (.connect parent relation ⟨node, target.labels, keys⟩ :: edges) inputs
        (.connect parent relation ⟨node, target.labels, keys⟩ :: clauses)
  | disconnect {parent edge : String} {relation : Relation} {target : NodeType}
      {members : Json.Members} {items : List (NestedOperation × Json.Members)}
      {keys : List (String × String)} {inputs : List EdgeInput} {edges clauses : List Clause}
      (hrest : RecordsItems catalog parent relation target items edges inputs clauses) :
      RecordsItems catalog parent relation target ((.disconnect, members) :: items) edges inputs
        (.disconnect parent relation edge target.labels keys :: clauses)

end

section

variable {catalog : Catalog}

theorem RecordsItems.append {parent : String} {relation : Relation} {target : NodeType}
    {items more : List (NestedOperation × Json.Members)} {edges further : List Clause}
    {inputs others : List EdgeInput} {clauses rest : List Clause}
    (h : RecordsItems catalog parent relation target items edges inputs clauses)
    (k : RecordsItems catalog parent relation target more further others rest) :
    RecordsItems catalog parent relation target (items ++ more) (edges ++ further)
      (inputs ++ others) (clauses ++ rest) := by
  match h with
  | .nil => exact k
  | .create hnested hrest =>
      simpa only [List.cons_append, List.append_assoc] using .create hnested (hrest.append k)
  | .connect hrest => exact .connect (hrest.append k)
  | .disconnect hrest => exact .disconnect (hrest.append k)

theorem RecordsItems.length_edges {parent : String} {relation : Relation} {target : NodeType}
    {items : List (NestedOperation × Json.Members)} {edges : List Clause}
    {inputs : List EdgeInput} {clauses : List Clause}
    (h : RecordsItems catalog parent relation target items edges inputs clauses) :
    edges.length = (items.filter fun item => item.1.addsEdge).length := by
  match h with
  | .nil => rfl
  | .create _ hrest => exact congrArg (· + 1) hrest.length_edges
  | .connect hrest => exact congrArg (· + 1) hrest.length_edges
  | .disconnect hrest => exact hrest.length_edges

mutual

-- Every clause that adds an edge belongs to exactly one input.
theorem Records.partition {type : NodeType} {node : String} {members : List (String × Json)}
    {inputs : List EdgeInput} {clauses : List Clause}
    (h : Records catalog type node members inputs clauses) :
    (clauses.filter Clause.addsEdge).Perm (inputs.flatMap EdgeInput.edges) := by
  match h with
  | .nil => exact .nil
  | .other _ hrest => exact Records.partition hrest
  | .input _ _ _ hitems hrest =>
      rw [List.filter_append, List.flatMap_cons, List.flatMap_append, ← List.append_assoc]
      exact (RecordsItems.partition hitems).append (Records.partition hrest)

theorem RecordsItems.partition {parent : String} {relation : Relation} {target : NodeType}
    {items : List (NestedOperation × Json.Members)} {edges : List Clause}
    {inputs : List EdgeInput} {clauses : List Clause}
    (h : RecordsItems catalog parent relation target items edges inputs clauses) :
    (clauses.filter Clause.addsEdge).Perm (edges ++ inputs.flatMap EdgeInput.edges) := by
  match h with
  | .nil => exact .nil
  | .create hnested hrest =>
      rw [List.filter_cons_of_pos rfl, List.filter_append, List.cons_append, List.flatMap_append]
      exact (((Records.partition hnested).append (RecordsItems.partition hrest)).trans
        (List.perm_append_comm_assoc _ _ _)).cons _
  | .connect hrest => exact (RecordsItems.partition hrest).cons _
  | .disconnect hrest =>
      rw [List.filter_cons_of_neg Bool.false_ne_true]
      exact RecordsItems.partition hrest

end

end

-- A node is never found by a relationship.
theorem KeyMatch.read_scalar {type : NodeType} {path : ParameterPath} {members : Json.Members}
    {keys : List (String × String)} {d d' : Draft}
    (h : read type path members d = .ok (keys, d')) :
    ∀ key ∈ keys.map Prod.fst, (type.field? key).bind Field.relation? = none := by
  obtain ⟨checked, hchecked, rfl, -, -⟩ := read_cases h
  intro key hkey
  simp only [List.map_map, List.mem_map, Function.comp_apply] at hkey
  obtain ⟨entry, hentry, rfl⟩ := hkey
  obtain ⟨field, scalar, hfield, hscalar⟩ := values_scalar hchecked entry hentry
  rw [hfield, Option.bind_some]
  unfold Field.scalar? at hscalar
  unfold Field.relation?
  cases hkind : field.kind with
  | relationship => simp [hkind] at hscalar
  | _ => rfl

namespace Mutation

variable {catalog : Catalog} {path : ParameterPath} {d d' : Draft}

-- Each node that is found by its keys is recorded by its clause.
theorem matchEach_records {operation : NestedOperation}
    {clause : String → List (String × String) → Clause} {parent base : String}
    {relation : Relation} {target : NodeType}
    (hclause : ∀ {members items edges clauses} name keys,
      RecordsItems catalog parent relation target items edges [] clauses →
      ∃ first, RecordsItems catalog parent relation target ((operation, members) :: items) first
        [] (clause name keys :: clauses))
    {index : Nat} {objects : List Json.Members} {clauses : List Clause}
    (h : matchEach operation clause base target path index objects d = .ok (clauses, d')) :
    ∃ edges, RecordsItems catalog parent relation target
      (objects.map fun object => (operation, object)) edges [] clauses := by
  induction objects generalizing index d clauses with
  | nil =>
      cases matchEach_nil_eq_ok.mp h
      exact ⟨[], .nil⟩
  | cons members rest ih =>
      obtain ⟨keys, more, e, -, hmore, rfl⟩ := matchEach_cons_cases h
      obtain ⟨edges, hedges⟩ := ih hmore
      exact hclause _ keys hedges

theorem operations_related {field : Field} {relation : Relation} {target : NodeType}
    {node : String} {level : Level} {members : List (String × Json)} {clauses : List Clause}
    (h : operations catalog field relation target node level path members d =
      .ok (clauses, d')) :
    ∀ m ∈ members, ∃ objects, relatedItems field m.2 = .ok objects := by
  induction members generalizing d clauses with
  | nil => simp
  | cons m rest ih =>
      obtain ⟨objects, -, more, e, hitems, -, hmore, -⟩ := operations_cons_cases h
      exact List.forall_mem_cons.mpr ⟨⟨objects, hitems⟩, ih hmore⟩

-- A field for one node holds one object in each operation.
theorem length_edgeItems {field : Field} (hlist : field.list = false)
    {members : List (String × Json)}
    (hrelated : ∀ m ∈ members, ∃ objects, relatedItems field m.2 = .ok objects) :
    ((NestedOperation.items members).filter fun item => item.1.addsEdge).length =
      (NestedOperation.edgeMembers members).length := by
  unfold NestedOperation.items NestedOperation.edgeMembers
  induction members with
  | nil => rfl
  | cons m rest ih =>
      obtain ⟨key, v⟩ := m
      obtain ⟨⟨objects, hobjects⟩, hrest⟩ := List.forall_mem_cons.mp hrelated
      obtain ⟨ms, rfl⟩ := (relatedItems_cases hobjects).2 hlist
      rw [List.flatMap_cons, List.filter_append, List.length_append, ih hrest, List.filter_cons]
      cases hkey : NestedOperation.ofName? key with
      | none => simp [hkey]
      | some operation =>
          cases operation <;>
            simp [hkey, Json.objects, NestedOperation.addsEdge, Nat.add_comm]

theorem bounded_of_records {field : Field} {relation : Relation} {target : NodeType}
    {node : String} {v : Json} {edges clauses : List Clause} {inner : List EdgeInput}
    (h : RecordsItems catalog node relation target (NestedOperation.inputItems target v) edges
      inner clauses)
    (hone : field.list = false → ∃ members, v = .obj members ∧
      (NestedOperation.areNamedBy members target = true →
        ∀ m ∈ members, ∃ objects, relatedItems field m.2 = .ok objects)) :
    EdgeInput.Bounded ⟨field, target, v, edges⟩ := by
  intro hlist
  obtain ⟨members, rfl, hrelated⟩ := hone hlist
  have hlength : edges.length = _ := h.length_edges
  rw [NestedOperation.inputItems] at hlength
  by_cases hnamed : NestedOperation.areNamedBy members target = true
  · rw [if_pos hnamed, length_edgeItems hlist (hrelated hnamed)] at hlength
    constructor
    · rintro hle ⟨_, hv, -, hseveral⟩
      cases hv
      simp only at hle
      omega
    · intro hnot
      by_contra hmore
      exact hnot ⟨members, rfl, hnamed, by simp only at hmore; omega⟩
  · rw [if_neg hnamed] at hlength
    have hnot : ¬ EdgeInput.NamesSeveral ⟨field, target, .obj members, edges⟩ := by
      rintro ⟨_, hv, hother, -⟩
      cases hv
      exact hnamed hother
    exact iff_of_true (Nat.le_of_eq hlength) hnot

-- One created node with what follows from its own members.
theorem createRelated_records {parent node : String} {relation : Relation} {target : NodeType}
    {members : Json.Members} {clause : Clause} {nested : List Clause} {inner : List EdgeInput}
    {e : Draft}
    (hclause : createRelated parent node relation target path members d = .ok (clause, e))
    (hnested : Records catalog target node members inner nested) :
    RecordsItems catalog parent relation target [(.create, members)] [clause] inner
      (clause :: nested) := by
  obtain ⟨written, -, rfl⟩ := createRelated_cases hclause
  simpa only [List.append_nil] using RecordsItems.create hnested .nil

mutual

-- The clauses below a node are those of the inputs in its data, and no input for one node adds
-- several edges unless several operations of it ask for them.
theorem relations_records {type : NodeType} {node : String} {level : Level} {skip : List String}
    (hskip : ∀ key ∈ skip, (type.field? key).bind Field.relation? = none) {path : ParameterPath}
    (members : List (String × Json)) {clauses : List Clause} {d d' : Draft}
    (h : relations catalog type node level path skip members d = .ok (clauses, d')) :
    ∃ inputs, Records catalog type node members inputs clauses ∧ ∀ e ∈ inputs, e.Bounded := by
  match members, h with
  | [], h =>
      cases relations_nil_eq_ok.mp h
      exact ⟨[], .nil, by simp⟩
  | (key, v) :: rest, h =>
      obtain ⟨here, more, e, hhere, hmore, rfl⟩ := relations_cons_cases h
      obtain ⟨inputs, hrest, hbounded⟩ := relations_records hskip rest hmore
      obtain ⟨rfl, -, hnone⟩ | ⟨field, relation, hfield, -, -, hrelation, hinput⟩ := hhere
      · have hother : v.isNull = true ∨ (type.field? key).bind Field.relation? = none := by
          obtain hskipped | hother := hnone
          · exact .inr (hskip key (List.contains_iff_mem.mp hskipped))
          · exact hother
        exact ⟨inputs, .other hother hrest, hbounded⟩
      · obtain ⟨target, edges, inner, htarget, hitems, hone, hinner⟩ :=
          relationInput_records v hinput
        refine ⟨_, .input hfield hrelation htarget hitems hrest, ?_⟩
        intro e he
        simp only [List.mem_cons, List.mem_append] at he
        obtain rfl | he | he := he
        · exact hone
        · exact hinner e he
        · exact hbounded e he
termination_by sizeOf members

theorem relationInput_records {field : Field} {relation : Relation} {node : String}
    {level : Level} {path : ParameterPath} (v : Json) {clauses : List Clause} {d d' : Draft}
    (h : relationInput catalog field relation node level path v d = .ok (clauses, d')) :
    ∃ target edges inner, catalog.type? relation.target = some target ∧
      RecordsItems catalog node relation target (NestedOperation.inputItems target v) edges inner
        clauses ∧
      EdgeInput.Bounded ⟨field, target, v, edges⟩ ∧ ∀ e ∈ inner, e.Bounded := by
  obtain ⟨target, htarget, houtcome⟩ := relationInput_cases h
  cases houtcome with
  | @operations members _ _ _ hnamed _ hclauses =>
      obtain ⟨edges, inner, hitems, hinner⟩ := operations_records _ hclauses
      have hinput : NestedOperation.inputItems target (.obj members) =
          NestedOperation.items members := if_pos hnamed
      rw [← hinput] at hitems
      exact ⟨target, edges, inner, htarget, hitems,
        bounded_of_records hitems fun _ => ⟨_, rfl, fun _ => operations_related hclauses⟩, hinner⟩
  | @created members _ _ _ _ _ hnamed _ hclause hmore =>
      obtain ⟨inner, hnested, hinner⟩ := relations_records (by simp) _ hmore
      have hitems := createRelated_records hclause hnested
      have hinput : NestedOperation.inputItems target (.obj members) = [(.create, members)] :=
        if_neg (by simp [hnamed])
      rw [← hinput] at hitems
      exact ⟨target, _, inner, htarget, hitems,
        bounded_of_records hitems fun _ => ⟨_, rfl, fun h => by simp [hnamed] at h⟩, hinner⟩
  | createdEach _ hobjects hclauses =>
      obtain ⟨edges, inner, hitems, hinner⟩ := createEach_records _ hclauses
      refine ⟨target, edges, inner, htarget, hitems, bounded_of_records hitems ?_, hinner⟩
      intro hlist
      obtain ⟨members, hother⟩ := (relatedItems_cases hobjects).2 hlist
      cases hother
termination_by sizeOf v

theorem operations_records {field : Field} {relation : Relation} {target : NodeType}
    {node : String} {level : Level} {path : ParameterPath} (members : List (String × Json))
    {clauses : List Clause} {d d' : Draft}
    (h : operations catalog field relation target node level path members d =
      .ok (clauses, d')) :
    ∃ edges inner,
      RecordsItems catalog node relation target (NestedOperation.items members) edges inner
        clauses ∧ ∀ e ∈ inner, e.Bounded := by
  match members, h with
  | [], h =>
      cases operations_nil_eq_ok.mp h
      exact ⟨[], [], .nil, by simp⟩
  | (key, v) :: rest, h =>
      obtain ⟨objects, here, more, e, hobjects, houtcome, hmore, rfl⟩ := operations_cons_cases h
      obtain ⟨edges, inner, hrest, hbounded⟩ := operations_records rest hmore
      obtain ⟨rfl, -⟩ := relatedItems_cases hobjects
      have hfirst : ∃ operation first below, NestedOperation.ofName? key = some operation ∧
          RecordsItems catalog node relation target
            (v.objects.map fun object => (operation, object)) first below here ∧
          ∀ e ∈ below, e.Bounded := by
        cases houtcome with
        | create hkey hclause hnested =>
            obtain ⟨below, hrecords, hbelow⟩ := relations_records (by simp) _ hnested
            exact ⟨.create, _, below, hkey, createRelated_records hclause hrecords, hbelow⟩
        | createEach hkey hclauses =>
            obtain ⟨first, below, hitems, hbelow⟩ := createEach_records _ hclauses
            exact ⟨.create, first, below, hkey, hitems, hbelow⟩
        | connect hkey hclauses =>
            rw [connectEach_eq] at hclauses
            obtain ⟨first, hitems⟩ :=
              matchEach_records (fun _ _ hrest => ⟨_, .connect hrest⟩) hclauses
            exact ⟨.connect, first, [], hkey, hitems, by simp⟩
        | disconnect hkey _ hclauses =>
            rw [disconnectEach_eq] at hclauses
            obtain ⟨first, hitems⟩ :=
              matchEach_records (fun _ _ hrest => ⟨_, .disconnect hrest⟩) hclauses
            exact ⟨.disconnect, first, [], hkey, hitems, by simp⟩
      obtain ⟨operation, first, below, hkey, hitems, hbelow⟩ := hfirst
      rw [NestedOperation.items_cons hkey]
      exact ⟨first ++ edges, below ++ inner, hitems.append hrest,
        List.forall_mem_append.mpr ⟨hbelow, hbounded⟩⟩
termination_by sizeOf members

theorem createEach_records {relation : Relation} {target : NodeType}
    {parent base key : String} {path : ParameterPath} {index : Nat} (items : List Json)
    {clauses : List Clause} {d d' : Draft}
    (h : createEach catalog relation target parent base key path index items d =
      .ok (clauses, d')) :
    ∃ edges inner,
      RecordsItems catalog parent relation target
        ((Json.arr items).objects.map fun object => (.create, object)) edges inner clauses ∧
      ∀ e ∈ inner, e.Bounded := by
  match items, h with
  | [], h =>
      cases createEach_nil_eq_ok.mp h
      exact ⟨[], [], .nil, by simp⟩
  | item :: rest, h =>
      obtain ⟨hobject, hrest⟩ | ⟨members, clause, nested, more, e, f, rfl, hclause, hnested,
        hmore, rfl⟩ := createEach_cons_cases h
      · have hskip : item.asObject? = none := by
          cases item with
          | obj members => cases hobject
          | _ => rfl
        rw [Json.objects, List.filterMap_cons_none hskip]
        exact createEach_records rest hrest
      · obtain ⟨below, hrecords, hbelow⟩ := relations_records (by simp) members hnested
        obtain ⟨edges, inner, hitems, hbounded⟩ := createEach_records rest hmore
        exact ⟨_, _, (createRelated_records hclause hrecords).append hitems,
          List.forall_mem_append.mpr ⟨hbelow, hbounded⟩⟩
termination_by sizeOf items

end

end Mutation

namespace Request

variable {r : Request} {catalog : Catalog} {config : Config} {type : NodeType}

-- Each edge that a mutation adds is asked for by one relationship input of its data. An input for
-- one node asks for one edge at most, unless it names several operations that add one.
theorem compile_recordsEdges
    (hoperation : r.operation = .create ∨ r.operation = .update ∨ r.operation = .merge)
    (htype : r.rootType catalog config = .ok type) {plan : StatementPlan}
    (h : r.compile catalog config = .ok plan) :
    ∃ data first related items inputs,
      r.field.argument? Argument.data = some (.obj data) ∧
      plan.statement =
        .write (first ++ related) (Alias.root type.name) items r.field.responseKey ∧
      Records catalog type (Alias.root type.name) data inputs related ∧
      ((first ++ related).filter Clause.addsEdge).Perm (inputs.flatMap EdgeInput.edges) ∧
      ∀ e ∈ inputs, e.field.list = false → (e.edges.length ≤ 1 ↔ ¬ e.NamesSeveral) := by
  obtain ⟨root, d, hroot, -, hstatement, -⟩ := compile_cases h
  obtain rfl : type = root := Except.ok.inj (htype.symm.trans hroot)
  obtain ⟨hquery, -⟩ | ⟨hcount, -⟩ | hmutation := statement_cases hstatement
  · simp [hquery] at hoperation
  · simp [hcount] at hoperation
  · have houtcome := Mutation.statement_cases hmutation
    generalize plan.statement = statement at houtcome
    generalize r.operation = operation at houtcome hoperation
    cases houtcome with
    | @create data written related items _ e f _ hdata hwritten hrelated hitems =>
        obtain ⟨inputs, hrecords, hbounded⟩ := Mutation.relations_records (by simp) data hrelated
        exact ⟨data, [_], related, items, inputs, hdata, rfl, hrecords, hrecords.partition,
          hbounded⟩
    | @change _ keys data skip written related items found _ _ _ _ _ hkind hkeys hdata _ hrelated =>
        have hskip : ∀ key ∈ skip, (type.field? key).bind Field.relation? = none := by
          obtain ⟨-, rfl, -⟩ | ⟨-, rfl, -⟩ := hkind
          · simp
          · exact KeyMatch.read_scalar hkeys
        obtain ⟨inputs, hrecords, hbounded⟩ := Mutation.relations_records hskip data hrelated
        refine ⟨data, _, related, items, inputs, hdata, rfl, hrecords, ?_, hbounded⟩
        -- the node is found or merged and its properties are set before any edge is added
        have hfirst : (found :: if written.isEmpty then [] else
            [Clause.set (Alias.root type.name) written]).filter Clause.addsEdge = [] := by
          obtain ⟨-, -, rfl⟩ | ⟨-, -, rfl⟩ := hkind <;> split <;> rfl
        rw [List.filter_append, hfirst]
        exact hrecords.partition
    | delete => simp at hoperation

-- A movie that is created with its director.
def directedCreateRequest (director : Json) : Request :=
  ⟨.create,
    ⟨"createMovie", none, [("data", .obj [("title", .str "Up"), ("director", director)])],
      [⟨"title", none, [], []⟩]⟩,
    some "Movie", [], ⟨[]⟩⟩

def newDirector : Json := .obj [("name", .str "Ann")]

-- One director is to be created, another one to be connected.
def twoDirectors : Json :=
  .obj [("create", .obj [("name", .str "Ann")]), ("connect", .obj [("name", .str "Bob")])]

-- The clauses for the two ways of giving the movie a director.
def createdDirector (node parameter : String) : Clause :=
  .createRelated "movie" ⟨"DIRECTED", .into, "Person"⟩
    ⟨node, ["Person"], [("name", .parameter parameter)]⟩

def connectedDirector (node parameter : String) : Clause :=
  .connect "movie" ⟨"DIRECTED", .into, "Person"⟩ ⟨node, ["Person"], [("name", parameter)]⟩

theorem compile_recordsEdges_newDirector :
    ∃ plan related inputs,
      (directedCreateRequest newDirector).compile directedMovies .default = .ok plan ∧
      Records directedMovies directedMovieType "movie"
        [("title", .str "Up"), ("director", newDirector)] inputs related ∧
      inputs.flatMap EdgeInput.edges =
        [createdDirector "movie_director" "data_director_name"] ∧
      ∀ e ∈ inputs, e.field.list = false → ¬ e.NamesSeveral := by
  obtain ⟨plan, node, shown, hplan, hwritten, hnode⟩ : ∃ plan node shown,
      (directedCreateRequest newDirector).compile directedMovies .default = .ok plan ∧
      plan.statement = .write [node, createdDirector "movie_director" "data_director_name"]
        "movie" shown "createMovie" ∧ node.addsEdge = false := ⟨_, _, _, rfl, rfl, rfl⟩
  obtain ⟨data, first, related, items, inputs, hdata, hstatement, hrecords, hedges, hbounded⟩ :=
    compile_recordsEdges (.inl rfl) rfl hplan
  cases hdata
  have hclauses := (Statement.write.inj (hwritten.symm.trans hstatement)).1
  rw [← hclauses, List.filter_cons_of_neg (by simp [hnode])] at hedges
  have hone : inputs.flatMap EdgeInput.edges = _ := List.perm_singleton.mp hedges.symm
  refine ⟨plan, related, inputs, hplan, hrecords, hone, ?_⟩
  intro e he hlist
  have hmem := List.mem_map_of_mem (f := EdgeInput.edges) he
  have hle := (List.sublist_flatten_of_mem hmem).length_le
  rw [← List.flatMap_def, hone] at hle
  exact (hbounded e he hlist).mp hle

-- Both directors are taken for a field for one node.
theorem compile_adds_twoDirectors :
    ∃ plan node items,
      (directedCreateRequest twoDirectors).compile directedMovies .default = .ok plan ∧
      plan.statement = .write
        [node, createdDirector "movie_director_create_0" "data_director_create_0_name",
          connectedDirector "movie_director_connect_0" "data_director_connect_0_name"]
        "movie" items "createMovie" ∧
      directorField.list = false ∧
      Records directedMovies directedMovieType "movie"
        [("title", .str "Up"), ("director", twoDirectors)]
        [⟨directorField, personType, twoDirectors,
          [createdDirector "movie_director_create_0" "data_director_create_0_name",
            connectedDirector "movie_director_connect_0" "data_director_connect_0_name"]⟩]
        [createdDirector "movie_director_create_0" "data_director_create_0_name",
          connectedDirector "movie_director_connect_0" "data_director_connect_0_name"] := by
  refine ⟨_, _, _, rfl, rfl, rfl, .other (.inr rfl) ?_⟩
  have hitems : RecordsItems directedMovies "movie" ⟨"DIRECTED", .into, "Person"⟩ personType
      (NestedOperation.inputItems personType twoDirectors)
      [createdDirector "movie_director_create_0" "data_director_create_0_name",
        connectedDirector "movie_director_connect_0" "data_director_connect_0_name"] []
      [createdDirector "movie_director_create_0" "data_director_create_0_name",
        connectedDirector "movie_director_connect_0" "data_director_connect_0_name"] :=
    .create (.other (.inr rfl) .nil) (.connect .nil)
  exact .input rfl rfl rfl hitems .nil

end Request

end CypherCompiler
