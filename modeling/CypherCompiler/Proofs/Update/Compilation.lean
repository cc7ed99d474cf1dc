import CypherCompiler.Proofs.Cypher.Wording
import CypherCompiler.Proofs.Handover.Mutation
import CypherCompiler.Proofs.Text.PlainNames

namespace CypherCompiler

open Cypher Parameters CreatedObject

-- An object whose keys name operations on the nodes of a type, and no field of theirs.
def Json.NamesOperations (v : Json) (target : NodeType) : Prop :=
  ∃ members, v = .obj members ∧ members ≠ [] ∧
    ∀ m ∈ members, m.1 ∈ ["create", "connect", "disconnect"] ∧ target.field? m.1 = none

namespace Mutation

variable {catalog : Catalog} {type : NodeType} {path : ParameterPath} {skip : List String}
  {members : Json.Members} {d d' : Draft}

theorem namesOperations_of_areNamedBy {target : NodeType}
    (h : NestedOperation.areNamedBy members target = true) :
    (Json.obj members).NamesOperations target := by
  obtain ⟨hmembers, hall⟩ := Bool.and_eq_true_iff.mp h
  refine ⟨members, rfl, by simpa using hmembers, fun m hm => ?_⟩
  obtain ⟨hoperation, hfield⟩ := Bool.and_eq_true_iff.mp (List.all_eq_true.mp hall m hm)
  obtain ⟨operation, hoperation⟩ := Option.isSome_iff_exists.mp hoperation
  refine ⟨?_, by simpa using hfield⟩
  rw [NestedOperation.eq_name_of_ofName? hoperation]
  cases operation <;> decide

-- The members of the data that are assigned: those that name stored properties.
def assigned (type : NodeType) (skip : List String) (data : Json.Members) : Json.Members :=
  (unskipped skip data).filter fun m => (type.field? m.1).any Field.isProperty

theorem not_mem_skip_of_assigned {data : Json.Members} {m : String × Json}
    (hm : m ∈ assigned type skip data) : m.1 ∉ skip := by
  have hlooked := (List.mem_filter.mp (List.mem_filter.mp hm).1).2
  simpa using hlooked

-- Each member that is looked at is a stored property or a relationship.
theorem properties_fields {written : List (String × Written)}
    (h : properties type path skip members d = .ok (written, d')) :
    ∀ m ∈ unskipped skip members, ∃ field, type.field? m.1 = some field ∧
      (field.isProperty = true ∧ field.relation? = none ∨
        field.isProperty = false ∧ ∃ relation, field.relation? = some relation) := by
  induction members generalizing d written with
  | nil => simp [unskipped]
  | cons m rest ih =>
      obtain ⟨key, v⟩ := m
      obtain ⟨hskip, hrest⟩ | ⟨hskip, p, more, e, hp, hmore, -⟩ := properties_cons_cases h
      · rw [unskipped_cons, if_pos hskip]
        exact ih hrest
      · rw [unskipped_cons, if_neg (by rw [hskip]; simp), List.forall_mem_cons]
        refine ⟨?_, ih hmore⟩
        obtain ⟨field, hfield, ⟨relation, hkind, -⟩ | ⟨scalar, hkind, -⟩ | ⟨compound, hkind, -⟩⟩ :=
          property?_cases hp
        · exact ⟨field, hfield, .inr
            ⟨by simp [Field.isProperty, hkind], relation, by simp [Field.relation?, hkind]⟩⟩
        · exact ⟨field, hfield, .inl
            ⟨by simp [Field.isProperty, hkind], by simp [Field.relation?, hkind]⟩⟩
        · exact ⟨field, hfield, .inl
            ⟨by simp [Field.isProperty, hkind], by simp [Field.relation?, hkind]⟩⟩

theorem stored_unskipped {written : List (String × Written)}
    (h : properties type path skip members d = .ok (written, d')) :
    stored type (unskipped skip members) = assigned type skip members := by
  refine List.filter_congr fun m hm => ?_
  obtain ⟨field, hfield, ⟨hstored, hrelation⟩ | ⟨hstored, relation, hrelation⟩⟩ :=
    properties_fields h m hm
  · simp [hfield, hstored, hrelation]
  · simp [hfield, hstored, hrelation]

-- When a node is changed, its relationships hold operations.
theorem relations_namesOperations {node : String} {clauses : List Clause}
    (h : relations catalog type node .changed path skip members d = .ok (clauses, d')) :
    ∀ m ∈ unskipped skip members, m.2.isNull = false →
      ∀ relation, (type.field? m.1).bind Field.relation? = some relation →
        ∃ target, catalog.type? relation.target = some target ∧ m.2.NamesOperations target := by
  induction members generalizing d clauses with
  | nil => simp [unskipped]
  | cons m rest ih =>
      obtain ⟨key, v⟩ := m
      obtain ⟨here, more, e, hhere, hmore, -⟩ := relations_cons_cases h
      rw [unskipped_cons]
      split
      · exact ih hmore
      · rename_i hskip
        rw [List.forall_mem_cons]
        refine ⟨fun hnull relation hrelation => ?_, ih hmore⟩
        obtain ⟨-, -, hnone⟩ | ⟨field, found, hfield, -, -, hfound, hinput⟩ := hhere
        · obtain hother | hother | hother := hnone
          · exact (hskip hother).elim
          · cases hother.symm.trans hnull
          · cases hother.symm.trans hrelation
        · rw [hfield, Option.bind_some, hfound, Option.some.injEq] at hrelation
          subst hrelation
          obtain ⟨target, htarget, houtcome⟩ := relationInput_cases hinput
          refine ⟨target, htarget, ?_⟩
          cases houtcome with
          | operations hnamed => exact namesOperations_of_areNamedBy hnamed
          | created _ hlevel => cases hlevel
          | createdEach hlevel => cases hlevel

-- A change of a node that assigns the given members and no others, with a parameter for each.
structure WritesGiven (catalog : Catalog) (type : NodeType) (skip : List String)
    (data : Json.Members) (written : List (String × Written)) (parameters : Parameters) :
    Prop where
  assigns : written =
    (assigned type skip data).map fun m => (m.1, writtenMember type dataPath m.1)
  once : (written.map Prod.fst).Nodup
  own : ((assigned type skip data).map fun m => parameterName dataPath m.1).Nodup
  given : ∀ m ∈ assigned type skip data,
    parameters.get? (parameterName dataPath m.1) = some (suppliedValue type m.1 m.2)
  others : ∀ m ∈ data, m.1 ∉ skip → m.2.isNull = false → m ∉ assigned type skip data →
    ∃ field relation target, type.field? m.1 = some field ∧ field.relation? = some relation ∧
      catalog.type? relation.target = some target ∧ m.2.NamesOperations target

theorem change_writesGiven {setting : Setting} {node : String} {s : Selection} {c e f : Draft}
    {written : List (String × Written)} {related : List Clause} {items : List Item}
    (hwritten : properties type dataPath skip members c = .ok (written, e))
    (hrelated : relations setting.catalog type node .changed dataPath skip members e =
      .ok (related, f))
    (hitems : result setting type node s f = .ok (items, d')) :
    WritesGiven setting.catalog type skip members written d'.parameters := by
  have hstored := stored_unskipped hwritten
  have hfields := properties_fields hwritten
  obtain ⟨rfl, hsupplied⟩ := properties_writes hwritten
  rw [suppliedMembers, hstored] at hsupplied
  have hown := hsupplied.nodup
  rw [List.map_map] at hown
  have hheld := (Holds.of_supplies hsupplied).mono
    ((relations_supplies _ hrelated).then_any (result_supplies hitems)).toExtends
  refine ⟨?_, ?_, hown, ?_, ?_⟩
  · rw [writtenMembers, hstored]
  · rw [writtenMembers, hstored, List.map_map]
    refine List.Nodup.of_map (parameterName dataPath) ?_
    rw [List.map_map]
    exact hown
  · intro m hm
    exact hheld _ _ (List.mem_map_of_mem hm)
  · intro m hm hskip hnull hother
    have hlooked : m ∈ unskipped skip members := List.mem_filter.mpr ⟨hm, by simpa using hskip⟩
    obtain ⟨field, hfield, ⟨hproperty, -⟩ | ⟨-, relation, hrelation⟩⟩ := hfields m hlooked
    · have hassigned : m ∈ assigned type skip members :=
        List.mem_filter.mpr ⟨hlooked, by simp [hfield, hproperty]⟩
      exact (hother hassigned).elim
    · obtain ⟨target, htarget, hoperations⟩ := relations_namesOperations hrelated m hlooked hnull
        relation (by rw [hfield, Option.bind_some, hrelation])
      exact ⟨field, relation, target, hfield, hrelation, htarget, hoperations⟩

end Mutation

namespace Request

variable {r : Request} {catalog : Catalog} {config : Config} {type : NodeType}

-- An update assigns the given properties, and a merge those of them that it does not match on.
-- Nothing else is assigned, and nothing that was given is lost. The text is that of the node looked
-- for, of the assignment unless it is empty, of the related nodes and of what is returned.
theorem compile_writesGiven (hoperation : r.operation = .update ∨ r.operation = .merge)
    (htype : r.rootType catalog config = .ok type) {plan : StatementPlan}
    (h : r.compile catalog config = .ok plan) :
    ∃ (keys data : Json.Members) (skip : List String) (written : List (String × Written))
      (related : List Clause) (items : List Item),
      r.field.argument? Argument.key = some (.obj keys) ∧
      r.field.argument? Argument.data = some (.obj data) ∧
      skip = (if r.operation = .merge then keys.keys else []) ∧
      plan.statement = .write
        ((if r.operation = .merge then Clause.merge else Clause.find)
            ⟨Alias.root type.name, type.labels, KeyMatch.bound Mutation.keyPath keys⟩ ::
          (if Mutation.assigned type skip data = [] then []
            else [.set (Alias.root type.name) written]) ++ related)
        (Alias.root type.name) items r.field.responseKey ∧
      plan.text = String.intercalate " "
        (((if r.operation = .merge then "MERGE " else "MATCH ") ++ Wording.matched
            ⟨Alias.root type.name, type.labels, KeyMatch.bound Mutation.keyPath keys⟩) ::
          (if Mutation.assigned type skip data = [] then []
            else ["SET " ++ quoteIdentifier (Alias.root type.name) ++ " += " ++
              Wording.assigned written]) ++
          related.map Wording.clause ++
          [Wording.result (Alias.root type.name) (Item.renderAll items) r.field.responseKey]) ∧
      (∀ node properties, Clause.set node properties ∉ related) ∧
      Mutation.WritesGiven catalog type skip data written plan.parameters ∧
      (r.operation = .merge → ∀ key ∈ written.map Prod.fst,
        key ∉ (KeyMatch.bound Mutation.keyPath keys).map Prod.fst) := by
  obtain ⟨found, d, hfound, -, hstatement, hparameters⟩ := compile_cases h
  obtain rfl : found = type := Except.ok.inj (hfound.symm.trans htype)
  have hchange : Mutation.statement ⟨catalog, config.strictArguments, r.cypherParams⟩ found
      r.operation r.field r.initialDraft = .ok (plan.statement, d) := by
    obtain ⟨hquery, -⟩ | ⟨hcount, -⟩ | hmutation := statement_cases hstatement
    · simp [hquery] at hoperation
    · simp [hcount] at hoperation
    · exact hmutation
  have houtcome := Mutation.statement_cases hchange
  have htext : plan.text = String.intercalate " " (Wording.lines plan.statement) :=
    plan.statement.render_eq
  rw [hparameters, htext]
  generalize plan.statement = statement at houtcome ⊢
  generalize r.operation = operation at houtcome hoperation ⊢
  cases houtcome with
  | create | delete => simp at hoperation
  | @change _ bound data skip written related items _ _ c e f _ hchanged hkeys hdata hwritten
      hrelated hitems =>
      obtain ⟨⟨keys, hidentified⟩, rfl, -⟩ := KeySite.read_emits
        ⟨found, Mutation.keyPath, r.field.argument? Argument.key⟩ hkeys
      rw [KeySite.members_eq hidentified] at hchanged
      have hargument : r.field.argument? Argument.key = some (.obj keys) := hidentified.1
      have hboundKeys := KeyMatch.bound_keys Mutation.keyPath keys
      have hwrites := Mutation.change_writesGiven hwritten hrelated hitems
      have hempty : written.isEmpty = true ↔ Mutation.assigned found skip data = [] := by
        rw [hwrites.assigns, List.isEmpty_iff, List.map_eq_nil_iff]
      have hset : (if written.isEmpty then [] else [Clause.set (Alias.root found.name) written]) =
          if Mutation.assigned found skip data = [] then []
            else [Clause.set (Alias.root found.name) written] := by
        simp only [hempty]
      have hnone := (Mutation.relations_handsOver _ hrelated (.refl f.parameters)).related
      have hsetText : (if Mutation.assigned found skip data = [] then []
          else [Clause.set (Alias.root found.name) written]).map Wording.clause =
          if Mutation.assigned found skip data = [] then []
            else ["SET " ++ quoteIdentifier (Alias.root found.name) ++ " += " ++
              Wording.assigned written] := by
        split <;> rfl
      rw [hset, Wording.lines, List.map_append, List.map_cons, hsetText]
      obtain ⟨rfl, rfl, rfl⟩ | ⟨rfl, rfl, rfl⟩ := hchanged
      · exact ⟨keys, data, [], written, related, items, hargument, hdata, rfl, rfl, rfl, hnone,
          hwrites, by simp⟩
      · refine ⟨keys, data, keys.keys, written, related, items, hargument, hdata, rfl, ?_, ?_,
          hnone, hboundKeys ▸ hwrites, fun _ key hkey hmatched => ?_⟩
        · simp only [hboundKeys, if_true]
        · simp only [hboundKeys, if_true]
          rfl
        · rw [hwrites.assigns, List.map_map] at hkey
          obtain ⟨m, hm, rfl⟩ := List.mem_map.mp hkey
          exact Mutation.not_mem_skip_of_assigned hm hmatched

-- A movie that is looked for by its title, with the title once more among its data.
def releaseRequest (more : Json.Members) : Request :=
  ⟨.merge,
    ⟨"mergeMovie", none,
      [("where", .obj [("title", .str "Up")]), ("data", .obj (("title", .str "Up") :: more))],
      [⟨"title", none, [], []⟩]⟩,
    some "Movie", [], ⟨[]⟩⟩

-- Only its year is assigned, and nothing when there is no year.
theorem compile_writesGiven_mergedMovie :
    (∃ plan related items,
      (releaseRequest [("released", .ofInt 2009),
        ("actors", .obj [("connect", .obj [("name", .str "Ann")])])]).compile movies .default =
          .ok plan ∧
      plan.statement = .write (.merge ⟨"movie", ["Movie"], [("title", "where_title")]⟩ ::
        .set "movie" [("released", .parameter "data_released")] :: related) "movie" items
          "mergeMovie" ∧
      plan.text = "MERGE (`movie`:`Movie` \x7btitle: $where_title\x7d) " ++
        "SET `movie` += \x7breleased: $data_released\x7d " ++
        "CALL \x7b WITH `movie` MATCH (`movie_actors_connect_0`:`Person` " ++
          "\x7bname: $data_actors_connect_0_name\x7d) " ++
          "MERGE (`movie`)<-[:`ACTED_IN`]-(`movie_actors_connect_0`) \x7d " ++
        "RETURN `movie` \x7b.title\x7d AS `mergeMovie`" ∧
      plan.parameters.get? "data_released" = some (.ofInt 2009)) ∧
    ∃ plan related items, (releaseRequest []).compile movies .default = .ok plan ∧
      plan.statement = .write (.merge ⟨"movie", ["Movie"], [("title", "where_title")]⟩ :: related)
        "movie" items "mergeMovie" ∧
      plan.text = "MERGE (`movie`:`Movie` \x7btitle: $where_title\x7d) " ++
        "RETURN `movie` \x7b.title\x7d AS `mergeMovie`" ∧
      ∀ node properties, Clause.set node properties ∉ related := by
  have htype (more : Json.Members) :
      (releaseRequest more).rootType movies .default = .ok movieType := rfl
  refine ⟨?_, ?_⟩
  · obtain ⟨plan, hplan⟩ : ∃ plan, (releaseRequest [("released", .ofInt 2009),
        ("actors", .obj [("connect", .obj [("name", .str "Ann")])])]).compile movies .default =
          .ok plan := ⟨_, rfl⟩
    obtain ⟨keys, data, skip, written, related, items, hkeys, hdata, rfl, hstatement, htext, -,
      hwrites, -⟩ := compile_writesGiven (.inr rfl) (htype _) hplan
    cases hkeys
    cases hdata
    obtain rfl := hwrites.assigns
    refine ⟨plan, related, items, hplan, hstatement, ?_, hwrites.given _ (.head _)⟩
    rw [htext]
    cases hplan
    cases hstatement
    decide +kernel
  · obtain ⟨plan, hplan⟩ : ∃ plan, (releaseRequest []).compile movies .default = .ok plan :=
      ⟨_, rfl⟩
    obtain ⟨keys, data, skip, written, related, items, hkeys, hdata, rfl, hstatement, htext,
      hnone, hwrites, -⟩ := compile_writesGiven (.inr rfl) (htype _) hplan
    cases hkeys
    cases hdata
    obtain rfl := hwrites.assigns
    refine ⟨plan, related, items, hplan, hstatement, ?_, hnone⟩
    rw [htext]
    cases hplan
    cases hstatement
    decide +kernel

end Request

end CypherCompiler
