import CypherCompiler.Proofs.Handover.Projection
import CypherCompiler.Proofs.Identity.Sites

namespace CypherCompiler

open Cypher CreatedObject

-- A property of the type `ID` is handed over as text.
theorem CreatedObject.suppliedValue_id {catalog : Catalog} {type : NodeType}
    (htype : type ∈ catalog.types) {key : String} (v : Json)
    (hid : (Subject.property type.name key).IsId catalog) :
    suppliedValue type key v = Scalar.id.normalize v := by
  obtain ⟨found, field, hfound, hfield, hkind⟩ := hid
  obtain rfl := Option.some.inj ((Catalog.type?_eq_some_of_mem htype).symm.trans hfound)
  rw [suppliedValue, hfield, Option.bind_some, Field.scalar?, hkind]

theorem CreatedObject.parameterName_writtenMember (type : NodeType) (path : ParameterPath)
    (key : String) : (writtenMember type path key).parameterName = parameterName path key := by
  unfold writtenMember
  split
  · split
    · rfl
    · split <;> rfl
  · rfl

namespace Mutation

variable {catalog : Catalog} {type target : NodeType} {path : ParameterPath} {scope : Scope}
  {ps : Parameters}

section

-- The properties of a node, each with the parameter that its key has below the path.
theorem propertyUses_handsOver (htype : type ∈ catalog.types) (purpose : Purpose)
    {members : Json.Members}
    (hheld : ps.Holds (members.map fun m =>
      (parameterName path m.1, suppliedValue type m.1 m.2))) :
    List.Forall₂ (HandedOver catalog ps)
      (members.map fun m => ⟨.property type.name m.1, purpose, m.2⟩)
      (propertyUses (some type.name) purpose
        (members.map fun m => (m.1, parameterName path m.1))) := by
  rw [propertyUses, List.map_map, List.forall₂_map_left_iff, List.forall₂_map_right_iff,
    List.forall₂_same]
  intro m hm
  refine ⟨rfl, rfl, fun hid => ?_⟩
  rw [← suppliedValue_id htype m.2 hid]
  exact hheld _ _ (List.mem_map_of_mem hm)

theorem matched_handsOver (htype : type ∈ catalog.types) {members : Json.Members}
    (hheld : ps.Holds (KeyMatch.hoisted type path members)) :
    List.Forall₂ (HandedOver catalog ps) (GivenValue.matched type members)
      (propertyUses (some type.name) .matched (KeyMatch.bound path members)) :=
  propertyUses_handsOver htype .matched hheld

theorem written_handsOver (htype : type ∈ catalog.types) {members : Json.Members}
    (hheld : ps.Holds (suppliedMembers type path members)) :
    List.Forall₂ (HandedOver catalog ps) (GivenValue.written type members)
      (writtenUses (some type.name) (writtenMembers type path members)) := by
  have hnames : (writtenMembers type path members).map (fun p => (p.1, p.2.parameterName)) =
      (stored type members).map fun m => (m.1, parameterName path m.1) := by
    simp only [writtenMembers, List.map_map, Function.comp_def, parameterName_writtenMember]
  rw [writtenUses, hnames]
  exact propertyUses_handsOver htype .written hheld

end

-- Clauses for related nodes that use the given values one by one, and set nothing.
structure HandsOver (catalog : Catalog) (ps : Parameters) (given : List GivenValue)
    (clauses : List Clause) : Prop where
  uses : ∀ scope, List.Forall₂ (HandedOver catalog ps) given (clauses.flatMap (Clause.uses scope))
  related : ∀ node properties, Clause.set node properties ∉ clauses

namespace HandsOver

variable {given more : List GivenValue} {clauses others : List Clause} {clause : Clause}

theorem nothing (catalog : Catalog) (ps : Parameters) : HandsOver catalog ps [] [] :=
  ⟨fun _ => .nil, by simp⟩

theorem append (h : HandsOver catalog ps given clauses) (k : HandsOver catalog ps more others) :
    HandsOver catalog ps (given ++ more) (clauses ++ others) := by
  refine ⟨fun scope => ?_, fun node properties => ?_⟩
  · rw [List.flatMap_append]
    exact List.rel_append (h.uses scope) (k.uses scope)
  · rw [List.mem_append, not_or]
    exact ⟨h.related node properties, k.related node properties⟩

theorem cons (h : ∀ scope, List.Forall₂ (HandedOver catalog ps) given (clause.uses scope))
    (hset : ∀ node properties, clause ≠ .set node properties)
    (k : HandsOver catalog ps more others) :
    HandsOver catalog ps (given ++ more) (clause :: others) := by
  refine ⟨fun scope => ?_, fun node properties hmem => ?_⟩
  · rw [List.flatMap_cons]
    exact List.rel_append (h scope) (k.uses scope)
  · obtain heq | hmem := List.mem_cons.mp hmem
    · exact hset node properties heq.symm
    · exact k.related node properties hmem

end HandsOver

section

variable {final : Parameters} {relation : Relation} {parent base : String} {index : Nat}
  {d d' : Draft}

theorem read_handsOver (htarget : target ∈ catalog.types) {members : Json.Members}
    {keys : List (String × String)}
    (h : KeyMatch.read target path members d = .ok (keys, d'))
    (hfinal : d'.parameters.Extends final) :
    List.Forall₂ (HandedOver catalog final) (GivenValue.matched target members)
      (propertyUses (some target.name) .matched keys) := by
  obtain ⟨-, rfl, hsupplied⟩ := KeySite.read_emits ⟨target, path, some (.obj members)⟩ h
  exact matched_handsOver htarget ((Parameters.Holds.of_supplies hsupplied).mono hfinal)

-- A node that is created holds what its object stores.
theorem createRelated_handsOver (htarget : target ∈ catalog.types) {node : String}
    {members : Json.Members} {clause : Clause}
    (h : createRelated parent node relation target path members d = .ok (clause, d'))
    (hfinal : d'.parameters.Extends final) {given : List GivenValue} {more : List Clause}
    (hbelow : HandsOver catalog final given more) :
    HandsOver catalog final (GivenValue.written target members ++ given) (clause :: more) := by
  obtain ⟨written, hwritten, rfl⟩ := createRelated_cases h
  obtain ⟨rfl, hsupplied⟩ := properties_creates hwritten
  have hheld := (Parameters.Holds.of_supplies hsupplied).mono hfinal
  exact .cons (fun _ => written_handsOver htarget hheld) (by simp) hbelow

-- Each clause matches on the keys of its own node.
theorem matchEach_handsOver (htarget : target ∈ catalog.types) {operation : NestedOperation}
    {clause : String → List (String × String) → Clause}
    (huses : ∀ name keys scope,
      (clause name keys).uses scope = propertyUses (some target.name) .matched keys)
    (hset : ∀ name keys node properties, clause name keys ≠ .set node properties)
    {objects : List Json.Members} {clauses : List Clause}
    (h : matchEach operation clause base target path index objects d = .ok (clauses, d'))
    (hfinal : d'.parameters.Extends final) :
    HandsOver catalog final (objects.flatMap (GivenValue.matched target)) clauses := by
  induction objects generalizing index d clauses with
  | nil =>
      cases matchEach_nil_eq_ok.mp h
      exact .nothing _ _
  | cons members rest ih =>
      obtain ⟨keys, more, e, hkeys, hmore, rfl⟩ := matchEach_cons_cases h
      have hread := read_handsOver htarget hkeys ((matchEach_supplies hmore).toExtends.trans hfinal)
      exact .cons (fun scope => (huses _ keys scope).symm ▸ hread) (hset _ keys) (ih hmore)

end

-- Nothing is skipped below the root.
theorem unskipped_nil (members : Json.Members) : unskipped [] members = members := by
  simp [unskipped]

mutual

theorem relations_handsOver {type : NodeType} {node : String} {level : Level}
    {path : ParameterPath} {skip : List String} (members : List (String × Json))
    {clauses : List Clause} {d d' : Draft} {final : Parameters}
    (h : relations catalog type node level path skip members d = .ok (clauses, d'))
    (hfinal : d'.parameters.Extends final) :
    HandsOver catalog final (GivenValue.ofRelated catalog type (unskipped skip members))
      clauses := by
  match members, h with
  | [], h =>
      cases relations_nil_eq_ok.mp h
      simp only [unskipped, List.filter_nil, GivenValue.ofRelated]
      exact .nothing _ _
  | (key, v) :: rest, h =>
      obtain ⟨here, more, e, hhere, hmore, rfl⟩ := relations_cons_cases h
      have hrest := relations_handsOver rest hmore hfinal
      have hkeeps := (relations_supplies rest hmore).toExtends
      rw [unskipped_cons]
      by_cases hskip : skip.contains key = true
      · obtain ⟨rfl, -⟩ | ⟨_, _, -, hread, -⟩ := hhere
        · rw [if_pos hskip]
          exact hrest
        · cases hread.symm.trans hskip
      · rw [if_neg hskip, GivenValue.ofRelated]
        refine .append ?_ hrest
        obtain ⟨rfl, -, hnone⟩ | ⟨field, relation, hfield, -, -, hrelation, hinput⟩ := hhere
        · -- null is given for no node, and a property for none below the own one
          obtain hother | hnull | hproperty := hnone
          · exact (hskip hother).elim
          · cases v with
            | null =>
                split
                · rw [GivenValue.ofInput]
                  · exact .nothing _ _
                  all_goals simp
                · exact .nothing _ _
            | _ => cases hnull
          · have hnone : related? catalog type key = none := by simp [related?, hproperty]
            rw [hnone]
            exact .nothing _ _
        · obtain ⟨target, htarget, hhanded⟩ :=
            relationInput_handsOver v hinput (hkeeps.trans hfinal)
          have hrelated : related? catalog type key = some (relation, target) := by
            simp [related?, hfield, hrelation, htarget]
          rw [hrelated]
          exact hhanded
termination_by sizeOf members

theorem relationInput_handsOver {field : Field} {relation : Relation} {node : String}
    {level : Level} {path : ParameterPath} (v : Json) {clauses : List Clause} {d d' : Draft}
    {final : Parameters}
    (h : relationInput catalog field relation node level path v d = .ok (clauses, d'))
    (hfinal : d'.parameters.Extends final) :
    ∃ target, catalog.type? relation.target = some target ∧
      HandsOver catalog final (GivenValue.ofInput catalog target v) clauses := by
  obtain ⟨target, htarget, houtcome⟩ := relationInput_cases h
  obtain ⟨hmem, -⟩ := Catalog.type?_eq_some htarget
  refine ⟨target, htarget, ?_⟩
  cases houtcome with
  | operations hnamed _ hclauses =>
      rw [GivenValue.ofInput, if_pos hnamed]
      exact operations_handsOver hmem _ hclauses hfinal
  | created hnamed _ hclause hmore =>
      have hkeeps := (relations_supplies _ hmore).toExtends
      rw [GivenValue.ofInput, if_neg (by simp [hnamed])]
      have hbelow := relations_handsOver _ hmore hfinal
      rw [unskipped_nil] at hbelow
      exact createRelated_handsOver hmem hclause (hkeeps.trans hfinal) hbelow
  | createdEach _ _ hclauses =>
      rw [GivenValue.ofInput]
      exact createEach_handsOver hmem _ hclauses hfinal
termination_by sizeOf v

theorem operations_handsOver {field : Field} {relation : Relation} {target : NodeType}
    (htarget : target ∈ catalog.types) {node : String} {level : Level} {path : ParameterPath}
    (members : List (String × Json)) {clauses : List Clause} {d d' : Draft} {final : Parameters}
    (h : operations catalog field relation target node level path members d =
      .ok (clauses, d')) (hfinal : d'.parameters.Extends final) :
    HandsOver catalog final (GivenValue.ofOperations catalog target members) clauses := by
  match members, h with
  | [], h =>
      cases operations_nil_eq_ok.mp h
      rw [GivenValue.ofOperations]
      exact .nothing _ _
  | (key, v) :: rest, h =>
      obtain ⟨objects, here, more, e, hitems, houtcome, hmore, rfl⟩ := operations_cons_cases h
      obtain ⟨rfl, -⟩ := relatedItems_cases hitems
      have hkeeps := (operations_supplies rest hmore).toExtends.trans hfinal
      rw [GivenValue.ofOperations.eq_def]
      refine .append ?_ (operations_handsOver htarget rest hmore hfinal)
      cases houtcome with
      | create hkey hclause hnested =>
          have hnestedKeeps := (relations_supplies _ hnested).toExtends
          have hbelow := relations_handsOver _ hnested hkeeps
          rw [unskipped_nil] at hbelow
          rw [if_pos (NestedOperation.eq_name_of_ofName? hkey)]
          exact createRelated_handsOver htarget hclause (hnestedKeeps.trans hkeeps) hbelow
      | createEach hkey hclauses =>
          rw [if_pos (NestedOperation.eq_name_of_ofName? hkey)]
          exact createEach_handsOver htarget _ hclauses hkeeps
      | connect hkey hclauses =>
          rw [if_neg (by rw [NestedOperation.eq_name_of_ofName? hkey]; decide)]
          rw [connectEach_eq] at hclauses
          exact matchEach_handsOver htarget (fun _ _ _ => rfl) (by simp) hclauses hkeeps
      | disconnect hkey _ hclauses =>
          rw [if_neg (by rw [NestedOperation.eq_name_of_ofName? hkey]; decide)]
          rw [disconnectEach_eq] at hclauses
          exact matchEach_handsOver htarget (fun _ _ _ => rfl) (by simp) hclauses hkeeps
termination_by sizeOf members

theorem createEach_handsOver {relation : Relation} {target : NodeType}
    (htarget : target ∈ catalog.types) {parent base key : String} {path : ParameterPath}
    {index : Nat} (items : List Json) {clauses : List Clause} {d d' : Draft} {final : Parameters}
    (h : createEach catalog relation target parent base key path index items d =
      .ok (clauses, d')) (hfinal : d'.parameters.Extends final) :
    HandsOver catalog final (GivenValue.ofObjects catalog target items) clauses := by
  match items, h with
  | [], h =>
      cases createEach_nil_eq_ok.mp h
      rw [GivenValue.ofObjects]
      exact .nothing _ _
  | item :: rest, h =>
      obtain ⟨hobject, hrest⟩ | ⟨members, clause, nested, more, e, f, rfl, hclause, hnested,
        hmore, rfl⟩ := createEach_cons_cases h
      · have hskip : GivenValue.ofObjects catalog target (item :: rest) =
            GivenValue.ofObjects catalog target rest := by
          cases item with
          | obj members => cases hobject
          | _ => rw [GivenValue.ofObjects]; simp
        rw [hskip]
        exact createEach_handsOver htarget rest hrest hfinal
      · have hkeeps := (createEach_supplies rest hmore).toExtends.trans hfinal
        have hnestedKeeps := (relations_supplies _ hnested).toExtends
        have hbelow := relations_handsOver members hnested hkeeps
        rw [unskipped_nil] at hbelow
        rw [GivenValue.ofObjects]
        exact (createRelated_handsOver htarget hclause (hnestedKeeps.trans hkeeps) hbelow).append
          (createEach_handsOver htarget rest hmore hfinal)
termination_by sizeOf items

end

section

variable {setting : Setting} {node : String} {s : Selection} {d d' : Draft} {final : Parameters}

theorem result_handsOver (htype : type ∈ setting.catalog.types) {items : List Item}
    (h : result setting type node s d = .ok (items, d')) (hfinal : d'.parameters.Extends final)
    (scope : Scope) :
    List.Forall₂ (HandedOver setting.catalog final)
      (GivenValue.ofSelections setting.catalog type s.selections s.selections)
      (Item.usesOfAll scope items) := by
  obtain ⟨plan, e, hplan, hitems⟩ := result_cases h
  obtain ⟨hmake, -⟩ := Selection.planSelections_cases hplan
  exact Selection.projectAll_handsOver
    (Plan.make_shows (Catalog.type?_eq_some_of_mem htype) hmake) s.selections hitems
    hfinal scope

theorem properties_handsOver (htype : type ∈ catalog.types) {skip : List String}
    {members : Json.Members} {written : List (String × Written)}
    (h : properties type path skip members d = .ok (written, d'))
    (hfinal : d'.parameters.Extends final) :
    List.Forall₂ (HandedOver catalog final) (GivenValue.written type (unskipped skip members))
      (writtenUses (some type.name) written) := by
  obtain ⟨rfl, hsupplied⟩ := properties_writes h
  exact written_handsOver htype ((Parameters.Holds.of_supplies hsupplied).mono hfinal)

-- The data of a mutation: the properties of the mutated node come before the related nodes.
theorem data_handsOver (htype : type ∈ catalog.types) {level : Level} {skip : List String}
    {members : Json.Members} {written : List (String × Written)} {related : List Clause}
    {e : Draft}
    (hwritten : properties type path skip members d = .ok (written, e))
    (hrelated : relations catalog type node level path skip members e = .ok (related, d'))
    (hfinal : d'.parameters.Extends final) (scope : Scope) :
    List.Forall₂ (HandedOver catalog final)
      (GivenValue.written type (unskipped skip members) ++
        GivenValue.ofRelated catalog type (unskipped skip members))
      (writtenUses (some type.name) written ++ related.flatMap (Clause.uses scope)) :=
  List.rel_append
    (properties_handsOver htype hwritten ((relations_supplies _ hrelated).toExtends.trans hfinal))
    ((relations_handsOver _ hrelated hfinal).uses scope)

-- A statement without values to set does not set anything.
theorem set_uses {scope : Scope} (hbound : scope.lookup node = some type.name)
    (written : List (String × Written)) :
    (if written.isEmpty then [] else [Clause.set node written]).flatMap (Clause.uses scope) =
      writtenUses (some type.name) written := by
  split
  · rename_i hempty
    rw [List.isEmpty_iff.mp hempty]
    rfl
  · rw [List.flatMap_singleton, Clause.uses, hbound]

theorem statement_handsOver (htype : type ∈ setting.catalog.types) {operation : Operation}
    {statement : Statement}
    (h : StatementOutcome setting type node s operation d statement d')
    (hfinal : d'.parameters.Extends final) :
    List.Forall₂ (HandedOver setting.catalog final)
      (GivenValue.ofField setting.catalog type operation s) statement.uses := by
  cases h with
  | @create members written related items _ e f _ hdata hwritten hrelated hitems =>
      have hkeeps := (result_supplies hitems).toExtends.trans hfinal
      have hmembers : s.members Argument.data = members := by
        rw [Selection.members, hdata]
        rfl
      rw [GivenValue.ofField, hmembers, Statement.uses, List.flatMap_cons]
      exact List.rel_append (data_handsOver htype hwritten hrelated hkeeps _)
        (result_handsOver htype hitems hfinal _)
  | @change _ keys members skip written related items found _ c e f _ hoperation hkeys hdata
      hwritten hrelated hitems =>
      have hshown := (result_supplies hitems).toExtends.trans hfinal
      have hlooked := (properties_writes hwritten).2.toExtends.trans
        ((relations_supplies _ hrelated).toExtends.trans hshown)
      have hmembers : s.members Argument.data = members := by
        rw [Selection.members, hdata]
        rfl
      have hmatched := read_handsOver htype hkeys hlooked
      have hgiven : GivenValue.ofField setting.catalog type operation s =
          GivenValue.matched type (s.members Argument.key) ++
            (GivenValue.written type (unskipped skip members) ++
              GivenValue.ofRelated setting.catalog type (unskipped skip members)) ++
            GivenValue.ofSelections setting.catalog type s.selections s.selections := by
        rw [← hmembers]
        obtain ⟨rfl, rfl, -⟩ | ⟨rfl, rfl, -⟩ := hoperation
        · rfl
        · obtain ⟨-, rfl, -⟩ :=
            KeySite.read_emits ⟨type, keyPath, s.argument? Argument.key⟩ hkeys
          rw [KeyMatch.bound_keys]
          rfl
      have hfound : found.binding? = some (node, type.name) ∧
          ∀ scope, found.uses scope = propertyUses (some type.name) .matched keys := by
        obtain ⟨-, -, rfl⟩ | ⟨-, -, rfl⟩ := hoperation <;> exact ⟨rfl, fun _ => rfl⟩
      have hbound (scope : Scope) : List.lookup node ((node, type.name) :: scope) =
          some type.name := by simp
      rw [hgiven, Statement.uses, List.cons_append, List.filterMap_cons_some hfound.1,
        List.flatMap_cons, hfound.2, List.flatMap_append, set_uses (hbound _)]
      exact List.rel_append
        (List.rel_append hmatched (data_handsOver htype hwritten hrelated hshown _))
        (result_handsOver htype hitems hfinal _)
  | @delete keys items _ e _ hkeys hitems =>
      have hkeeps := (result_supplies hitems).toExtends.trans hfinal
      have hread := read_handsOver htype hkeys hkeeps
      rw [GivenValue.ofField, Statement.uses]
      exact List.rel_append hread (result_handsOver htype hitems hfinal _)

end

end Mutation

end CypherCompiler
