import CypherCompiler.Proofs.Creation.Objects
import CypherCompiler.Proofs.Naming.Mutation
import CypherCompiler.Proofs.Supply.Projection

namespace CypherCompiler

open Cypher Parameters

-- The names that were given out between two states of the registry: each of them is new, and
-- no two are alike.
structure GivenOut (before after : AliasRegistry) (names : List String) : Prop where
  grows : before.taken ⊆ after.taken
  taken : names ⊆ after.taken
  fresh : ∀ name ∈ names, name ∉ before.taken
  nodup : names.Nodup

namespace GivenOut

variable {before middle after : AliasRegistry} {names more : List String}

theorem refl (r : AliasRegistry) : GivenOut r r [] :=
  ⟨fun _ h => h, by simp, by simp, by simp⟩

theorem trans (h : GivenOut before middle names) (k : GivenOut middle after more) :
    GivenOut before after (names ++ more) := by
  refine ⟨fun _ hname => k.grows (h.grows hname), ?_, ?_, ?_⟩
  · exact List.append_subset.mpr ⟨fun _ hname => k.grows (h.taken hname), k.taken⟩
  · intro name hname
    rcases List.mem_append.mp hname with hname | hname
    · exact h.fresh name hname
    · exact fun hold => k.fresh name hname (h.grows hold)
  · rw [List.nodup_append]
    exact ⟨h.nodup, k.nodup, fun a ha b hb heq => k.fresh b hb (heq ▸ h.taken ha)⟩

theorem claim (r : AliasRegistry) (base : String) :
    GivenOut r (r.reserve (r.fresh base)) [r.fresh base] := by
  refine ⟨r.taken_subset_reserve _, ?_, ?_, List.nodup_singleton _⟩
  · intro name hname
    exact AliasRegistry.mem_reserve.mpr (.inl (List.mem_singleton.mp hname))
  · intro name hname
    rw [List.mem_singleton.mp hname]
    exact r.fresh_not_mem base

-- A name that is given to something else.
theorem claim_other (r : AliasRegistry) (base : String) :
    GivenOut r (r.reserve (r.fresh base)) [] :=
  ⟨r.taken_subset_reserve _, by simp, by simp, by simp⟩

end GivenOut

theorem KeyMatch.read_supplies {type : NodeType} {path : ParameterPath} {members : Json.Members}
    {keys : List (String × String)} {d d' : Draft}
    (h : read type path members d = .ok (keys, d')) : Supplies d.parameters d'.parameters [] := by
  unfold read at h
  simp only [bind_eq_ok, lift_eq_ok] at h
  obtain ⟨checked, _, ⟨_, -, hc⟩, h⟩ := h
  cases hc
  induction checked generalizing d keys with
  | nil =>
      cases mapM_nil_eq_ok.mp h
      exact .refl _
  | cons entry rest ih =>
      obtain ⟨b, more, e, hb, hmore, -⟩ := mapM_cons_eq_ok.mp h
      simp only [bind_eq_ok, pure_eq_ok] at hb
      obtain ⟨name, _, hvalue, hr⟩ := hb
      cases hr
      exact (Selection.value_supplies hvalue).weaken.then_any (ih hmore)

namespace Mutation

open CreatedObject

variable {type target : NodeType} {path : ParameterPath} {d d' : Draft}

-- A stored member is written from a parameter of its own, a relationship is not written.
theorem property?_creates {key : String} {v : Json} {p : Option (String × Written)}
    (h : property? type path key v d = .ok (p, d')) :
    p.toList = writtenMembers type path [(key, v)] ∧
      Supplies d.parameters d'.parameters (suppliedMembers type path [(key, v)]) := by
  obtain ⟨field, hfield, ⟨relation, hkind, rfl, rfl⟩ | ⟨scalar, hkind, rfl, hv⟩ |
    ⟨compound, hkind, rfl, hv⟩⟩ := property?_cases h
  · have hstored : stored type [(key, v)] = [] := by
      simp [stored, hfield, Field.relation?, hkind]
    rw [writtenMembers, suppliedMembers, hstored]
    exact ⟨rfl, .refl _⟩
  · have hstored : stored type [(key, v)] = [(key, v)] := by
      simp [stored, hfield, Field.relation?, hkind]
    rw [writtenMembers, suppliedMembers, hstored]
    refine ⟨?_, ?_⟩
    · simp [writtenMember, hfield, Field.compound?, hkind, parameterName]
    · simpa [suppliedValue, hfield, Field.scalar?, hkind, parameterName]
        using Selection.value_supplies hv
  · have hstored : stored type [(key, v)] = [(key, v)] := by
      simp [stored, hfield, Field.relation?, hkind]
    rw [writtenMembers, suppliedMembers, hstored]
    refine ⟨?_, ?_⟩
    · simp [writtenMember, hfield, Field.compound?, hkind, parameterName]
    · simpa [suppliedValue, hfield, Field.scalar?, hkind, parameterName]
        using Selection.value_supplies hv

theorem properties_creates {members : Json.Members} {written : List (String × Written)}
    (h : properties type path [] members d = .ok (written, d')) :
    written = writtenMembers type path members ∧
      Supplies d.parameters d'.parameters (suppliedMembers type path members) := by
  induction members generalizing d written with
  | nil =>
      cases properties_nil_eq_ok.mp h
      exact ⟨rfl, .refl _⟩
  | cons m rest ih =>
      obtain ⟨key, v⟩ := m
      obtain ⟨hskip, -⟩ | ⟨-, p, more, e, hp, hmore, rfl⟩ := properties_cons_cases h
      · simp at hskip
      · obtain ⟨hwritten, hfirst⟩ := property?_creates hp
        obtain ⟨rfl, hrest⟩ := ih hmore
        rw [writtenMembers_cons, suppliedMembers_cons, hwritten]
        exact ⟨rfl, hfirst.trans hrest⟩

-- The clauses create the objects below the node `parent` and connect nodes that there are.
structure Creates (parent : String) (objects : List CreatedObject) (clauses : List Clause)
    (d d' : Draft) : Prop where
  cascade : Cascade parent objects (clauses.filterMap Clause.creation?)
  others : ∀ clause ∈ clauses, clause.creation? = none → clause.IsConnect
  names : GivenOut d.aliases d'.aliases
    ((clauses.filterMap Clause.creation?).map fun c => c.node.name)
  supplied : Supplies d.parameters d'.parameters ((preorder objects).flatMap supplied)

namespace Creates

variable {parent : String} {objects others : List CreatedObject} {clauses more : List Clause}
  {e : Draft}

theorem nothing (parent : String) (d : Draft) : Creates parent [] [] d d :=
  ⟨.nil, by simp, .refl _, .refl _⟩

theorem append (h : Creates parent objects clauses d e) (k : Creates parent others more e d') :
    Creates parent (objects ++ others) (clauses ++ more) d d' := by
  refine ⟨?_, ?_, ?_, ?_⟩
  · rw [List.filterMap_append]
    exact h.cascade.append k.cascade
  · rw [List.forall_mem_append]
    exact ⟨h.others, k.others⟩
  · rw [List.filterMap_append, List.map_append]
    exact h.names.trans k.names
  · rw [preorder_append, List.flatMap_append]
    exact h.supplied.trans k.supplied

-- One object with everything below it.
theorem object {base : String} {relation : Relation} {members : Json.Members} {clause : Clause}
    {inner : List CreatedObject}
    (hclause : createRelated parent (d.aliases.fresh base) relation target path members
      ⟨d.aliases.reserve (d.aliases.fresh base), d.parameters⟩ = .ok (clause, e))
    (hnested : Creates (d.aliases.fresh base) inner more e d') :
    Creates parent [⟨relation, target, path, members, inner⟩] (clause :: more) d d' := by
  obtain ⟨written, hwritten, rfl⟩ := createRelated_cases hclause
  have haliases := properties_aliases hwritten
  obtain ⟨rfl, hsupplied⟩ := properties_creates hwritten
  have hcreation : ∀ node : NodeWith Written,
      (Clause.createRelated parent relation node :: more).filterMap Clause.creation? =
        ⟨parent, relation, node⟩ :: more.filterMap Clause.creation? := fun _ => rfl
  refine ⟨?_, ?_, ?_, ?_⟩
  · rw [hcreation, ← List.append_nil (more.filterMap Clause.creation?)]
    exact .cons hnested.cascade .nil
  · rw [List.forall_mem_cons]
    exact ⟨nofun, hnested.others⟩
  · have hclaim : GivenOut d.aliases e.aliases [d.aliases.fresh base] := by
      rw [haliases]
      exact .claim _ _
    rw [hcreation]
    exact hclaim.trans hnested.names
  · rw [preorder, withBelow_eq, preorder, List.append_nil, List.flatMap_cons]
    exact hsupplied.trans hnested.supplied

end Creates

variable {catalog : Catalog}

-- Nodes that are found by their keys exist already.
theorem matchEach_creates {operation : NestedOperation}
    {clause : String → List (String × String) → Clause}
    (hconnect : ∀ name keys, (clause name keys).IsConnect) {parent base : String} {index : Nat}
    {objects : List Json.Members} {clauses : List Clause}
    (h : matchEach operation clause base target path index objects d = .ok (clauses, d')) :
    Creates parent [] clauses d d' := by
  induction objects generalizing index d clauses with
  | nil =>
      cases matchEach_nil_eq_ok.mp h
      exact .nothing _ _
  | cons members rest ih =>
      obtain ⟨keys, more, e, hkeys, hmore, rfl⟩ := matchEach_cons_cases h
      obtain ⟨-, -, -, haliases, -⟩ := KeyMatch.read_cases hkeys
      have hrest := ih hmore
      have hnone := (hconnect (d.aliases.fresh (Alias.indexed base operation.name index))
        keys).creation?_eq_none
      refine ⟨?_, ?_, ?_, (KeyMatch.read_supplies hkeys).then_any hrest.supplied⟩
      · rw [List.filterMap_cons_none hnone]
        exact hrest.cascade
      · rw [List.forall_mem_cons]
        exact ⟨fun _ => hconnect _ keys, hrest.others⟩
      · have hclaim : GivenOut d.aliases e.aliases [] := by
          rw [haliases]
          exact .claim_other _ _
        rw [List.filterMap_cons_none hnone]
        exact hclaim.trans hrest.names

mutual

-- Exactly the objects that the data holds are created, each below the node of the object
-- around it.
theorem relations_creates {type : NodeType} {node : String} {level : Level}
    (hlevel : level ≠ .changed) {path : ParameterPath} (members : List (String × Json))
    {clauses : List Clause} {d d' : Draft}
    (h : relations catalog type node level path [] members d = .ok (clauses, d')) :
    Creates node (ofMembers catalog type level.allowsOperations path members) clauses d d' := by
  match members, h with
  | [], h =>
      cases relations_nil_eq_ok.mp h
      rw [ofMembers]
      exact .nothing _ _
  | (key, v) :: rest, h =>
      obtain ⟨here, more, e, hhere, hmore, rfl⟩ := relations_cons_cases h
      rw [ofMembers]
      refine .append ?_ (relations_creates hlevel rest hmore)
      obtain ⟨rfl, rfl, hnone⟩ | ⟨field, relation, hfield, -, -, hrelation, hinput⟩ := hhere
      · split
        · exact .nothing _ _
        · -- a relationship without clauses was given as null
          rename_i relation target hrelated
          cases v with
          | null =>
              rw [ofInput]
              · exact .nothing _ _
              all_goals simp
          | _ =>
              have hplain : (type.field? key).bind Field.relation? = none := by
                simpa [Json.isNull] using hnone
              simp [related?, hplain] at hrelated
      · obtain ⟨target, htarget, hcreates⟩ := relationInput_creates hlevel v hinput
        have hname := (NodeType.field?_eq_some hfield).2
        rw [hname] at hcreates
        have hrelated : related? catalog type key = some (relation, target) := by
          simp [related?, hfield, hrelation, htarget]
        rw [hrelated]
        exact hcreates
termination_by sizeOf members

theorem relationInput_creates {field : Field} {relation : Relation} {node : String}
    {level : Level} (hlevel : level ≠ .changed) {path : ParameterPath} (v : Json)
    {clauses : List Clause} {d d' : Draft}
    (h : relationInput catalog field relation node level path v d = .ok (clauses, d')) :
    ∃ target, catalog.type? relation.target = some target ∧
      Creates node (ofInput catalog relation target level.allowsOperations path field.name v)
        clauses d d' := by
  obtain ⟨target, htarget, houtcome⟩ := relationInput_cases h
  refine ⟨target, htarget, ?_⟩
  cases houtcome with
  | operations hnamed hallowed hclauses =>
      -- operations are allowed at the root of a create only
      have hcreated : level = .created := by
        cases level with
        | created => rfl
        | changed => exact (hlevel rfl).elim
        | nested => cases hallowed
      subst hcreated
      rw [ofInput, if_pos hnamed, if_pos hallowed]
      exact operations_creates _ hclauses
  | created hnamed _ hclause hmore =>
      rw [ofInput, if_neg (by simp [hnamed])]
      exact .object hclause (relations_creates (by simp) _ hmore)
  | createdEach _ _ hclauses =>
      rw [ofInput]
      exact createEach_creates _ hclauses
termination_by sizeOf v

theorem operations_creates {field : Field} {relation : Relation} {target : NodeType}
    {node : String} {path : ParameterPath} (members : List (String × Json))
    {clauses : List Clause} {d d' : Draft}
    (h : operations catalog field relation target node .created path members d =
      .ok (clauses, d')) :
    Creates node (ofOperations catalog relation target path members) clauses d d' := by
  match members, h with
  | [], h =>
      cases operations_nil_eq_ok.mp h
      rw [ofOperations]
      exact .nothing _ _
  | (key, v) :: rest, h =>
      obtain ⟨objects, here, more, e, -, houtcome, hmore, rfl⟩ := operations_cons_cases h
      rw [ofOperations.eq_def]
      refine .append ?_ (operations_creates rest hmore)
      cases houtcome with
      | create hkey hclause hnested =>
          rw [if_pos (NestedOperation.eq_name_of_ofName? hkey)]
          exact .object hclause (relations_creates (by simp) _ hnested)
      | createEach hkey hclauses =>
          rw [if_pos (NestedOperation.eq_name_of_ofName? hkey)]
          exact createEach_creates _ hclauses
      | connect hkey hclauses =>
          rw [if_neg (by rw [NestedOperation.eq_name_of_ofName? hkey]; decide)]
          rw [connectEach_eq] at hclauses
          exact matchEach_creates (fun _ _ => .intro _ _ _) hclauses
      | disconnect _ hlevel _ => exact (hlevel rfl).elim
termination_by sizeOf members

theorem createEach_creates {relation : Relation} {target : NodeType}
    {parent base key : String} {path : ParameterPath} {index : Nat} (items : List Json)
    {clauses : List Clause} {d d' : Draft}
    (h : createEach catalog relation target parent base key path index items d =
      .ok (clauses, d')) :
    Creates parent (ofItems catalog relation target path key index items) clauses d d' := by
  match items, h with
  | [], h =>
      cases createEach_nil_eq_ok.mp h
      rw [ofItems]
      exact .nothing _ _
  | item :: rest, h =>
      obtain ⟨hobject, hrest⟩ | ⟨members, clause, nested, more, e, f, rfl, hclause, hnested,
        hmore, rfl⟩ := createEach_cons_cases h
      · have hskip : ofItems catalog relation target path key index (item :: rest) =
            ofItems catalog relation target path key (index + 1) rest := by
          cases item with
          | obj members => cases hobject
          | _ => rw [ofItems]; simp
        rw [hskip]
        exact createEach_creates rest hrest
      · rw [ofItems]
        exact (Creates.object hclause (relations_creates (by simp) members hnested)).append
          (createEach_creates rest hmore)
termination_by sizeOf items

end

end Mutation

end CypherCompiler
