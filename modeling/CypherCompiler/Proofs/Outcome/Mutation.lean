import CypherCompiler.Compilation.Mutation
import CypherCompiler.Proofs.Outcome.Projection
import CypherCompiler.Proofs.Outcome.Sequence

namespace CypherCompiler

open Cypher

-- The objects that a value holds, on its own or in a list.
def Json.objects : Json → List Json.Members
  | .obj members => [members]
  | .arr items => items.filterMap asObject?
  | _ => []

namespace KeyMatch

theorem value_cases {type : NodeType} {keys : List String} {key : String} {v : Json}
    {r : String × Json} (h : value type keys key v = .ok r) :
    ∃ field scalar, type.field? key = some field ∧ field.scalar? = some scalar ∧
      isPlain v = true ∧ type.isUniqueKey key = true ∧ r = (key, scalar.normalize v) := by
  unfold value at h
  cases hfield : type.field? key with
  | none => simp [hfield] at h
  | some field =>
      simp only [hfield] at h
      cases hscalar : field.scalar? with
      | none => simp [hscalar] at h
      | some scalar =>
          simp only [hscalar] at h
          split at h
          · rename_i hv
            cases h
            obtain ⟨hplain, hunique⟩ := Bool.and_eq_true_iff.mp hv
            exact ⟨field, scalar, rfl, hscalar, hplain, hunique, rfl⟩
          · cases h

theorem values_checks {type : NodeType} {members : Json.Members} {checked : List (String × Json)}
    (h : values type members = .ok checked) :
    List.Forall₂ (fun m entry => value type members.keys m.1 m.2 = .ok entry) members checked := by
  unfold values at h
  split at h
  · cases h
  · exact except_mapM_eq_ok_iff.mp h

-- The keys that are checked are scalar fields of the type.
theorem values_scalar {type : NodeType} {members : Json.Members} {checked : List (String × Json)}
    (h : values type members = .ok checked) :
    ∀ entry ∈ checked, ∃ field scalar, type.field? entry.1 = some field ∧
      field.scalar? = some scalar := by
  refine (forall₂_forall_iff (P := fun _ => True) ?_ (values_checks h)).mpr fun _ _ => trivial
  intro m entry hentry
  obtain ⟨field, scalar, hfield, hscalar, -, -, rfl⟩ := value_cases hentry
  exact iff_true_intro ⟨field, scalar, hfield, hscalar⟩

-- The parameter of a key is named by the path of the key.
theorem read_cases {type : NodeType} {path : ParameterPath} {members : Json.Members}
    {keys : List (String × String)} {d d' : Draft}
    (h : read type path members d = .ok (keys, d')) :
    ∃ checked, values type members = .ok checked ∧
      keys = checked.map (fun entry => (entry.1, (path.child entry.1).name)) ∧
      d'.aliases = d.aliases ∧
      d'.parameters.members =
        d.parameters.members ++ checked.map fun entry => ((path.child entry.1).name, entry.2) := by
  unfold read at h
  simp only [bind_eq_ok, lift_eq_ok] at h
  obtain ⟨checked, _, ⟨_, hchecked, hc⟩, h⟩ := h
  cases hc
  refine ⟨checked, hchecked, ?_⟩
  clear hchecked
  induction checked generalizing d keys with
  | nil =>
      cases mapM_nil_eq_ok.mp h
      simp
  | cons entry rest ih =>
      obtain ⟨b, more, e, hb, hmore, rfl⟩ := mapM_cons_eq_ok.mp h
      simp only [bind_eq_ok, pure_eq_ok, Drafting.value_eq_ok] at hb
      obtain ⟨_, _, ⟨_, hp⟩, hr⟩ := hb
      cases hp
      cases hr
      obtain ⟨rfl, haliases, hmembers⟩ := ih hmore
      simp [haliases, hmembers]

end KeyMatch

theorem NestedOperation.eq_name_of_ofName? {key : String} {operation : NestedOperation}
    (h : ofName? key = some operation) : key = operation.name := by
  have hname : operation.name = key := by simpa using List.find?_some h
  exact hname.symm

namespace Mutation

variable {type target : NodeType} {path : ParameterPath} {skip : List String} {key : String}
  {v : Json} {rest : List (String × Json)} {d d' : Draft}

theorem property?_cases {p : Option (String × Written)}
    (h : property? type path key v d = .ok (p, d')) :
    ∃ field, type.field? key = some field ∧
      ((∃ relation, field.kind = .relationship relation ∧ p = none ∧ d' = d) ∨
        (∃ scalar, field.kind = .scalar scalar ∧
          p = some (key, .parameter (path.child key).name) ∧
          Drafting.value (path.child key) (scalar.normalize v) d =
            .ok ((path.child key).name, d')) ∨
        ∃ compound, field.kind = .compound compound ∧
          p = some (key, if field.list then .compounds compound (path.child key).name
            else .compound compound (path.child key).name) ∧
          Drafting.value (path.child key) v d = .ok ((path.child key).name, d')) := by
  unfold property? at h
  cases hfield : type.field? key with
  | none =>
      rw [hfield] at h
      exact (throw_eq_ok.mp h).elim
  | some field =>
      refine ⟨field, rfl, ?_⟩
      simp only [hfield] at h
      cases hkind : field.kind with
      | scalar scalar =>
          simp only [hkind, bind_eq_ok, pure_eq_ok] at h
          obtain ⟨name, e, hname, hr⟩ := h
          cases hr
          obtain ⟨_, hq⟩ := Drafting.value_eq_ok.mp hname
          cases hq
          exact .inr (.inl ⟨scalar, rfl, rfl, hname⟩)
      | compound compound =>
          simp only [hkind, bind_eq_ok, pure_eq_ok] at h
          obtain ⟨name, e, hname, hr⟩ := h
          cases hr
          obtain ⟨_, hq⟩ := Drafting.value_eq_ok.mp hname
          cases hq
          exact .inr (.inr ⟨compound, rfl, rfl, hname⟩)
      | relationship relation =>
          simp only [hkind] at h
          cases pure_eq_ok.mp h
          exact .inl ⟨relation, rfl, rfl, rfl⟩
      | computed statement returns =>
          simp only [hkind] at h
          exact (throw_eq_ok.mp h).elim

theorem properties_nil_eq_ok {r : List (String × Written) × Draft} :
    properties type path skip [] d = .ok r ↔ ([], d) = r := by
  rw [properties]
  exact pure_eq_ok

theorem properties_cons_cases {written : List (String × Written)}
    (h : properties type path skip ((key, v) :: rest) d = .ok (written, d')) :
    (skip.contains key = true ∧ properties type path skip rest d = .ok (written, d')) ∨
    (skip.contains key = false ∧ ∃ p more e, property? type path key v d = .ok (p, e) ∧
      properties type path skip rest e = .ok (more, d') ∧ written = p.toList ++ more) := by
  rw [properties] at h
  split at h
  · rename_i hskip
    exact .inl ⟨hskip, h⟩
  · rename_i hskip
    simp only [bind_eq_ok, pure_eq_ok] at h
    obtain ⟨p, e, hp, more, _, hmore, hr⟩ := h
    cases hr
    exact .inr ⟨by simpa using hskip, p, more, e, hp, hmore, rfl⟩

theorem createRelated_cases {parent node : String} {relation : Relation}
    {members : Json.Members} {clause : Clause}
    (h : createRelated parent node relation target path members d = .ok (clause, d')) :
    ∃ written, properties target path [] members d = .ok (written, d') ∧
      clause = .createRelated parent relation ⟨node, target.labels, written⟩ := by
  unfold createRelated at h
  simp only [bind_eq_ok, pure_eq_ok] at h
  obtain ⟨written, _, hwritten, hr⟩ := h
  cases hr
  exact ⟨written, hwritten, rfl⟩

-- The objects of a value are those that it holds, and a field for one node takes no list.
theorem relatedItems_cases {field : Field} {objects : List Json.Members}
    (h : relatedItems field v = .ok objects) :
    objects = v.objects ∧ (field.list = false → ∃ members, v = .obj members) := by
  unfold relatedItems at h
  split at h
  · rename_i members
    cases h
    exact ⟨rfl, fun _ => ⟨members, rfl⟩⟩
  · split at h
    · rename_i hlist hitems
      cases h
      exact ⟨(filterMap_of_mapM hitems).symm, fun hsingle => by simp [hlist] at hsingle⟩
    · cases h
  · cases h

section

variable {operation : NestedOperation} {clause : String → List (String × String) → Clause}
  {base : String} {index : Nat} {members : Json.Members} {objects : List Json.Members}
  {clauses : List Clause}

-- What connecting and disconnecting have in common: the nodes of a list are found by their keys,
-- each with a name of its own in a clause of its own.
def matchEach (operation : NestedOperation) (clause : String → List (String × String) → Clause)
    (base : String) (target : NodeType) (path : ParameterPath) (index : Nat) :
    List Json.Members → Drafting (List Clause)
  | [] => return []
  | members :: rest => do
    let name ← Drafting.claim (Alias.indexed base operation.name index)
    let keys ← KeyMatch.read target (path.indexed operation.name index) members
    return clause name keys :: (← matchEach operation clause base target path (index + 1) rest)

theorem connectEach_eq (parent base : String) (relation : Relation) (target : NodeType)
    (path : ParameterPath) (index : Nat) (objects : List Json.Members) :
    connectEach parent base relation target path index objects =
      matchEach .connect (fun node keys => .connect parent relation ⟨node, target.labels, keys⟩)
        base target path index objects := by
  induction objects generalizing index with
  | nil => rfl
  | cons members rest ih => rw [connectEach, matchEach, ih]

theorem disconnectEach_eq (parent base : String) (relation : Relation) (target : NodeType)
    (path : ParameterPath) (index : Nat) (objects : List Json.Members) :
    disconnectEach parent base relation target path index objects =
      matchEach .disconnect (fun edge keys => .disconnect parent relation edge target.labels keys)
        base target path index objects := by
  induction objects generalizing index with
  | nil => rfl
  | cons members rest ih => rw [disconnectEach, matchEach, ih]

theorem matchEach_nil_eq_ok {r : List Clause × Draft} :
    matchEach operation clause base target path index [] d = .ok r ↔ ([], d) = r := by
  rw [matchEach]
  exact pure_eq_ok

theorem matchEach_cons_cases
    (h : matchEach operation clause base target path index (members :: objects) d =
      .ok (clauses, d')) :
    ∃ keys more e,
      KeyMatch.read target (path.indexed operation.name index) members
        ⟨d.aliases.reserve (d.aliases.fresh (Alias.indexed base operation.name index)),
          d.parameters⟩ = .ok (keys, e) ∧
      matchEach operation clause base target path (index + 1) objects e = .ok (more, d') ∧
      clauses = clause (d.aliases.fresh (Alias.indexed base operation.name index)) keys ::
        more := by
  rw [matchEach] at h
  simp only [bind_eq_ok, pure_eq_ok, Drafting.claim_eq_ok] at h
  obtain ⟨_, _, hclaim, keys, e, hkeys, more, _, hmore, hr⟩ := h
  cases hclaim
  cases hr
  exact ⟨keys, more, e, hkeys, hmore, rfl⟩

end

section

variable {catalog : Catalog} {node : String} {level : Level} {field : Field}
  {relation : Relation} {parent base : String} {index : Nat} {members : Json.Members}
  {clauses : List Clause}

theorem relations_nil_eq_ok {r : List Clause × Draft} :
    relations catalog type node level path skip [] d = .ok r ↔ ([], d) = r := by
  rw [relations]
  exact pure_eq_ok

-- Every relationship that is neither skipped nor null is looked at, and nothing else.
theorem relations_cons_cases
    (h : relations catalog type node level path skip ((key, v) :: rest) d =
      .ok (clauses, d')) :
    ∃ here more e,
      ((here = [] ∧ e = d ∧ (skip.contains key = true ∨ v.isNull = true ∨
          (type.field? key).bind Field.relation? = none)) ∨
        ∃ field relation, type.field? key = some field ∧
          skip.contains key = false ∧ v.isNull = false ∧ field.relation? = some relation ∧
          relationInput catalog field relation node level path v d = .ok (here, e)) ∧
      relations catalog type node level path skip rest e = .ok (more, d') ∧
      clauses = here ++ more := by
  rw [relations] at h
  cases hfield : (type.field? key).filter fun _ => !skip.contains key && !v.isNull with
  | none =>
      simp only [hfield, bind_eq_ok, pure_eq_ok] at h
      obtain ⟨_, _, hnone, more, _, hmore, hr⟩ := h
      cases hnone
      cases hr
      refine ⟨[], more, _, .inl ⟨rfl, rfl, ?_⟩, hmore, rfl⟩
      cases hfound : type.field? key with
      | none => exact .inr (.inr rfl)
      | some field =>
          have hread := Option.filter_eq_none_iff.mp hfield field hfound
          simp only [Bool.and_eq_true, Bool.not_eq_true', not_and, Bool.not_eq_false] at hread
          by_cases hskip : skip.contains key = true
          · exact .inl hskip
          · exact .inr (.inl (hread (by simpa using hskip)))
  | some field =>
      obtain ⟨hfound, hread⟩ := Option.filter_eq_some_iff.mp hfield
      simp only [Bool.and_eq_true, Bool.not_eq_true'] at hread
      cases hrelation : field.relation? with
      | none =>
          simp only [hfield, hrelation, bind_eq_ok, pure_eq_ok] at h
          obtain ⟨_, _, hnone, more, _, hmore, hr⟩ := h
          cases hnone
          cases hr
          exact ⟨[], more, _, .inl ⟨rfl, rfl, .inr (.inr (by rw [hfound]; exact hrelation))⟩, hmore,
            rfl⟩
      | some relation =>
          simp only [hfield, hrelation, bind_eq_ok, pure_eq_ok] at h
          obtain ⟨here, e, hhere, more, _, hmore, hr⟩ := h
          cases hr
          exact ⟨here, more, e, .inr ⟨field, relation, hfound, hread.1, hread.2, hrelation,
            hhere⟩, hmore, rfl⟩

-- The ways in which the input of a relationship field is read.
inductive RelationOutcome (catalog : Catalog) (field : Field) (relation : Relation)
    (target : NodeType) (node : String) (level : Level) (path : ParameterPath) :
    Json → Draft → List Clause → Draft → Prop
  | operations {members : Json.Members} {clauses : List Clause} {d d' : Draft}
      (hnamed : NestedOperation.areNamedBy members target = true)
      (hlevel : level.allowsOperations = true)
      (hclauses : Mutation.operations catalog field relation target node level
        (path.child field.name) members d = .ok (clauses, d')) :
      RelationOutcome catalog field relation target node level path (.obj members) d clauses d'
  | created {members : Json.Members} {clause : Clause} {more : List Clause} {d e d' : Draft}
      (hnamed : NestedOperation.areNamedBy members target = false)
      (hlevel : level.allowsObjects = true)
      (hclause : createRelated node (d.aliases.fresh (Alias.child node field.name)) relation
        target (path.child field.name) members
        ⟨d.aliases.reserve (d.aliases.fresh (Alias.child node field.name)), d.parameters⟩ =
          .ok (clause, e))
      (hmore : relations catalog target (d.aliases.fresh (Alias.child node field.name)) .nested
        (path.child field.name) [] members e = .ok (more, d')) :
      RelationOutcome catalog field relation target node level path (.obj members) d
        (clause :: more) d'
  | createdEach {items : List Json} {objects : List Json.Members} {clauses : List Clause}
      {d d' : Draft} (hlevel : level.allowsObjects = true)
      (hitems : relatedItems field (.arr items) = .ok objects)
      (hclauses : createEach catalog relation target node node field.name path 0 items d =
        .ok (clauses, d')) :
      RelationOutcome catalog field relation target node level path (.arr items) d clauses d'

theorem relationInput_cases
    (h : relationInput catalog field relation node level path v d = .ok (clauses, d')) :
    ∃ target, catalog.type? relation.target = some target ∧
      RelationOutcome catalog field relation target node level path v d clauses d' := by
  rw [relationInput.eq_def] at h
  simp only [bind_eq_ok, lift_eq_ok, Catalog.require_eq_ok] at h
  obtain ⟨target, _, ⟨_, htarget, ht⟩, h⟩ := h
  cases ht
  refine ⟨_, htarget, ?_⟩
  cases v with
  | obj members =>
      simp only at h
      by_cases hnamed : NestedOperation.areNamedBy members target = true
      · by_cases hlevel : level.allowsOperations = true
        · simp only [hnamed, hlevel, ite_true, Bool.not_true, Bool.false_eq_true,
            ite_false] at h
          exact .operations hnamed hlevel h
        · simp only [hnamed, hlevel, ite_true, Bool.not_false, bind_eq_ok, throw_eq_ok,
            false_and, exists_false] at h
      · by_cases hlevel : level.allowsObjects = true
        · simp only [hnamed, hlevel, Bool.not_true, Bool.false_eq_true, ite_false, bind_eq_ok,
            pure_eq_ok, Drafting.claim_eq_ok] at h
          obtain ⟨_, _, hclaim, clause, e, hclause, more, _, hmore, hr⟩ := h
          cases hclaim
          cases hr
          exact .created (by simpa using hnamed) hlevel hclause hmore
        · simp only [hnamed, hlevel, Bool.not_false, Bool.false_eq_true, ite_true, ite_false,
            throw_eq_ok] at h
  | arr items =>
      simp only at h
      by_cases hlevel : level.allowsObjects = true
      · simp only [hlevel, Bool.not_true, Bool.false_eq_true, ite_false, bind_eq_ok,
          lift_eq_ok] at h
        obtain ⟨_, _, ⟨objects, hitems, hi⟩, h⟩ := h
        cases hi
        exact .createdEach hlevel hitems h
      · simp only [hlevel, Bool.not_false, ite_true, bind_eq_ok, throw_eq_ok, false_and,
          exists_false] at h
  | _ => exact (throw_eq_ok.mp h).elim

theorem operations_nil_eq_ok {r : List Clause × Draft} :
    operations catalog field relation target node level path [] d = .ok r ↔ ([], d) = r := by
  rw [operations]
  exact pure_eq_ok

-- The ways in which the value of an operation is read.
inductive OperationOutcome (catalog : Catalog) (field : Field) (relation : Relation)
    (target : NodeType) (node : String) (level : Level) (path : ParameterPath) (key : String) :
    Json → List Json.Members → Draft → List Clause → Draft → Prop
  | create {members : Json.Members} {objects : List Json.Members} {clause : Clause}
      {more : List Clause} {d e d' : Draft}
      (hkey : NestedOperation.ofName? key = some .create)
      (hclause : createRelated node
        (d.aliases.fresh (Alias.indexed (Alias.child node field.name) key 0)) relation target
        (path.indexed key 0) members
        ⟨d.aliases.reserve (d.aliases.fresh (Alias.indexed (Alias.child node field.name) key 0)),
          d.parameters⟩ = .ok (clause, e))
      (hmore : relations catalog target
        (d.aliases.fresh (Alias.indexed (Alias.child node field.name) key 0)) .nested
        (path.indexed key 0) [] members e = .ok (more, d')) :
      OperationOutcome catalog field relation target node level path key (.obj members) objects d
        (clause :: more) d'
  | createEach {items : List Json} {objects : List Json.Members} {clauses : List Clause}
      {d d' : Draft}
      (hkey : NestedOperation.ofName? key = some .create)
      (hclauses : Mutation.createEach catalog relation target node
        (Alias.child node field.name) key path 0 items d = .ok (clauses, d')) :
      OperationOutcome catalog field relation target node level path key (.arr items) objects d
        clauses d'
  | connect {v : Json} {objects : List Json.Members} {clauses : List Clause} {d d' : Draft}
      (hkey : NestedOperation.ofName? key = some .connect)
      (hclauses : connectEach node (Alias.child node field.name) relation target path 0 objects
        d = .ok (clauses, d')) :
      OperationOutcome catalog field relation target node level path key v objects d clauses d'
  | disconnect {v : Json} {objects : List Json.Members} {clauses : List Clause} {d d' : Draft}
      (hkey : NestedOperation.ofName? key = some .disconnect) (hlevel : level ≠ .created)
      (hclauses : disconnectEach node (Alias.child node field.name) relation target path 0
        objects d = .ok (clauses, d')) :
      OperationOutcome catalog field relation target node level path key v objects d clauses d'

theorem operations_cons_cases
    (h : operations catalog field relation target node level path ((key, v) :: rest) d =
      .ok (clauses, d')) :
    ∃ objects here more e, relatedItems field v = .ok objects ∧
      OperationOutcome catalog field relation target node level path key v objects d here e ∧
      operations catalog field relation target node level path rest e = .ok (more, d') ∧
      clauses = here ++ more := by
  rw [operations] at h
  simp only [bind_eq_ok, lift_eq_ok] at h
  obtain ⟨objects, _, ⟨_, hitems, hi⟩, h⟩ := h
  cases hi
  cases hkey : NestedOperation.ofName? key with
  | none =>
      simp only [hkey, bind_eq_ok, throw_eq_ok, false_and, exists_false] at h
  | some operation =>
      cases operation with
      | create =>
          cases v with
          | obj members =>
              simp only [hkey, bind_eq_ok, pure_eq_ok, Drafting.claim_eq_ok] at h
              obtain ⟨_, _, hclaim, clause, e, hclause, nested, f, hnested, _, _, hhere, more, _,
                hmore, hr⟩ := h
              cases hclaim
              cases hhere
              cases hr
              exact ⟨objects, _, more, _, hitems, .create hkey hclause hnested, hmore, rfl⟩
          | arr items =>
              simp only [hkey, bind_eq_ok, pure_eq_ok] at h
              obtain ⟨here, e, hhere, more, _, hmore, hr⟩ := h
              cases hr
              exact ⟨objects, here, more, e, hitems, .createEach hkey hhere, hmore, rfl⟩
          | _ => cases hitems
      | connect =>
          simp only [hkey, bind_eq_ok, pure_eq_ok] at h
          obtain ⟨here, e, hhere, more, _, hmore, hr⟩ := h
          cases hr
          exact ⟨objects, here, more, e, hitems, .connect hkey hhere, hmore, rfl⟩
      | disconnect =>
          simp only [hkey] at h
          split at h
          · simp only [bind_eq_ok, throw_eq_ok, false_and, exists_false] at h
          · rename_i hlevel
            simp only [bind_eq_ok, pure_eq_ok] at h
            obtain ⟨here, e, hhere, more, _, hmore, hr⟩ := h
            cases hr
            exact ⟨objects, here, more, e, hitems, .disconnect hkey hlevel hhere, hmore, rfl⟩

theorem createEach_nil_eq_ok {r : List Clause × Draft} :
    createEach catalog relation target parent base key path index [] d = .ok r ↔
      ([], d) = r := by
  rw [createEach]
  exact pure_eq_ok

-- What is no object counts, but creates nothing.
theorem createEach_cons_cases {item : Json} {items : List Json}
    (h : createEach catalog relation target parent base key path index (item :: items) d =
      .ok (clauses, d')) :
    (item.isObject = false ∧
      createEach catalog relation target parent base key path (index + 1) items d =
        .ok (clauses, d')) ∨
    ∃ members clause nested more e f, item = .obj members ∧
      createRelated parent (d.aliases.fresh (Alias.indexed base key index)) relation target
        (path.indexed key index) members
        ⟨d.aliases.reserve (d.aliases.fresh (Alias.indexed base key index)), d.parameters⟩ =
          .ok (clause, e) ∧
      relations catalog target (d.aliases.fresh (Alias.indexed base key index)) .nested
        (path.indexed key index) [] members e = .ok (nested, f) ∧
      createEach catalog relation target parent base key path (index + 1) items f =
        .ok (more, d') ∧
      clauses = clause :: nested ++ more := by
  cases item with
  | obj members =>
      rw [createEach] at h
      simp only [bind_eq_ok, pure_eq_ok, Drafting.claim_eq_ok] at h
      obtain ⟨_, _, hclaim, clause, e, hclause, nested, f, hnested, more, _, hmore, hr⟩ := h
      cases hclaim
      cases hr
      exact .inr ⟨members, clause, nested, more, e, f, rfl, hclause, hnested, hmore, rfl⟩
  | _ =>
      rw [createEach] at h
      · exact .inl ⟨rfl, h⟩
      · simp

end

section

variable {setting : Setting} {node : String} {s : Selection}

theorem result_cases {items : List Item}
    (h : result setting type node s d = .ok (items, d')) :
    ∃ plan e, planSelections setting.catalog node type.name s.selections d = .ok (plan, e) ∧
      Selection.projectAll setting type node plan s.selections e = .ok (items, d') := by
  unfold result at h
  rw [bind_eq_ok] at h
  obtain ⟨plan, e, hplan, hitems⟩ := h
  exact ⟨plan, e, hplan, hitems⟩

theorem data_eq_ok {members : Json.Members} :
    data s = .ok members ↔ s.argument? Argument.data = some (.obj members) := by
  unfold data
  split <;> simp_all

-- The statements of the operations, with everything that was read for them.
inductive StatementOutcome (setting : Setting) (type : NodeType) (node : String)
    (s : Selection) : Operation → Draft → Statement → Draft → Prop
  | create {members : Json.Members} {written : List (String × Written)}
      {related : List Clause} {items : List Item} {d e f d' : Draft}
      (hdata : s.argument? Argument.data = some (.obj members))
      (hwritten : properties type dataPath [] members d = .ok (written, e))
      (hrelated : relations setting.catalog type node .created dataPath [] members e =
        .ok (related, f))
      (hitems : result setting type node s f = .ok (items, d')) :
      StatementOutcome setting type node s .create d
        (.write (.create ⟨node, type.labels, written⟩ :: related) node items s.responseKey) d'
  | change {operation : Operation} {keys : List (String × String)} {members : Json.Members}
      {skip : List String} {written : List (String × Written)} {related : List Clause}
      {items : List Item} {found : Clause} {d c e f d' : Draft}
      (hoperation : (operation = .update ∧ skip = [] ∧ found = .find ⟨node, type.labels, keys⟩) ∨
        (operation = .merge ∧ skip = keys.map Prod.fst ∧
          found = .merge ⟨node, type.labels, keys⟩))
      (hkeys : KeyMatch.readArgument type keyPath (s.argument? Argument.key) d = .ok (keys, c))
      (hdata : s.argument? Argument.data = some (.obj members))
      (hwritten : properties type dataPath skip members c = .ok (written, e))
      (hrelated : relations setting.catalog type node .changed dataPath skip members e =
        .ok (related, f))
      (hitems : result setting type node s f = .ok (items, d')) :
      StatementOutcome setting type node s operation d
        (.write (found :: (if written.isEmpty then [] else [Clause.set node written]) ++ related)
          node items s.responseKey) d'
  | delete {keys : List (String × String)} {items : List Item} {d e d' : Draft}
      (hkeys : KeyMatch.readArgument type keyPath (s.argument? Argument.key) d = .ok (keys, e))
      (hitems : result setting type node s
        ⟨e.aliases.reserve (e.aliases.fresh (Alias.child node "deleted")), e.parameters⟩ =
          .ok (items, d')) :
      StatementOutcome setting type node s .delete d
        (.delete ⟨node, type.labels, keys⟩ (e.aliases.fresh (Alias.child node "deleted")) items
          s.responseKey) d'

theorem create_cases {statement : Statement}
    (h : create setting type node s d = .ok (statement, d')) :
    StatementOutcome setting type node s .create d statement d' := by
  unfold create at h
  simp only [bind_eq_ok, lift_eq_ok, pure_eq_ok, data_eq_ok] at h
  obtain ⟨members, _, ⟨_, hdata, hm⟩, written, e, hwritten, related, f, hrelated, items, _,
    hitems, hr⟩ := h
  cases hm
  cases hr
  exact .create hdata hwritten hrelated hitems

theorem change_cases {merge : Bool} {statement : Statement}
    (h : change setting type node merge s d = .ok (statement, d')) :
    StatementOutcome setting type node s (if merge then .merge else .update) d statement d' := by
  unfold change at h
  simp only [bind_eq_ok, lift_eq_ok, pure_eq_ok, data_eq_ok] at h
  obtain ⟨keys, c, hkeys, members, _, ⟨_, hdata, hm⟩, written, e, hwritten, related, f,
    hrelated, items, _, hitems, hr⟩ := h
  cases hm
  cases hr
  refine .change ?_ hkeys hdata hwritten hrelated hitems
  cases merge with
  | false => exact .inl ⟨rfl, rfl, rfl⟩
  | true => exact .inr ⟨rfl, rfl, rfl⟩

theorem delete_cases {statement : Statement}
    (h : delete setting type node s d = .ok (statement, d')) :
    StatementOutcome setting type node s .delete d statement d' := by
  unfold delete at h
  simp only [bind_eq_ok, pure_eq_ok, Drafting.claim_eq_ok] at h
  obtain ⟨keys, e, hkeys, _, _, hclaim, items, _, hitems, hr⟩ := h
  cases hclaim
  cases hr
  exact .delete hkeys hitems

-- The mutated node is bound before anything else is done.
theorem statement_cases {operation : Operation} {statement : Statement}
    (h : Mutation.statement setting type operation s d = .ok (statement, d')) :
    StatementOutcome setting type (Alias.root type.name) s operation
      ⟨d.aliases.reserve (Alias.root type.name), d.parameters⟩ statement d' := by
  unfold Mutation.statement at h
  simp only [bind_eq_ok, Drafting.reserve_eq_ok] at h
  obtain ⟨_, _, hreserve, h⟩ := h
  cases hreserve
  cases hfind : s.arguments.keys.find? (!(allowedArguments operation).contains ·) with
  | some name =>
      simp only [hfind] at h
      exact (throw_eq_ok.mp h).elim
  | none =>
      simp only [hfind] at h
      cases operation with
      | create => exact create_cases h
      | update => exact change_cases h
      | merge => exact change_cases h
      | delete => exact delete_cases h
      | query => exact (throw_eq_ok.mp h).elim
      | count => exact (throw_eq_ok.mp h).elim

end

end Mutation

end CypherCompiler
