import CypherCompiler.Proofs.Collision.Projection
import CypherCompiler.Proofs.Outcome.Mutation

namespace CypherCompiler

open Cypher Json Selection Text

-- The name of a key by which a node is found.
def keyNames (start : List String) (key : String) : Region :=
  {w | w = start ++ tokens key}

-- The name of a stored member of an object, and those of a relationship among its members.
def propertyNames (type : NodeType) (start : List String) (key : String) : Region :=
  {w | (type.field? key).bind Field.relation? = none ∧ w = start ++ [key]}

def relationNames (type : NodeType) (start : List String) (key : String) : Region :=
  {w | ∃ rest, ((type.field? key).bind Field.relation?).isSome = true ∧ w = start ++ key :: rest}

-- The names of an operation on related nodes.
def operationNames (start : List String) (key : String) : Region :=
  {w | ∃ rest, IsSimple key ∧ w = start ++ key :: rest}

-- The names of a mutation: of the keys, of the data, and of the selections that are shown.
def mutationNames (node : String) (keys : List String) : Region :=
  namesBelow Mutation.keyPath.tokens ∪
    (namesBelow Mutation.dataPath.tokens ∪ eachOf (childNames [node]) keys)

section

variable {type : NodeType} {start : List String}

theorem keyNames_tellsKeys : TellsKeys (keyNames start) := by
  rintro key key' w rfl heq
  exact tokens_injective (List.append_cancel_left heq)

theorem propertyNames_tellsKeys : TellsKeys (propertyNames type start) := by
  rintro key key' w ⟨-, rfl⟩ ⟨-, heq⟩
  exact (List.cons.inj (List.append_cancel_left heq)).1

theorem relationNames_tellsKeys : TellsKeys (relationNames type start) := by
  rintro key key' w ⟨rest, -, rfl⟩ ⟨rest', -, heq⟩
  exact (List.cons.inj (List.append_cancel_left heq)).1

theorem keyNames_subset_namesBelow (keys : List String) :
    eachOf (keyNames start) keys ⊆ namesBelow start := by
  rintro w ⟨key, -, rfl⟩
  obtain ⟨first, more, hkey⟩ := List.exists_cons_of_ne_nil (tokens_ne_nil key)
  exact ⟨first, more, by rw [hkey]⟩

theorem operationNames_tellsKeys : TellsKeys (operationNames start) := by
  rintro key key' w ⟨rest, -, rfl⟩ ⟨rest', -, heq⟩
  exact (List.cons.inj (List.append_cancel_left heq)).1

theorem operationNames_subset_namesBelow (keys : List String) :
    eachOf (operationNames start) keys ⊆ namesBelow start := by
  rintro w ⟨key, -, rest, -, rfl⟩
  exact ⟨key, rest, rfl⟩

theorem itemNames_subset_operationNames {key : String} (hkey : IsSimple key) (index : Nat) :
    itemNames start key index ⊆ operationNames start key := by
  rintro w ⟨i, rest, -, rfl⟩
  exact ⟨_, hkey, by rw [hkey.tokens_eq]; rfl⟩

theorem itemNames_subset_namesBelow {key : String} (index : Nat) :
    itemNames start key index ⊆ namesBelow (start ++ tokens key) := by
  rintro w ⟨i, rest, -, rfl⟩
  exact ⟨toString i, rest, by rw [List.append_assoc]⟩

-- A member of an object is stored or a relationship.
theorem propertyNames_disjoint_relationNames (keys : List String) :
    Disjoint (eachOf (propertyNames type start) keys) (eachOf (relationNames type start) keys) := by
  rw [Set.disjoint_left]
  rintro w ⟨key, -, hnone, rfl⟩ ⟨other, -, rest, hsome, heq⟩
  have hsame := (List.cons.inj (List.append_cancel_left heq)).1
  rw [← hsame, hnone] at hsome
  cases hsome

theorem object_subset_namesBelow (type : NodeType) (start keys : List String) :
    eachOf (propertyNames type start) keys ∪ eachOf (relationNames type start) keys ⊆
      namesBelow start := by
  rintro w (⟨key, -, -, rfl⟩ | ⟨key, -, rest, -, rfl⟩)
  · exact ⟨key, [], rfl⟩
  · exact ⟨key, rest, rfl⟩

end

theorem KeyMatch.values_keys {type : NodeType} {members : Json.Members}
    {checked : List (String × Json)} (h : values type members = .ok checked) :
    checked.map Prod.fst = members.keys := by
  refine forall₂_map_eq ?_ (values_checks h)
  intro m entry hentry
  obtain ⟨field, scalar, -, -, -, -, rfl⟩ := value_cases hentry
  rfl

theorem KeyMatch.read_draws (type : NodeType) (path : ParameterPath) {members : Json.Members}
    (hkeys : members.keys.Nodup) :
    DraftDraws (eachOf (keyNames path.tokens) members.keys) (read type path members) := by
  unfold read
  apply (draws_lift (values_neverCollides type members)).after
  intro checked _ _ hrun
  obtain ⟨_, hchecked, hr⟩ := lift_eq_ok.mp hrun
  cases hr
  -- the checks are over: from here on the induction is on their results
  rw [← values_keys hchecked] at hkeys ⊢
  clear hchecked hrun
  induction checked with
  | nil => exact draws_pure _
  | cons entry rest ih =>
      obtain ⟨hfresh, hrest⟩ := List.nodup_cons.mp hkeys
      have hvalue : tokens (path.child entry.1).name ∈ keyNames path.tokens entry.1 :=
        path.tokens_name_child _
      rw [List.mapM_cons]
      exact ((Drafting.value_draws hvalue).before fun _ => draws_pure _).cons
        (fun _ _ _ _ => (ih hrest).before fun _ => draws_pure _) keyNames_tellsKeys hfresh

namespace Mutation

variable {type target : NodeType} {path : ParameterPath} {words : List String}

theorem property?_draws (htype : type.HasSimpleNames words) {key : String} (hkey : key ∈ words)
    (v : Json) :
    DraftDraws (propertyNames type path.tokens key) (property? type path key v) := by
  unfold property?
  cases hfield : type.field? key with
  | none => exact draws_throw (by simp)
  | some field =>
      have hmem : field.relation? = none →
          tokens (path.child key).name ∈ propertyNames type path.tokens key := by
        intro hnone
        refine ⟨by simp [hfield, hnone], ?_⟩
        have hsimple := (htype.field hfield (.of_mem hkey)).name
        rw [(NodeType.field?_eq_some hfield).2] at hsimple
        rw [path.tokens_name_child, hsimple.tokens_eq]
      unfold Field.relation? at hmem
      simp only
      cases hkind : field.kind with
      | scalar scalar =>
          rw [hkind] at hmem
          exact (Drafting.value_draws (hmem rfl)).before fun _ => draws_pure _
      | compound compound =>
          rw [hkind] at hmem
          exact (Drafting.value_draws (hmem rfl)).before fun _ => draws_pure _
      | relationship relation => exact draws_pure _
      | computed statement returns => exact draws_throw (by simp)

theorem properties_draws (htype : type.HasSimpleNames words) {skip : List String}
    {members : List (String × Json)} (hwords : membersKeys members ⊆ words)
    (hkeys : (Members.keys members).Nodup) :
    DraftDraws (eachOf (propertyNames type path.tokens) (Members.keys members))
      (properties type path skip members) := by
  induction members with
  | nil =>
      rw [properties]
      exact draws_pure _
  | cons m rest ih =>
      obtain ⟨key, v⟩ := m
      obtain ⟨hfresh, hrest⟩ := List.nodup_cons.mp hkeys
      obtain ⟨hkey, -, hothers⟩ := membersKeys_cons_subset.mp hwords
      rw [properties]
      split
      · exact (ih hothers hrest).mono (eachOf_mono (List.subset_cons_self key _))
      · exact (property?_draws htype hkey v).cons
          (fun _ _ _ _ => (ih hothers hrest).before fun _ => draws_pure _)
          propertyNames_tellsKeys hfresh

theorem createRelated_draws (htarget : target.HasSimpleNames words) (parent node : String)
    (relation : Relation) {members : Json.Members} (hwords : membersKeys members ⊆ words)
    (hkeys : members.keys.Nodup) :
    DraftDraws (eachOf (propertyNames target path.tokens) members.keys)
      (createRelated parent node relation target path members) :=
  (properties_draws htarget hwords hkeys).before fun _ => draws_pure _

-- Claim a node for an object, create it, and go on with what it is related to.
theorem createObject_draws {β : Type} {S : Region} (htarget : target.HasSimpleNames words)
    (parent base : String) (relation : Relation) {members : Json.Members}
    (hwords : membersKeys members ⊆ words) (hkeys : members.keys.Nodup)
    {nested : String → Drafting (List Clause)}
    (hnested : ∀ child, DraftDraws (eachOf (relationNames target path.tokens) members.keys)
      (nested child))
    {finish : Clause → List Clause → Drafting β}
    (hfinish : ∀ clause clauses, DraftDraws S (finish clause clauses))
    (hdisjoint : Disjoint (namesBelow path.tokens) S) :
    DraftDraws (namesBelow path.tokens ∪ S) (do
      let child ← Drafting.claim base
      let clause ← createRelated parent child relation target path members
      let clauses ← nested child
      finish clause clauses) := by
  apply (Drafting.claim_draws base).after
  intro child _ _ _
  have hsubset := object_subset_namesBelow target path.tokens members.keys
  refine ((createRelated_draws htarget parent child relation hwords hkeys).bind
    (fun clause _ _ _ => (hnested child).bind (fun clauses _ _ _ => hfinish clause clauses) ?_)
    ?_).mono ?_
  · exact hdisjoint.mono_left (Set.subset_union_right.trans hsubset)
  · exact Set.disjoint_union_right.mpr ⟨propertyNames_disjoint_relationNames _,
      hdisjoint.mono_left (Set.subset_union_left.trans hsubset)⟩
  · rw [← Set.union_assoc]
    exact Set.union_subset_union_left S hsubset

section

variable {base : String} {index : Nat}

-- The names below one entry are drawn before those below the entries after it.
theorem matchEach_draws {operation : NestedOperation}
    {clause : String → List (String × String) → Clause} {objects : List Json.Members}
    (hobjects : ∀ members ∈ objects, members.keys.Nodup) :
    DraftDraws (itemNames path.tokens operation.name index)
      (matchEach operation clause base target path index objects) := by
  induction objects generalizing index with
  | nil => exact draws_pure _
  | cons members rest ih =>
      obtain ⟨hkeys, hrest⟩ := List.forall_mem_cons.mp hobjects
      rw [matchEach]
      apply (Drafting.claim_draws _).after
      intro name _ _ _
      have hread := KeyMatch.read_draws target (path.indexed operation.name index) hkeys
      rw [ParameterPath.tokens_indexed] at hread
      exact (hread.mono (keyNames_subset_namesBelow _)).item fun keys _ _ _ =>
        (ih hrest).before fun _ => draws_pure _

end

-- The objects of a relationship input hold no key twice.
theorem relatedItems_distinct {field : Field} {v : Json} (hv : v.HasDistinctKeys)
    {objects : List Json.Members} (h : relatedItems field v = .ok objects) :
    ∀ members ∈ objects, members.keys.Nodup := by
  obtain ⟨rfl, -⟩ := relatedItems_cases h
  intro members hmembers
  cases v with
  | obj ms =>
      rw [List.mem_singleton.mp hmembers]
      exact hv.1
  | arr items =>
      obtain ⟨item, hitem, hobject⟩ := List.mem_filterMap.mp hmembers
      cases item with
      | obj ms =>
          cases hobject
          exact (AllHaveDistinctKeys.of_mem hv hitem).1
      | _ => cases hobject
  | _ => cases hmembers

variable {catalog : Catalog}

theorem isSimple_operation {key : String} {operation : NestedOperation}
    (h : NestedOperation.ofName? key = some operation) : IsSimple key := by
  rw [NestedOperation.eq_name_of_ofName? h]
  cases operation <;> decide

mutual

-- The names of an object's relationships follow its keys.
theorem relations_draws (hcatalog : catalog.HasSimpleNames words) {type : NodeType}
    (htype : type.HasSimpleNames words) (node : String) (level : Level) (path : ParameterPath)
    (skip : List String) (members : List (String × Json))
    (hwords : membersKeys members ⊆ words) (hkeys : (Members.keys members).Nodup)
    (hmembers : MembersHaveDistinctKeys members) :
    DraftDraws (eachOf (relationNames type path.tokens) (Members.keys members))
      (relations catalog type node level path skip members) := by
  match members with
  | [] =>
      rw [relations]
      exact draws_pure _
  | (key, v) :: rest =>
      obtain ⟨hfresh, hrest⟩ := List.nodup_cons.mp hkeys
      obtain ⟨hword, hhere, hafter⟩ := membersKeys_cons_subset.mp hwords
      have hothers := relations_draws hcatalog htype node level path skip rest hafter hrest
        hmembers.2
      have hskipped : eachOf (relationNames type path.tokens) (Members.keys rest) ⊆
          eachOf (relationNames type path.tokens) (Members.keys ((key, v) :: rest)) :=
        eachOf_mono (List.subset_cons_self key _)
      rw [relations]
      cases hfield : (type.field? key).filter fun _ => !skip.contains key && !v.isNull with
      | none =>
          exact (draws_pure _).after fun _ _ _ _ => (hothers.mono hskipped).before
            fun _ => draws_pure _
      | some field =>
          have hfound := (Option.filter_eq_some_iff.mp hfield).1
          simp only
          cases hrelation : field.relation? with
          | none =>
              exact (draws_pure _).after fun _ _ _ _ => (hothers.mono hskipped).before
                fun _ => draws_pure _
          | some relation =>
              have hname := (NodeType.field?_eq_some hfound).2
              have hsimple := (htype.field hfound (.of_mem hword)).name
              have hinput := relationInput_draws hcatalog field relation node level path v hhere
                hmembers.1
              have hbelow : namesBelow (path.tokens ++ tokens field.name) ⊆
                  relationNames type path.tokens key := by
                rintro w ⟨first, more, rfl⟩
                refine ⟨first :: more, by simp [hfound, hrelation], ?_⟩
                rw [hsimple.tokens_eq, hname]
                simp
              exact (hinput.mono hbelow).cons (fun _ _ _ _ => hothers.before fun _ => draws_pure _)
                relationNames_tellsKeys hfresh
termination_by sizeOf members

theorem relationInput_draws (hcatalog : catalog.HasSimpleNames words) (field : Field)
    (relation : Relation) (node : String) (level : Level) (path : ParameterPath) (v : Json)
    (hwords : v.allKeys ⊆ words) (hv : v.HasDistinctKeys) :
    DraftDraws (namesBelow (path.tokens ++ tokens field.name))
      (relationInput catalog field relation node level path v) := by
  rw [relationInput.eq_def]
  apply (draws_lift (catalog.require_neverCollides relation.target)).after
  intro target _ _ hrun
  obtain ⟨_, hrequire, hr⟩ := lift_eq_ok.mp hrun
  cases hr
  have htarget := hcatalog.type (Catalog.require_eq_ok.mp hrequire)
  cases v with
  | obj members =>
      have hoperations := operations_draws hcatalog field htarget relation node level
        (path.child field.name) members hwords hv.1 hv.2
      rw [ParameterPath.tokens_child] at hoperations
      have hnamed := hoperations.mono (operationNames_subset_namesBelow _)
      simp only
      split
      · split
        · refine Draws.after (draws_throw ?_) fun _ _ _ _ => hnamed
          simp
        · exact hnamed
      · split
        · exact draws_throw (by simp)
        · rw [← ParameterPath.tokens_child]
          exact (createObject_draws htarget node _ relation hwords hv.1
            (fun child => relations_draws hcatalog htarget child .nested (path.child field.name) []
              members hwords hv.1 hv.2)
            (fun _ _ => draws_pure _) (Set.disjoint_empty _)).mono (Set.union_empty _).subset
  | arr items =>
      have hcreate := (createEach_draws hcatalog htarget relation node node field.name path 0 items
        hwords hv).mono (itemNames_subset_namesBelow 0)
      simp only
      split
      · refine Draws.after (draws_throw ?_) fun _ _ _ _ =>
          (draws_lift (relatedItems_neverCollides field _)).after fun _ _ _ _ => hcreate
        simp
      · exact (draws_lift (relatedItems_neverCollides field _)).after fun _ _ _ _ => hcreate
  | _ => exact draws_throw (by simp)
termination_by sizeOf v

theorem operations_draws (hcatalog : catalog.HasSimpleNames words) (field : Field)
    {target : NodeType} (htarget : target.HasSimpleNames words) (relation : Relation)
    (node : String) (level : Level) (path : ParameterPath) (members : List (String × Json))
    (hwords : membersKeys members ⊆ words) (hkeys : (Members.keys members).Nodup)
    (hmembers : MembersHaveDistinctKeys members) :
    DraftDraws (eachOf (operationNames path.tokens) (Members.keys members))
      (operations catalog field relation target node level path members) := by
  match members with
  | [] =>
      rw [operations]
      exact draws_pure _
  | (key, v) :: rest =>
      obtain ⟨hfresh, hrest⟩ := List.nodup_cons.mp hkeys
      obtain ⟨-, hhere, hlater⟩ := membersKeys_cons_subset.mp hwords
      have hothers := operations_draws hcatalog field htarget relation node level path
        rest hlater hrest hmembers.2
      rw [operations]
      apply (draws_lift (relatedItems_neverCollides field v)).after
      intro objects _ _ hrun
      obtain ⟨_, hobjects, hr⟩ := lift_eq_ok.mp hrun
      cases hr
      have hdistinct := relatedItems_distinct hmembers.1 hobjects
      have hitem (hsimple : IsSimple key) :
          namesBelow (path.tokens ++ tokens key ++ [toString 0]) ⊆
            operationNames path.tokens key :=
        (Set.subset_union_left.trans item_subset_itemNames).trans
          (itemNames_subset_operationNames hsimple 0)
      have hafter (here : List Clause) :
          DraftDraws (eachOf (operationNames path.tokens) (Members.keys rest))
            (do return here ++ (← operations catalog field relation target node level path rest)) :=
        hothers.before fun _ => draws_pure _
      simp only
      cases hkey : NestedOperation.ofName? key with
      | none =>
          refine Draws.after (draws_throw ?_) fun _ _ _ _ => (hafter _).mono
            (eachOf_mono (List.subset_cons_self key _))
          simp
      | some operation =>
          have hsimple := isSimple_operation hkey
          cases operation with
          | create =>
              cases v with
              -- named like the first entry of a list
              | obj ms =>
                  refine (createObject_draws htarget node _ relation hhere hmembers.1.1
                    (fun child => relations_draws hcatalog htarget child .nested
                      (path.indexed key 0) [] ms hhere hmembers.1.1 hmembers.1.2)
                    (fun _ _ => (draws_pure _).after fun _ _ _ _ => hafter _) ?_).mono ?_
                  all_goals rw [ParameterPath.tokens_indexed]
                  · exact (operationNames_tellsKeys.disjoint hfresh).mono_left (hitem hsimple)
                  · exact (Set.union_subset_union_left _ (hitem hsimple)).trans
                      (union_subset_eachOf _ key _)
              | arr items =>
                  have heach := (createEach_draws hcatalog htarget relation node
                    (Alias.child node field.name) key path 0 items hhere hmembers.1).mono
                      (itemNames_subset_operationNames hsimple 0)
                  exact heach.cons (fun _ _ _ _ => hafter _) operationNames_tellsKeys hfresh
              | _ =>
                  exact (draws_pure _).after fun _ _ _ _ => (hafter _).mono
                    (eachOf_mono (List.subset_cons_self key _))
          | connect =>
              obtain rfl := NestedOperation.eq_name_of_ofName? hkey
              simp only [connectEach_eq]
              exact ((matchEach_draws hdistinct).mono
                (itemNames_subset_operationNames hsimple 0)).cons (fun _ _ _ _ => hafter _)
                  operationNames_tellsKeys hfresh
          | disconnect =>
              obtain rfl := NestedOperation.eq_name_of_ofName? hkey
              simp only [disconnectEach_eq]
              split
              · refine Draws.after (draws_throw ?_) fun _ _ _ _ => (hafter _).mono
                  (eachOf_mono (List.subset_cons_self _ _))
                simp
              · exact ((matchEach_draws hdistinct).mono
                  (itemNames_subset_operationNames hsimple 0)).cons (fun _ _ _ _ => hafter _)
                    operationNames_tellsKeys hfresh
termination_by sizeOf members

theorem createEach_draws (hcatalog : catalog.HasSimpleNames words) {target : NodeType}
    (htarget : target.HasSimpleNames words) (relation : Relation) (parent base key : String)
    (path : ParameterPath) (index : Nat) (items : List Json) (hwords : itemsKeys items ⊆ words)
    (hitems : AllHaveDistinctKeys items) :
    DraftDraws (itemNames path.tokens key index)
      (createEach catalog relation target parent base key path index items) := by
  match items with
  | [] =>
      rw [createEach]
      exact draws_pure _
  | item :: rest =>
      obtain ⟨hhere, hlater⟩ := itemsKeys_cons_subset.mp hwords
      have hothers := createEach_draws hcatalog htarget relation parent base key path (index + 1)
        rest hlater hitems.2
      cases item with
      | obj members =>
          rw [createEach]
          refine (createObject_draws htarget parent _ relation hhere hitems.1.1
            (fun child => relations_draws hcatalog htarget child .nested (path.indexed key index) []
              members hhere hitems.1.1 hitems.1.2)
            (fun _ _ => hothers.before fun _ => draws_pure _) ?_).mono ?_
          all_goals rw [ParameterPath.tokens_indexed]
          · exact namesBelow_item_disjoint
          · exact item_subset_itemNames
      | _ => exact hothers.mono (Set.subset_union_right.trans item_subset_itemNames)
termination_by sizeOf items

end

variable {setting : Setting} {node : String} {s : Selection}

section

variable (hcatalog : setting.catalog.HasSimpleNames words) (htype : type.HasSimpleNames words)
  (hnode : IsSimple node) (hkeys : s.HasDistinctKeys)
  (hbelow : ∀ t ∈ nodesOfAll s.selections, t.NamedApart words)

include hcatalog htype hnode hkeys hbelow

theorem result_draws :
    DraftDraws (eachOf (childNames [node]) (s.selections.map responseKey))
      (result setting type node s) := by
  unfold result
  apply (planSelections_draws setting.catalog node type.name s.selections).after
  intro plan _ _ hplan
  have hnames := Plan.make_namesBelow (planSelections_cases hplan).1
  rw [← hnode.tokens_eq]
  exact projectAll_draws hcatalog htype hnames s.selections hkeys.siblings hbelow

-- The data is written under its own paths, before the result is read.
theorem written_draws (hdata : node ≠ Argument.data) (level : Level) (skip : List String)
    {members : Json.Members} (hwords : membersKeys members ⊆ words)
    (hmembers : (Json.obj members).HasDistinctKeys)
    {finish : List (String × Cypher.Written) → List Clause → List Item → Statement} :
    DraftDraws (namesBelow dataPath.tokens ∪
        eachOf (childNames [node]) (s.selections.map responseKey))
      (do
        let written ← properties type dataPath skip members
        let related ← relations setting.catalog type node level dataPath skip members
        let items ← result setting type node s
        return finish written related items) := by
  have hsubset := object_subset_namesBelow type dataPath.tokens members.keys
  have hresult := result_draws hcatalog htype hnode hkeys hbelow
  have hdisjoint : Disjoint (namesBelow dataPath.tokens)
      (eachOf (childNames [node]) (s.selections.map responseKey)) := by
    rw [Set.disjoint_left]
    rintro w ⟨first, more, rfl⟩ ⟨key, -, first', more', -, -, heq⟩
    exact hdata (List.cons.inj heq).1.symm
  refine ((properties_draws htype hwords hmembers.1).bind (fun written _ _ _ =>
    (relations_draws hcatalog htype node level dataPath skip members hwords hmembers.1
      hmembers.2).bind (fun related _ _ _ => hresult.before fun _ => draws_pure _) ?_) ?_).mono ?_
  · exact hdisjoint.mono_left (Set.subset_union_right.trans hsubset)
  · exact Set.disjoint_union_right.mpr ⟨propertyNames_disjoint_relationNames _,
      hdisjoint.mono_left (Set.subset_union_left.trans hsubset)⟩
  · rw [← Set.union_assoc]
    exact Set.union_subset_union_left _ hsubset

omit hcatalog htype hnode hbelow in
theorem readArgument_draws :
    DraftDraws (namesBelow keyPath.tokens)
      (KeyMatch.readArgument type keyPath (s.argument? Argument.key)) := by
  have hmembers :
      (Members.keys (((s.argument? Argument.key).bind Json.asObject?).getD [])).Nodup := by
    cases hv : s.argument? Argument.key with
    | none => exact List.nodup_nil
    | some v =>
        have hvalue := hkeys.arguments.argument? hv
        cases v with
        | obj members => exact hvalue.1
        | _ => exact List.nodup_nil
  exact (KeyMatch.read_draws type keyPath hmembers).mono (keyNames_subset_namesBelow _)

variable (hwords : membersKeys s.arguments ⊆ words)
  (hfree : node ∉ [Argument.filter, Argument.data, Argument.key])

include hwords hfree

theorem create_draws :
    DraftDraws (mutationNames node (s.selections.map responseKey))
      (create setting type node s) := by
  simp only [List.mem_cons, List.not_mem_nil, or_false, not_or] at hfree
  unfold create
  apply (draws_lift (data_neverCollides s)).after
  intro members _ _ hrun
  obtain ⟨_, hdata, hr⟩ := lift_eq_ok.mp hrun
  cases hr
  have hargument := data_eq_ok.mp hdata
  exact (written_draws hcatalog htype hnode hkeys hbelow hfree.2.1 .created []
    (List.Subset.trans (allKeys_argument? hargument) hwords)
    (hkeys.arguments.argument? hargument)).mono Set.subset_union_right

theorem change_draws (merge : Bool) :
    DraftDraws (mutationNames node (s.selections.map responseKey))
      (change setting type node merge s) := by
  simp only [List.mem_cons, List.not_mem_nil, or_false, not_or] at hfree
  unfold change
  apply (readArgument_draws hkeys).bind
  · intro keys _ _ _
    apply (draws_lift (data_neverCollides s)).after
    intro members _ _ hrun
    obtain ⟨_, hdata, hr⟩ := lift_eq_ok.mp hrun
    cases hr
    have hargument := data_eq_ok.mp hdata
    exact written_draws hcatalog htype hnode hkeys hbelow hfree.2.1 .changed _
      (List.Subset.trans (allKeys_argument? hargument) hwords)
      (hkeys.arguments.argument? hargument)
  · refine Set.disjoint_union_right.mpr ⟨?_, ?_⟩ <;> rw [Set.disjoint_left]
    · rintro w ⟨first, more, rfl⟩ ⟨first', more', heq⟩
      exact absurd (List.cons.inj heq).1 (by decide)
    · rintro w ⟨first, more, rfl⟩ ⟨key, -, first', more', -, -, heq⟩
      exact hfree.2.2 (List.cons.inj heq).1.symm

omit hwords in
theorem delete_draws :
    DraftDraws (mutationNames node (s.selections.map responseKey))
      (delete setting type node s) := by
  simp only [List.mem_cons, List.not_mem_nil, or_false, not_or] at hfree
  unfold delete
  refine ((readArgument_draws hkeys).bind (fun keys _ _ _ => (Drafting.claim_draws _).after
    fun _ _ _ _ => (result_draws hcatalog htype hnode hkeys hbelow).before
      fun _ => draws_pure _) ?_).mono ?_
  · rw [Set.disjoint_left]
    rintro w ⟨first, more, rfl⟩ ⟨key, -, first', more', -, -, heq⟩
    exact hfree.2.2 (List.cons.inj heq).1.symm
  · exact Set.union_subset_union_right _ Set.subset_union_right

end

-- The keys, the data and the result of a mutation have paths of their own.
theorem statement_draws (hcatalog : setting.catalog.HasSimpleNames words)
    (htype : type.HasSimpleNames words) (hroot : type.HasSimpleRoot) (hkeys : s.HasDistinctKeys)
    (hwords : membersKeys s.arguments ⊆ words)
    (hbelow : ∀ t ∈ nodesOfAll s.selections, t.NamedApart words) (operation : Operation) :
    DraftDraws (mutationNames (Alias.root type.name) (s.selections.map responseKey))
      (statement setting type operation s) := by
  unfold statement
  apply (Drafting.reserve_draws _).after
  intro _ _ _ _
  split
  · exact draws_throw (by simp)
  · cases operation with
    | create => exact create_draws hcatalog htype hroot.simple hkeys hbelow hwords hroot.free
    | update =>
        exact change_draws hcatalog htype hroot.simple hkeys hbelow hwords hroot.free false
    | merge => exact change_draws hcatalog htype hroot.simple hkeys hbelow hwords hroot.free true
    | delete => exact delete_draws hcatalog htype hroot.simple hkeys hbelow hroot.free
    | query => exact draws_throw (by simp)
    | count => exact draws_throw (by simp)

end Mutation

end CypherCompiler
