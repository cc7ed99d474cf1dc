import CypherCompiler.Proofs.Cypher.Wording
import CypherCompiler.Proofs.Identity.Mutation

namespace CypherCompiler

open Cypher Parameters

-- The labels and the keys by which a clause looks for a node.
def Cypher.Clause.keyMatch? : Clause → Option (List String × List (String × String))
  | .find node | .merge node | .connect _ _ node => some (node.labels, node.properties)
  | .disconnect _ _ _ labels keys => some (labels, keys)
  | _ => none

def Cypher.Statement.keyMatches : Statement → List (List String × List (String × String))
  | .write clauses _ _ _ => clauses.filterMap Clause.keyMatch?
  | .delete node _ _ _ => [(node.labels, node.properties)]
  | _ => []

-- The keys of a clause stand in its text behind the labels of the node.
theorem Cypher.Clause.occurs_keys {clause : Clause} {types : List String}
    {keys : List (String × String)} (h : clause.keyMatch? = some (types, keys)) :
    Text.Occurs (Wording.keys types keys) (Wording.clause clause) := by
  have hmatched (node : NodeWith String) :
      Text.Occurs (Wording.keys node.labels node.properties) (Wording.matched node) :=
    ((Text.Occurs.refl _).append_left _).append_right ")"
  cases clause with
  | find node =>
      cases h
      exact (hmatched node).append_left "MATCH "
  | merge node =>
      cases h
      exact (hmatched node).append_left "MERGE "
  | connect parent relation node =>
      cases h
      unfold Wording.clause Wording.connected
      iterate 7 apply Text.Occurs.append_right
      exact (hmatched node).append_left _
  | disconnect parent relation edge =>
      cases h
      unfold Wording.clause Wording.disconnected
      iterate 3 apply Text.Occurs.append_right
      exact (Text.Occurs.refl _).append_left _
  | create | createRelated | set => cases h

theorem Cypher.Statement.occurs_keys {statement : Statement} {types : List String}
    {keys : List (String × String)} (h : (types, keys) ∈ statement.keyMatches) :
    Text.Occurs (Wording.keys types keys) statement.render := by
  rw [render_eq]
  cases statement with
  | read | count => cases h
  | write clauses node items key =>
      obtain ⟨clause, hclause, hkeys⟩ := List.mem_filterMap.mp h
      exact (Clause.occurs_keys hkeys).intercalate " "
        (List.mem_append_left _ (List.mem_map_of_mem hclause))
  | delete node deleted items key =>
      cases List.mem_singleton.mp h
      exact (@Clause.occurs_keys (.find node) _ _ rfl).intercalate " " List.mem_cons_self

namespace KeySite

variable {site : KeySite} {d d' : Draft} {keys : List (String × String)}

def members (site : KeySite) : Json.Members := (site.argument.bind Json.asObject?).getD []

-- What a statement is given for a value that identifies a node.
def keyMatch (site : KeySite) : List String × List (String × String) :=
  (site.type.labels, KeyMatch.bound site.path site.members)

def hoisted (site : KeySite) : Json.Members :=
  KeyMatch.hoisted site.type site.path site.members

theorem members_eq {members : Json.Members}
    (h : site.type.IdentifiedBy site.argument members) : site.members = members := by
  rw [KeySite.members, h.1]
  rfl

end KeySite

-- A site whose value was read identifies a node, and all its keys were taken.
theorem KeySite.read_emits (site : KeySite) {d d' : Draft} {keys : List (String × String)}
    (h : site.read d = .ok (keys, d')) :
    (∃ members, site.type.IdentifiedBy site.argument members) ∧
      keys = KeyMatch.bound site.path site.members ∧
      Supplies d.parameters d'.parameters site.hoisted := by
  obtain ⟨members, hkeys⟩ | ⟨e, hfault⟩ :=
    KeyMatch.identified_or_fault site.type site.argument
  · obtain ⟨e, hread, -, hparameters⟩ | ⟨name, hread⟩ :=
      KeyMatch.readArgument_of_identified site.path d hkeys
    · cases hread.symm.trans h
      have hsupplied : Supplies d.parameters d'.parameters [] := KeyMatch.read_supplies hread
      rw [hoisted, members_eq hkeys]
      exact ⟨⟨members, hkeys⟩, rfl, hsupplied.of_members hparameters⟩
    · cases hread.symm.trans h
  · cases (KeyMatch.readArgument_of_fault hfault).symm.trans h

namespace Mutation

open CreatedObject (related?)

-- The items of the operations among the members of an object.
def operationSites (target : NodeType) (path : ParameterPath) (members : Json.Members) :
    List KeySite :=
  members.flatMap fun (key, v) =>
    match NestedOperation.ofName? key with
    | some .connect | some .disconnect =>
      v.objects.zipIdx.map fun (object, index) =>
        ⟨target, path.indexed key index, some (.obj object)⟩
    | _ => []

-- Operations are named by the relationships of the mutated node only.
def inputSites (target : NodeType) (atRoot : Bool) (path : ParameterPath) : Json → List KeySite
  | .obj named =>
    if atRoot && NestedOperation.areNamedBy named target then operationSites target path named
    else []
  | _ => []

def dataSites (catalog : Catalog) (type : NodeType) (atRoot : Bool) (path : ParameterPath)
    (skip : List String) (members : Json.Members) : List KeySite :=
  (unskipped skip members).flatMap fun (key, v) =>
    match related? catalog type key with
    | some (_, target) => inputSites target atRoot (path.child key) v
    | none => []

-- The values of a mutation that have to identify nodes, in the order in which they are read.
def keySites (catalog : Catalog) (type : NodeType) (operation : Operation) (s : Selection) :
    List KeySite :=
  let argument : KeySite := ⟨type, keyPath, s.argument? Argument.key⟩
  let members := ((s.argument? Argument.data).bind Json.asObject?).getD []
  match operation with
  | .create => dataSites catalog type true dataPath [] members
  | .update => argument :: dataSites catalog type true dataPath [] members
  | .merge => argument :: dataSites catalog type true dataPath argument.members.keys members
  | .delete => [argument]
  | .query | .count => []

-- Clauses that look for the nodes of the sites, and for no others.
structure Emits (sites : List KeySite) (clauses : List Clause) (ps qs : Parameters) : Prop where
  keys : clauses.filterMap Clause.keyMatch? = sites.map KeySite.keyMatch
  identified : ∀ site ∈ sites, ∃ members, site.type.IdentifiedBy site.argument members
  supplied : Supplies ps qs (sites.flatMap KeySite.hoisted)

namespace Emits

variable {sites others : List KeySite} {clauses more : List Clause} {ps ms qs : Parameters}

theorem nothing (ps : Parameters) : Emits [] [] ps ps :=
  ⟨rfl, by simp, .refl _⟩

theorem append (h : Emits sites clauses ps ms) (k : Emits others more ms qs) :
    Emits (sites ++ others) (clauses ++ more) ps qs := by
  refine ⟨?_, ?_, ?_⟩
  · rw [List.filterMap_append, List.map_append, h.keys, k.keys]
  · rw [List.forall_mem_append]
    exact ⟨h.identified, k.identified⟩
  · rw [List.flatMap_append]
    exact h.supplied.trans k.supplied

-- A clause that looks for the node of one site.
theorem read (site : KeySite) {keys : List (String × String)} {clause : Clause} {d d' : Draft}
    (h : site.read d = .ok (keys, d'))
    (hclause : clause.keyMatch? = some (site.type.labels, keys)) :
    Emits [site] [clause] d.parameters d'.parameters := by
  obtain ⟨hidentified, rfl, hsupplied⟩ := KeySite.read_emits site h
  refine ⟨?_, by simpa using hidentified, by simpa using hsupplied⟩
  rw [List.filterMap_cons_some hclause]
  rfl

-- A clause that looks for no node.
theorem other {clause : Clause} (h : Supplies ps qs [])
    (hclause : clause.keyMatch? = none) : Emits [] [clause] ps qs :=
  ⟨by rw [List.filterMap_cons_none hclause]; rfl, by simp, h⟩

end Emits

variable {catalog : Catalog} {target : NodeType} {path : ParameterPath} {relation : Relation}

theorem matchEach_emits {operation : NestedOperation}
    {clause : String → List (String × String) → Clause}
    (hclause : ∀ name keys, (clause name keys).keyMatch? = some (target.labels, keys))
    {base : String} {index : Nat} {objects : List Json.Members} {clauses : List Clause}
    {d d' : Draft}
    (h : matchEach operation clause base target path index objects d = .ok (clauses, d')) :
    Emits ((objects.zipIdx index).map fun (object, index) =>
      ⟨target, path.indexed operation.name index, some (.obj object)⟩)
      clauses d.parameters d'.parameters := by
  induction objects generalizing index d clauses with
  | nil =>
      cases matchEach_nil_eq_ok.mp h
      exact .nothing _
  | cons members rest ih =>
      obtain ⟨keys, more, e, hkeys, hmore, rfl⟩ := matchEach_cons_cases h
      exact (Emits.read ⟨target, _, some (.obj members)⟩ hkeys (hclause _ keys)).append (ih hmore)

-- Below the relationships of the root nothing is looked for.
theorem inputSites_below (target : NodeType) (path : ParameterPath) (v : Json) :
    inputSites target false path v = [] := by
  cases v <;> rfl

theorem dataSites_below (catalog : Catalog) (type : NodeType) (path : ParameterPath)
    (skip : List String) (members : Json.Members) :
    dataSites catalog type false path skip members = [] := by
  rw [dataSites, List.flatMap_eq_nil_iff]
  intro m _
  dsimp only
  split
  · exact inputSites_below _ _ _
  · rfl

-- A node that is created is not looked for, and neither is any below it.
theorem createRelated_emits {parent node : String} {skip : List String}
    {members : Json.Members} {clause : Clause} {more : List Clause} {aliases : AliasRegistry}
    {e : Draft} {ps qs : Parameters}
    (h : createRelated parent node relation target path members ⟨aliases, ps⟩ =
      .ok (clause, e))
    (hbelow : Emits (dataSites catalog target Level.nested.allowsOperations path skip members)
      more e.parameters qs) :
    Emits [] (clause :: more) ps qs := by
  obtain ⟨written, -, rfl⟩ := createRelated_cases h
  rw [show Level.nested.allowsOperations = false from rfl, dataSites_below] at hbelow
  exact (Emits.other (createRelated_supplies h) rfl).append hbelow

theorem dataSites_cons (catalog : Catalog) (type : NodeType) (atRoot : Bool)
    (path : ParameterPath) (skip : List String) (key : String) (v : Json)
    (members : Json.Members) :
    dataSites catalog type atRoot path skip ((key, v) :: members) =
      (if skip.contains key then [] else
        match related? catalog type key with
        | some (_, target) => inputSites target atRoot (path.child key) v
        | none => []) ++
        dataSites catalog type atRoot path skip members := by
  rw [dataSites, unskipped_cons]
  split
  · rfl
  · exact List.flatMap_cons

theorem operationSites_cons (target : NodeType) (path : ParameterPath) (key : String) (v : Json)
    (members : Json.Members) :
    operationSites target path ((key, v) :: members) =
      (match NestedOperation.ofName? key with
        | some .connect | some .disconnect =>
          v.objects.zipIdx.map fun (object, index) =>
            ⟨target, path.indexed key index, some (.obj object)⟩
        | _ => []) ++ operationSites target path members :=
  List.flatMap_cons

mutual

-- The clauses for related nodes look for the items of the operations, in their order.
theorem relations_emits {type : NodeType} {node : String} {level : Level} {path : ParameterPath}
    {skip : List String} (members : List (String × Json)) {clauses : List Clause} {d d' : Draft}
    (h : relations catalog type node level path skip members d = .ok (clauses, d')) :
    Emits (dataSites catalog type level.allowsOperations path skip members) clauses d.parameters
      d'.parameters := by
  match members, h with
  | [], h =>
      cases relations_nil_eq_ok.mp h
      exact .nothing _
  | (key, v) :: rest, h =>
      obtain ⟨here, more, e, hhere, hmore, rfl⟩ := relations_cons_cases h
      rw [dataSites_cons]
      refine .append ?_ (relations_emits rest hmore)
      obtain ⟨rfl, rfl, hnone⟩ | ⟨field, relation, hfield, hskip, -, hrelation, hinput⟩ := hhere
      · split
        · exact .nothing _
        · rename_i hskip
          split
          · -- a relationship that is not looked at was given as null
            rename_i relation target hrelated
            obtain hnull | hplain := hnone.resolve_left hskip
            · cases v with
              | null => exact .nothing _
              | _ => cases hnull
            · simp [related?, hplain] at hrelated
          · exact .nothing _
      · obtain ⟨target, htarget, hemits⟩ := relationInput_emits v hinput
        have hrelated : related? catalog type key = some (relation, target) := by
          simp [related?, hfield, hrelation, htarget]
        rw [if_neg (by rw [hskip]; simp), hrelated, ← (NodeType.field?_eq_some hfield).2]
        exact hemits
termination_by sizeOf members

theorem relationInput_emits {field : Field} {relation : Relation} {node : String}
    {level : Level} {path : ParameterPath} (v : Json) {clauses : List Clause} {d d' : Draft}
    (h : relationInput catalog field relation node level path v d = .ok (clauses, d')) :
    ∃ target, catalog.type? relation.target = some target ∧
      Emits (inputSites target level.allowsOperations (path.child field.name) v) clauses
        d.parameters d'.parameters := by
  obtain ⟨target, htarget, houtcome⟩ := relationInput_cases h
  refine ⟨target, htarget, ?_⟩
  cases houtcome with
  | operations hnamed hallowed hclauses =>
      rw [inputSites, hnamed, hallowed, Bool.and_self, if_pos rfl]
      exact operations_emits _ hclauses
  | created hnamed _ hclause hmore =>
      rw [inputSites, hnamed, Bool.and_false, if_neg Bool.false_ne_true]
      exact createRelated_emits hclause (relations_emits _ hmore)
  | createdEach _ _ hclauses => exact createEach_emits _ hclauses
termination_by sizeOf v

theorem operations_emits {field : Field} {relation : Relation} {target : NodeType}
    {node : String} {level : Level} {path : ParameterPath} (members : List (String × Json))
    {clauses : List Clause} {d d' : Draft}
    (h : operations catalog field relation target node level path members d =
      .ok (clauses, d')) :
    Emits (operationSites target path members) clauses d.parameters d'.parameters := by
  match members, h with
  | [], h =>
      cases operations_nil_eq_ok.mp h
      exact .nothing _
  | (key, v) :: rest, h =>
      obtain ⟨objects, here, more, e, hitems, houtcome, hmore, rfl⟩ := operations_cons_cases h
      rw [operationSites_cons]
      refine .append ?_ (operations_emits rest hmore)
      obtain ⟨rfl, -⟩ := relatedItems_cases hitems
      cases houtcome with
      | create hkey hclause hnested =>
          rw [hkey]
          exact createRelated_emits hclause (relations_emits _ hnested)
      | createEach hkey hclauses =>
          rw [hkey]
          exact createEach_emits _ hclauses
      | connect hkey hclauses =>
          rw [hkey, NestedOperation.eq_name_of_ofName? hkey]
          rw [connectEach_eq] at hclauses
          exact matchEach_emits (fun _ _ => rfl) hclauses
      | disconnect hkey _ hclauses =>
          rw [hkey, NestedOperation.eq_name_of_ofName? hkey]
          rw [disconnectEach_eq] at hclauses
          exact matchEach_emits (fun _ _ => rfl) hclauses
termination_by sizeOf members

theorem createEach_emits {relation : Relation} {target : NodeType}
    {parent base key : String} {path : ParameterPath} {index : Nat} (items : List Json)
    {clauses : List Clause} {d d' : Draft}
    (h : createEach catalog relation target parent base key path index items d =
      .ok (clauses, d')) :
    Emits [] clauses d.parameters d'.parameters := by
  match items, h with
  | [], h =>
      cases createEach_nil_eq_ok.mp h
      exact .nothing _
  | item :: rest, h =>
      obtain ⟨-, hrest⟩ | ⟨members, clause, nested, more, e, f, rfl, hclause, hnested, hmore,
        rfl⟩ := createEach_cons_cases h
      · exact createEach_emits rest hrest
      · exact (createRelated_emits hclause (relations_emits members hnested)).append
          (createEach_emits rest hmore)
termination_by sizeOf items

end

-- A run that ends well has come to every site.
section Examined

variable {type : NodeType} {field : Field} {node : String} {level : Level} {skip : List String}
  {site : KeySite} {members : Json.Members} {clauses : List Clause} {d d' : Draft}

theorem matchEach_examined {operation : NestedOperation}
    {clause : String → List (String × String) → Clause} {base : String}
    {earlier later : List Json.Members}
    (h : matchEach operation clause base target path 0 (earlier ++ later) d =
      .ok (clauses, d')) :
    ∃ done e, matchEach operation clause base target path 0 earlier d = .ok (done, e) := by
  rw [matchEach_append, bind_eq_ok] at h
  obtain ⟨done, e, hearlier, -⟩ := h
  exact ⟨done, e, hearlier⟩

theorem exists_split_of_mem_zipIdx {α : Type} {as : List α} {a : α} {index : Nat}
    (h : (a, index) ∈ as.zipIdx) :
    ∃ earlier later, as = earlier ++ a :: later ∧ index = earlier.length := by
  obtain ⟨hindex, hat⟩ := List.getElem?_eq_some_iff.mp (List.mem_zipIdx_iff_getElem?.mp h)
  dsimp only at hindex hat
  refine ⟨as.take index, as.drop (index + 1), ?_, ?_⟩
  · rw [← hat, List.getElem_cons_drop, List.take_append_drop]
  · exact (List.length_take_of_le hindex.le).symm

theorem operations_examined
    (h : operations catalog field relation target node level path members d = .ok (clauses, d'))
    (hsite : site ∈ operationSites target path members) :
    ∃ ps, OperationsExamine catalog field relation target node level path members d site ps := by
  obtain ⟨⟨key, v⟩, hmem, hitem⟩ := List.mem_flatMap.mp hsite
  clear hsite
  obtain ⟨before, after, rfl⟩ := List.append_of_mem hmem
  rw [operations_append, bind_eq_ok] at h
  obtain ⟨done, e, hbefore, hrest⟩ := h
  obtain ⟨more, _, hrest, -⟩ := bind_eq_ok.mp hrest
  obtain ⟨objects, here, others, f, hitems, houtcome, -, -⟩ := operations_cons_cases hrest
  obtain ⟨rfl, -⟩ := relatedItems_cases hitems
  dsimp only at hitem
  cases houtcome with
  | create hkey | createEach hkey =>
      rw [hkey] at hitem
      cases hitem
  | connect hkey hclauses =>
      rw [hkey, NestedOperation.eq_name_of_ofName? hkey] at hitem
      obtain ⟨⟨object, index⟩, hobject, rfl⟩ := List.mem_map.mp hitem
      obtain ⟨earlier, later, hsplit, rfl⟩ := exists_split_of_mem_zipIdx hobject
      rw [hsplit] at hitems hclauses
      rw [connectEach_eq] at hclauses
      obtain ⟨connected, g, hearlier⟩ := matchEach_examined hclauses
      rw [← connectEach_eq] at hearlier
      exact ⟨_, .connect hbefore hkey hitems hearlier⟩
  | disconnect hkey hlevel hclauses =>
      rw [hkey, NestedOperation.eq_name_of_ofName? hkey] at hitem
      obtain ⟨⟨object, index⟩, hobject, rfl⟩ := List.mem_map.mp hitem
      obtain ⟨earlier, later, hsplit, rfl⟩ := exists_split_of_mem_zipIdx hobject
      rw [hsplit] at hitems hclauses
      rw [disconnectEach_eq] at hclauses
      obtain ⟨disconnected, g, hearlier⟩ := matchEach_examined hclauses
      rw [← disconnectEach_eq] at hearlier
      exact ⟨_, .disconnect hbefore hkey hlevel hitems hearlier⟩

theorem related?_eq_some {key : String}
    (h : related? catalog type key = some (relation, target)) :
    ∃ field, type.field? key = some field ∧ field.relation? = some relation ∧
      catalog.type? relation.target = some target := by
  unfold CreatedObject.related? at h
  simp only [Option.bind_eq_bind, Option.bind_eq_some_iff, Option.pure_def, Option.some.injEq,
    Prod.mk.injEq] at h
  obtain ⟨_, ⟨field, hfield, hrelation⟩, _, htarget, rfl, rfl⟩ := h
  exact ⟨field, hfield, hrelation, htarget⟩

theorem relations_examined (hlevel : level.allowsOperations = true)
    (h : relations catalog type node level path skip members d = .ok (clauses, d'))
    (hsite : site ∈ dataSites catalog type true path skip members) :
    ∃ ps, RelationsExamine catalog type node level path skip members d site ps := by
  obtain ⟨⟨key, v⟩, hmem, hinput⟩ := List.mem_flatMap.mp hsite
  clear hsite
  obtain ⟨hmem, hskip⟩ := List.mem_filter.mp hmem
  obtain ⟨before, after, rfl⟩ := List.append_of_mem hmem
  rw [relations_append, bind_eq_ok] at h
  obtain ⟨done, e, hbefore, hrest⟩ := h
  obtain ⟨more, _, hrest, -⟩ := bind_eq_ok.mp hrest
  obtain ⟨here, others, f, hhere, -, -⟩ := relations_cons_cases hrest
  have hskipped : skip.contains key = false := by simpa using hskip
  dsimp only at hinput
  split at hinput
  · rename_i relation target hrelated
    cases v with
    | obj named =>
        rw [inputSites, Bool.true_and] at hinput
        split at hinput
        · rename_i hnamed
          obtain ⟨field, hfield, hrelation, htarget⟩ := related?_eq_some hrelated
          obtain ⟨-, -, hnone⟩ | ⟨found, relation', hfound, -, -, hrelation', hread⟩ := hhere
          · rw [hfield, Option.bind_some, hrelation] at hnone
            obtain hskip | hnull | hplain := hnone
            · cases hskip.symm.trans hskipped
            · cases hnull
            · cases hplain
          · obtain rfl : found = field := Option.some.inj (hfound.symm.trans hfield)
            obtain rfl : relation' = relation := Option.some.inj (hrelation'.symm.trans hrelation)
            obtain ⟨target', htarget', houtcome⟩ := relationInput_cases hread
            obtain rfl : target' = target := Option.some.inj (htarget'.symm.trans htarget)
            cases houtcome with
            | operations _ _ hclauses =>
                rw [← (NodeType.field?_eq_some hfield).2] at hinput
                obtain ⟨ps, hexamined⟩ := operations_examined hclauses hinput
                exact ⟨ps, .operations hbefore hfield hskipped hrelation htarget hnamed hlevel
                  hexamined⟩
            | created hother =>
                rw [hnamed] at hother
                cases hother
        · cases hinput
    | _ => cases hinput
  · cases hinput

variable {setting : Setting} {s : Selection} {operation : Operation} {statement : Statement}

theorem statement_arguments
    (h : Mutation.statement setting type operation s d = .ok (statement, d')) :
    s.arguments.keys.find? (!(allowedArguments operation).contains ·) = none := by
  cases hfind : s.arguments.keys.find? (!(allowedArguments operation).contains ·) with
  | none => rfl
  | some name =>
      unfold Mutation.statement at h
      simp only [hfind, bind_eq_ok] at h
      obtain ⟨_, _, -, hthrow⟩ := h
      exact (throw_eq_ok.mp hthrow).elim

-- A merge looks past its keys.
theorem keySites_change {keys : List (String × String)} {c : Draft}
    (hoperation : (operation = .update ∧ skip = []) ∨
      (operation = .merge ∧ skip = keys.map Prod.fst))
    (hkeys : KeyMatch.readArgument type keyPath (s.argument? Argument.key) d = .ok (keys, c))
    (hdata : s.argument? Argument.data = some (.obj members)) :
    keySites catalog type operation s =
      ⟨type, keyPath, s.argument? Argument.key⟩ ::
        dataSites catalog type true dataPath skip members := by
  obtain ⟨rfl, rfl⟩ | ⟨rfl, rfl⟩ := hoperation
  · rw [keySites, hdata]
    rfl
  · obtain ⟨-, rfl, -⟩ :=
      KeySite.read_emits ⟨type, keyPath, s.argument? Argument.key⟩ hkeys
    rw [keySites, hdata, KeyMatch.bound_keys]
    rfl

theorem statement_examined
    (h : StatementOutcome setting type node s operation d statement d')
    (hsite : site ∈ keySites setting.catalog type operation s) :
    ∃ ps, Examines setting type node s operation d site ps := by
  cases h with
  | create hdata hwritten hrelated hitems =>
      rw [keySites, hdata] at hsite
      obtain ⟨ps, hexamined⟩ := relations_examined rfl hrelated hsite
      exact ⟨ps, .created hdata hwritten hexamined⟩
  | @change operation keys members skip written related items found d c e f d' hoperation hkeys
      hdata hwritten hrelated hitems =>
      have hoperation : (operation = .update ∧ skip = []) ∨
          (operation = .merge ∧ skip = keys.map Prod.fst) :=
        hoperation.imp (fun h => ⟨h.1, h.2.1⟩) fun h => ⟨h.1, h.2.1⟩
      rw [keySites_change hoperation hkeys hdata, List.mem_cons] at hsite
      obtain rfl | hsite := hsite
      · refine ⟨_, .argument ?_⟩
        obtain ⟨rfl, -⟩ | ⟨rfl, -⟩ := hoperation <;> simp
      · obtain ⟨ps, hexamined⟩ := relations_examined rfl hrelated hsite
        exact ⟨ps, .changed hoperation hkeys hdata hwritten hexamined⟩
  | delete hkeys hitems =>
      obtain rfl := List.mem_singleton.mp hsite
      exact ⟨_, .argument (by simp)⟩

-- The statement looks for the nodes of its sites and for no others.
theorem statement_emits
    (h : StatementOutcome setting type node s operation d statement d') :
    statement.keyMatches = (keySites setting.catalog type operation s).map KeySite.keyMatch ∧
      (∀ site ∈ keySites setting.catalog type operation s,
        ∃ members, site.type.IdentifiedBy site.argument members) ∧
      Supplies d.parameters d'.parameters
        ((keySites setting.catalog type operation s).flatMap KeySite.hoisted) := by
  cases h with
  | create hdata hwritten hrelated hitems =>
      have hroot := (properties_creates hwritten).2.weaken
      obtain ⟨hkeys, hidentified, hsupplied⟩ := relations_emits _ hrelated
      rw [keySites, hdata]
      refine ⟨?_, hidentified, ?_⟩
      · rw [Statement.keyMatches, List.filterMap_cons_none rfl, hkeys]
        rfl
      · exact (hroot.trans hsupplied).then_any (result_supplies hitems)
  | @change operation keys members skip written related items found d c e f d' hoperation hkeys
      hdata hwritten hrelated hitems =>
      have hoperation' : (operation = .update ∧ skip = []) ∨
          (operation = .merge ∧ skip = keys.map Prod.fst) :=
        hoperation.imp (fun h => ⟨h.1, h.2.1⟩) fun h => ⟨h.1, h.2.1⟩
      have hfound : found.keyMatch? = some (type.labels, keys) := by
        obtain ⟨-, -, rfl⟩ | ⟨-, -, rfl⟩ := hoperation <;> rfl
      have hset : (if written.isEmpty then [] else [Clause.set node written]).filterMap
          Clause.keyMatch? = [] := by
        split <;> rfl
      obtain ⟨hargument, rfl, hfirst⟩ :=
        KeySite.read_emits ⟨type, keyPath, s.argument? Argument.key⟩ hkeys
      have hwrites := (properties_writes hwritten).2.weaken
      obtain ⟨hmatches, hidentified, hsupplied⟩ := relations_emits _ hrelated
      rw [keySites_change hoperation' hkeys hdata]
      refine ⟨?_, List.forall_mem_cons.mpr ⟨hargument, hidentified⟩, ?_⟩
      · rw [Statement.keyMatches, List.cons_append, List.filterMap_cons_some hfound,
          List.filterMap_append, hset, hmatches, List.map_cons]
        rfl
      · rw [List.flatMap_cons]
        exact ((hfirst.then_any hwrites).trans hsupplied).then_any (result_supplies hitems)
  | @delete keys items d e d' hkeys hitems =>
      obtain ⟨hidentified, rfl, hsupplied⟩ :=
        KeySite.read_emits ⟨type, keyPath, s.argument? Argument.key⟩ hkeys
      have hshown := result_supplies hitems
      rw [keySites, List.flatMap_singleton]
      exact ⟨rfl, List.forall_mem_singleton.mpr hidentified, hsupplied.then_any hshown⟩

end Examined

end Mutation

end CypherCompiler
