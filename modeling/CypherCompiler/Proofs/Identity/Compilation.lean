import CypherCompiler.Proofs.Identity.Sites
import CypherCompiler.Proofs.Text.PlainNames

namespace CypherCompiler

open Cypher Parameters
open CreatedObject (parameterName suppliedValue)

-- What becomes of the value of a site, whatever was taken out before: it is taken exactly if it
-- identifies a node, and else the error is that of its first key at fault, with no parameter more
-- than before. The map of parameters after an error is that of the same reading in place.
structure KeySite.Decides (site : KeySite) (d : Draft) : Prop where
  in_place : Drafting.hoist
    (KeyMatch.readInPlace site.type site.path site.argument).forget = site.read
  accepts : ((∃ r, site.read d = .ok r) ∨
      ∃ name, site.read d = .error (.parameterCollision name)) ↔
    ∃ members, site.type.IdentifiedBy site.argument members
  accepted : ∀ keys d', site.read d = .ok (keys, d') →
    ∃ members, site.type.IdentifiedBy site.argument members ∧
      keys = KeyMatch.bound site.path members ∧
      d'.parameters.members =
        d.parameters.members ++ KeyMatch.hoisted site.type site.path members
  refused : (¬ ∃ members, site.type.IdentifiedBy site.argument members) →
    ∃ e, site.type.KeyFault site.argument e ∧ site.read d = .error e ∧
      (KeyMatch.readInPlace site.type site.path site.argument).runOn d.parameters =
        (.error e, d.parameters)

theorem KeySite.decides (site : KeySite) (d : Draft) : site.Decides d := by
  have htaken {members : Json.Members} (hkeys : site.type.IdentifiedBy site.argument members) :=
    KeyMatch.readArgument_of_identified site.path d hkeys
  have hrefused {e : RequestError} (hfault : site.type.KeyFault site.argument e) :
      site.read d = .error e := KeyMatch.readArgument_of_fault hfault
  have hplace := KeyMatch.readInPlace_forget site.type site.path site.argument
  obtain ⟨members, hkeys⟩ | ⟨e, hfault⟩ := KeyMatch.identified_or_fault site.type site.argument
  · refine ⟨hplace, ⟨fun _ => ⟨members, hkeys⟩, fun _ => ?_⟩, ?_,
      fun hnone => (hnone ⟨members, hkeys⟩).elim⟩
    · obtain ⟨d', hread, -⟩ | ⟨name, hread⟩ := htaken hkeys
      · exact .inl ⟨_, hread⟩
      · exact .inr ⟨name, hread⟩
    · intro keys d' hrun
      obtain ⟨found, hread, -, hparameters⟩ | ⟨name, hread⟩ := htaken hkeys
      · cases hread.symm.trans hrun
        exact ⟨members, hkeys, rfl, hparameters⟩
      · cases hread.symm.trans hrun
  · have hnone : ¬ ∃ members, site.type.IdentifiedBy site.argument members := by
      rintro ⟨members, hkeys⟩
      exact KeyMatch.not_identified_of_fault hfault hkeys
    refine ⟨hplace, ⟨?_, fun h => (hnone h).elim⟩, ?_, fun _ => ?_⟩
    · rintro (⟨r, hrun⟩ | ⟨name, hrun⟩)
      · cases (hrefused hfault).symm.trans hrun
      · cases (hrefused hfault).symm.trans hrun
        cases hfault
    · intro keys d' hrun
      cases (hrefused hfault).symm.trans hrun
    · exact ⟨e, hfault, hrefused hfault,
        KeyMatch.readInPlace_of_fault hfault site.path d.parameters⟩

namespace Request

variable {r : Request} {catalog : Catalog} {config : Config}

-- The values of a request that have to identify nodes.
def keySites (r : Request) (catalog : Catalog) (config : Config) : List KeySite :=
  match r.rootType catalog config with
  | .ok type => Mutation.keySites catalog type r.operation r.field
  | .error _ => []

-- A site that compilation comes to, as everything before it was accepted.
def Examines (r : Request) (catalog : Catalog) (config : Config) (site : KeySite)
    (ps : Parameters) : Prop :=
  ∃ type, r.rootType catalog config = .ok type ∧
    (config.authScopes = true → r.authorize catalog type = .ok ()) ∧
    r.field.arguments.keys.find? (!(Mutation.allowedArguments r.operation).contains ·) = none ∧
    Mutation.Examines ⟨catalog, config.strictArguments, r.cypherParams⟩ type
      (Alias.root type.name) r.field r.operation
      ⟨r.initialDraft.aliases.reserve (Alias.root type.name), r.initialDraft.parameters⟩ site ps

theorem statement_comesTo (setting : Setting) {type : NodeType} {d : Draft} {site : KeySite}
    {ps : Parameters}
    (harguments : r.field.arguments.keys.find?
      (!(Mutation.allowedArguments r.operation).contains ·) = none)
    (h : Mutation.Examines setting type (Alias.root type.name) r.field r.operation
      ⟨d.aliases.reserve (Alias.root type.name), d.parameters⟩ site ps) :
    Drafting.ComesTo (r.statement setting type) d site ps := by
  have hcomes := Mutation.statement_comesTo harguments h
  have hmutation : r.operation ≠ .query ∧ r.operation ≠ .count := by
    generalize r.operation = operation at h
    cases h with
    | argument hoperation => obtain rfl | rfl | rfl := hoperation <;> simp
    | created => simp
    | changed hoperation => obtain ⟨rfl, -⟩ | ⟨rfl, -⟩ := hoperation <;> simp
  unfold Request.statement
  generalize r.operation = operation at hmutation hcomes ⊢
  cases operation with
  | query => exact (hmutation.1 rfl).elim
  | count => exact (hmutation.2 rfl).elim
  | create | update | delete | merge => exact hcomes

-- Compilation goes on with what is read at a site that it comes to.
theorem compile_comesTo {site : KeySite} {ps : Parameters}
    (h : r.Examines catalog config site ps) :
    ∃ d next, d.parameters = ps ∧ r.compile catalog config = site.read d >>= next := by
  obtain ⟨type, htype, hscopes, harguments, hexamined⟩ := h
  obtain ⟨d, hps, next, hrun⟩ :=
    statement_comesTo ⟨catalog, config.strictArguments, r.cypherParams⟩ harguments hexamined
  have hcompile : r.compile catalog config =
      r.statement ⟨catalog, config.strictArguments, r.cypherParams⟩ type r.initialDraft >>=
        fun p => .ok ⟨p.1, p.2.parameters⟩ := by
    unfold compile
    rw [htype]
    by_cases hon : config.authScopes = true
    · simp only [hon, ite_true]
      change (r.authorize catalog type >>= fun _ => _) = _
      rw [hscopes hon]
      rfl
    · simp only [hon]
      rfl
  refine ⟨d, fun p => next p >>= fun p => .ok ⟨p.1, p.2.parameters⟩, hps, ?_⟩
  rw [hcompile, hrun, bind_assoc]

-- Every value by which a mutation looks for a node has to identify one: compilation that comes to
-- it goes on or fails as the value decides. A statement that is compiled looks for the nodes that
-- the values of its request identify, by these keys, and for no others. The text is made of its
-- clauses, and the keys stand in it behind the labels of the node.
theorem compile_identifiesNodes :
    (∀ site ps, r.Examines catalog config site ps →
      ∃ d next, d.parameters = ps ∧ r.compile catalog config = site.read d >>= next ∧
        site.Decides d) ∧
    ∀ plan, r.compile catalog config = .ok plan →
      plan.statement.keyMatches = (r.keySites catalog config).map KeySite.keyMatch ∧
      plan.text = String.intercalate " " (Wording.lines plan.statement) ∧
      ∀ site ∈ r.keySites catalog config, ∃ ps members, r.Examines catalog config site ps ∧
        site.type.IdentifiedBy site.argument members ∧
        site.keyMatch = (site.type.labels, KeyMatch.bound site.path members) ∧
        Text.Occurs (Wording.keys site.type.labels (KeyMatch.bound site.path members)) plan.text ∧
        ∀ key v, (key, v) ∈ members →
          plan.parameters.get? (parameterName site.path key) =
            some (suppliedValue site.type key v) := by
  refine ⟨?_, ?_⟩
  · intro site ps hexamined
    obtain ⟨d, next, hps, hcompile⟩ := compile_comesTo hexamined
    exact ⟨d, next, hps, hcompile, site.decides d⟩
  · intro plan h
    obtain ⟨type, d, htype, hscopes, hstatement, hparameters⟩ := compile_cases h
    have hsites : r.keySites catalog config =
        Mutation.keySites catalog type r.operation r.field := by
      rw [keySites, htype]
    obtain ⟨hquery, query, hplan, -⟩ | ⟨hcount, query, hplan, -⟩ | hmutation :=
      statement_cases hstatement
    · rw [hsites, hquery]
      exact ⟨by rw [hplan]; rfl, plan.statement.render_eq, by simp [Mutation.keySites]⟩
    · rw [hsites, hcount]
      exact ⟨by rw [hplan]; rfl, plan.statement.render_eq, by simp [Mutation.keySites]⟩
    · have houtcome := Mutation.statement_cases hmutation
      obtain ⟨hkeys, hidentified, hsupplied⟩ := Mutation.statement_emits houtcome
      rw [hsites]
      refine ⟨hkeys, plan.statement.render_eq, fun site hsite => ?_⟩
      obtain ⟨members, hmembers⟩ := hidentified site hsite
      obtain ⟨ps, hexamined⟩ := Mutation.statement_examined houtcome hsite
      have hmatch : site.keyMatch = (site.type.labels, KeyMatch.bound site.path members) := by
        rw [KeySite.keyMatch, KeySite.members_eq hmembers]
      refine ⟨ps, members, ⟨type, htype, hscopes, Mutation.statement_arguments hmutation,
        hexamined⟩, hmembers, hmatch, ?_, ?_⟩
      · refine Statement.occurs_keys ?_
        rw [hkeys, ← hmatch]
        exact List.mem_map_of_mem hsite
      · intro key v hmem
        rw [hparameters]
        refine hsupplied.get? (List.mem_flatMap.mpr ⟨site, hsite, ?_⟩)
        rw [KeySite.hoisted, KeySite.members_eq hmembers]
        exact List.mem_map.mpr ⟨_, hmem, rfl⟩

-- A person who is found by name and connected to two movies.
def castingRequest (second : String × Json) : Request :=
  ⟨.update,
    ⟨"updatePerson", none,
      [("where", .obj [("name", .str "Ann")]),
        ("data", .obj [("movies", .obj [("connect", .arr
          [.obj [("title", .str "Up")], .obj [second]])])])],
      [⟨"name", none, [], []⟩]⟩,
    some "Person", [], ⟨[]⟩⟩

-- The second movie is looked for by its title, and cannot be looked for by its year.
theorem compile_identifiesNodes_twoMovies :
    (∃ plan, (castingRequest ("title", .str "Down")).compile movies .default = .ok plan ∧
      plan.statement.keyMatches = [(["Person"], [("name", "where_name")]),
        (["Movie"], [("title", "data_movies_connect_0_title")]),
        (["Movie"], [("title", "data_movies_connect_1_title")])] ∧
      Text.Occurs ":`Movie` \x7btitle: $data_movies_connect_1_title\x7d" plan.text ∧
      plan.parameters.get? "data_movies_connect_1_title" = some (.str "Down")) ∧
    (castingRequest ("released", .ofInt 2009)).compile movies .default =
      .error (.ambiguousMatch "Movie" "released") := by
  refine ⟨?_, ?_⟩
  · obtain ⟨plan, hplan⟩ : ∃ plan,
        (castingRequest ("title", .str "Down")).compile movies .default = .ok plan := ⟨_, rfl⟩
    obtain ⟨-, haccepted⟩ :=
      @compile_identifiesNodes (castingRequest ("title", .str "Down")) movies .default
    obtain ⟨hkeys, -, hsites⟩ := haccepted plan hplan
    have hlast : (⟨movieType, ((Mutation.dataPath.child "movies").indexed "connect" 1),
        some (.obj [("title", .str "Down")])⟩ : KeySite) ∈
          (castingRequest ("title", .str "Down")).keySites movies .default :=
      .tail _ (.tail _ (.head _))
    obtain ⟨_, _, -, ⟨hobject, -⟩, -, htext, hparameters⟩ := hsites _ hlast
    cases hobject
    exact ⟨plan, hplan, hkeys, htext, hparameters _ _ List.mem_cons_self⟩
  · obtain ⟨hexamined, -⟩ :=
      @compile_identifiesNodes (castingRequest ("released", .ofInt 2009)) movies .default
    have hsite : ∃ ps, (castingRequest ("released", .ofInt 2009)).Examines movies .default
        ⟨movieType, (Mutation.dataPath.child "movies").indexed "connect" 1,
          some (.obj [("released", .ofInt 2009)])⟩ ps :=
      ⟨_, personType, rfl, fun _ => rfl, rfl, .changed (.inl ⟨rfl, rfl⟩) rfl rfl rfl
        (@Mutation.RelationsExamine.operations _ _ _ _ _ _ [] [] _ _ _ _ _ _ _ _ _ _ rfl rfl rfl
          rfl rfl rfl rfl (@Mutation.OperationsExamine.connect _ _ _ _ _ _ _ [] [] _ _
            [[("title", .str "Up")]] [] _ _ _ _ _ _ rfl rfl rfl rfl))⟩
    obtain ⟨ps, hsite⟩ := hsite
    obtain ⟨d, next, -, hcompile, hdecides⟩ := hexamined _ _ hsite
    have hplain : ¬ ∃ members, movieType.IdentifiedBy (some (.obj [("released", .ofInt 2009)]))
        members := by
      rintro ⟨members, hobject, -, hall⟩
      cases hobject
      obtain ⟨field, hfield, -, hunique, -⟩ := hall _ List.mem_cons_self
      cases hfield
      simp [movieType] at hunique
    obtain ⟨e, -, hread, -⟩ := hdecides.refused hplain
    obtain rfl : e = .ambiguousMatch "Movie" "released" := Except.error.inj (hread.symm.trans rfl)
    rw [hcompile, hread]
    rfl

end Request

end CypherCompiler
