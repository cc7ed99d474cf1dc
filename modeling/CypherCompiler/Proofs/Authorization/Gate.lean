import CypherCompiler.Proofs.Authorization.Compilation
import CypherCompiler.Proofs.Blame.Compilation

namespace CypherCompiler

-- Whoever holds more scopes is permitted no less.
theorem Grants.permits_of_subset {grants more : Grants} (h : grants.scopes ⊆ more.scopes)
    {required : List String} (hpermits : grants.permits required = true) :
    more.permits required = true := by
  unfold permits at *
  simp only [Bool.or_eq_true, List.any_eq_true, List.contains_iff_mem] at *
  obtain hnone | ⟨scope, hscope, hheld⟩ := hpermits
  · exact .inl hnone
  · exact .inr ⟨scope, hscope, h hheld⟩

namespace Request

open Selection

variable {r : Request} {catalog : Catalog} {config : Config} {type : NodeType}

-- What a request asks for on the type that it starts from, before any of the fields.
def requiredScopes (r : Request) (type : NodeType) : List String :=
  type.scopes.required r.operation.access

-- The caller was not granted the type, or not some field that a selection asks for.
def LacksGrant (r : Request) (catalog : Catalog) (type : NodeType) : Prop :=
  r.grants.permits (r.requiredScopes type) = false ∨
    ∃ s ∈ r.field.selections, ∃ field, Asks catalog type s field ∧
      r.grants.permits field.scopes = false

-- The name that is denied first: that of the operation for the type, and then those of the
-- fields in pre-order.
def deniedName? (r : Request) (catalog : Catalog) (type : NodeType) : Option String :=
  if r.grants.permits (r.requiredScopes type) = true then
    firstDenied? r.grants (askedOfAll catalog type r.field.selections)
  else some r.field.name

theorem deniedName?_isSome_iff :
    (r.deniedName? catalog type).isSome = true ↔ r.LacksGrant catalog type := by
  unfold deniedName? LacksGrant
  cases r.grants.permits (r.requiredScopes type) with
  | false => simp
  | true =>
      simp only [if_true, Bool.true_eq_false, false_or, firstDenied?_isSome_iff,
        mem_askedOfAll_iff_asks]
      constructor
      · rintro ⟨field, ⟨s, hs, hasks⟩, hdenied⟩
        exact ⟨s, hs, field, hasks, hdenied⟩
      · rintro ⟨s, hs, field, hasks, hdenied⟩
        exact ⟨field, ⟨s, hs, hasks⟩, hdenied⟩

theorem authorize_eq_verdict (htype : type ∈ catalog.types) :
    r.authorize catalog type = verdict (r.deniedName? catalog type) := by
  unfold authorize deniedName? requiredScopes
  cases r.grants.permits (type.scopes.required r.operation.access) with
  | false => rfl
  | true => exact authorizeAll_eq_verdict htype r.field.selections

theorem not_lacksGrant_of_authorize (htype : type ∈ catalog.types)
    (h : r.authorize catalog type = .ok ()) : ¬ r.LacksGrant catalog type := by
  rw [authorize_eq_verdict htype] at h
  rw [← deniedName?_isSome_iff]
  cases hdenied : r.deniedName? catalog type with
  | none => simp
  | some name =>
      rw [hdenied] at h
      cases h

-- The check stands before everything else and leaves nothing behind.
theorem compile_checked (htype : r.rootType catalog config = .ok type) :
    r.compile catalog { config with authScopes := true } = (do
      verdict (r.deniedName? catalog type)
      r.compile catalog { config with authScopes := false }) := by
  have hroot (check : Bool) : r.rootType catalog { config with authScopes := check } = .ok type :=
    htype
  rw [← authorize_eq_verdict (Catalog.type?_eq_some (type?_of_rootType htype)).1]
  simp only [compile, hroot]
  rfl

-- Without the check nothing is forbidden.
theorem compile_unchecked_ne_forbidden (hopen : config.authScopes = false) (name : String) :
    r.compile catalog config ≠ .error (.forbidden name) := by
  have hfails : FailsOnly (fun e => ∀ name, e ≠ .forbidden name) (r.compile catalog config) := by
    refine compile_failsOnly ?_ (by simp [hopen])
    rintro _ hgives name rfl
    exact hgives
  exact fun h => hfails _ h name rfl

-- Without the check the grants are never looked at.
theorem compile_unchecked_grants (hopen : config.authScopes = false) (grants : Grants) :
    ({ r with grants } : Request).compile catalog config = r.compile catalog config := by
  unfold compile
  simp only [hopen]
  rfl

theorem compile_grants (h : ¬ r.LacksGrant catalog type)
    (htype : r.rootType catalog config = .ok type) :
    r.compile catalog { config with authScopes := true } =
      r.compile catalog { config with authScopes := false } := by
  rw [compile_checked htype]
  cases hdenied : r.deniedName? catalog type with
  | none => rfl
  | some name => exact absurd (deniedName?_isSome_iff.mp (by simp [hdenied])) h

-- The caller who holds more scopes lacks no grant that was there before.
theorem LacksGrant.of_subset {grants : Grants} (hsub : r.grants.scopes ⊆ grants.scopes)
    (h : ({ r with grants } : Request).LacksGrant catalog type) : r.LacksGrant catalog type := by
  have hdenied {required : List String} (h : grants.permits required = false) :
      r.grants.permits required = false := by
    cases hpermits : r.grants.permits required with
    | false => rfl
    | true => cases h.symm.trans (Grants.permits_of_subset hsub hpermits)
  obtain htype | ⟨s, hs, field, hasks, hfield⟩ := h
  · exact .inl (hdenied htype)
  · exact .inr ⟨s, hs, field, hasks, hdenied hfield⟩

-- A request is forbidden exactly where a grant is missing, under the name that is denied first.
-- In all other cases the check changes nothing, and so a larger grant changes no plan.
theorem compile_forbidden_iff_lacksGrant (htype : r.rootType catalog config = .ok type) :
    ((∃ name, r.compile catalog { config with authScopes := true } = .error (.forbidden name)) ↔
        r.LacksGrant catalog type) ∧
      (∀ name, r.compile catalog { config with authScopes := true } = .error (.forbidden name) ↔
        r.deniedName? catalog type = some name) ∧
      (¬ r.LacksGrant catalog type → r.compile catalog { config with authScopes := true } =
        r.compile catalog { config with authScopes := false }) ∧
      ∀ grants plan, r.grants.scopes ⊆ grants.scopes → r.compile catalog config = .ok plan →
        ({ r with grants } : Request).compile catalog config = .ok plan := by
  have hname (name : String) :
      r.compile catalog { config with authScopes := true } = .error (.forbidden name) ↔
        r.deniedName? catalog type = some name := by
    rw [compile_checked htype]
    cases r.deniedName? catalog type with
    | none => exact iff_of_false (compile_unchecked_ne_forbidden rfl name) (by simp)
    | some denied => simp [verdict, bind, Except.bind]
  have hlacks : (∃ name, r.compile catalog { config with authScopes := true } =
      .error (.forbidden name)) ↔ r.LacksGrant catalog type := by
    simp only [hname, ← deniedName?_isSome_iff, Option.isSome_iff_exists]
  refine ⟨hlacks, hname, fun h => compile_grants h htype, fun grants plan hsub hplan => ?_⟩
  cases hscopes : config.authScopes with
  | false => rw [compile_unchecked_grants hscopes, hplan]
  | true =>
      have hconfig : { config with authScopes := true } = config := by rw [← hscopes]
      have hgranted : ¬ r.LacksGrant catalog type := by
        rw [← hlacks, hconfig]
        rintro ⟨name, hforbidden⟩
        cases hplan.symm.trans hforbidden
      have hmore : ¬ ({ r with grants } : Request).LacksGrant catalog type :=
        mt (LacksGrant.of_subset hsub) hgranted
      have hopen :
          ({ r with grants } : Request).compile catalog { config with authScopes := false } =
            r.compile catalog { config with authScopes := false } :=
        compile_unchecked_grants rfl grants
      have hsame := compile_grants hmore htype
      rwa [hopen, ← compile_grants hgranted htype, hconfig, hplan] at hsame

-- The ratings of the sequels of all movies.
def sequelRatingsRequest (scopes : List String) : Request :=
  ⟨.query,
    ⟨"movies", none, [],
      [⟨"title", none, [], []⟩, ⟨"sequels", none, [], [⟨"rating", none, [], []⟩]⟩]⟩,
    some "Movie", [], ⟨scopes⟩⟩

theorem compile_forbidden_iff_lacksGrant_sequelRatings :
    (sequelRatingsRequest []).compile ratings scopedConfig = .error (.forbidden "rating") ∧
      ∃ plan, (sequelRatingsRequest ["read:rating"]).compile ratings scopedConfig = .ok plan ∧
        (sequelRatingsRequest ["admin", "read:rating"]).compile ratings scopedConfig =
          .ok plan := by
  have hroot (scopes : List String) : (sequelRatingsRequest scopes).rootType ratings scopedConfig =
      .ok ratedMovieType := rfl
  obtain ⟨-, hname, -, -⟩ := compile_forbidden_iff_lacksGrant (hroot [])
  obtain ⟨-, -, -, hlarger⟩ := compile_forbidden_iff_lacksGrant (hroot ["read:rating"])
  refine ⟨(hname "rating").mpr rfl, ?_⟩
  obtain ⟨plan, hplan⟩ : ∃ plan, (sequelRatingsRequest ["read:rating"]).compile ratings
      scopedConfig = .ok plan := ⟨_, rfl⟩
  exact ⟨plan, hplan,
    hlarger ⟨["admin", "read:rating"]⟩ plan (by simp [sequelRatingsRequest]) hplan⟩

end Request

end CypherCompiler
