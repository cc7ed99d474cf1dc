import CypherCompiler.Proofs.Authorization.Asked
import CypherCompiler.Proofs.Blame.Defect
import CypherCompiler.Proofs.Blame.Mutation
import CypherCompiler.Proofs.Hoisting.Compilation
import CypherCompiler.Proofs.Mirror.Projection

namespace CypherCompiler

open Selection

variable {catalog : Catalog} {reason : String}

namespace Request

variable {r : Request}

-- The check of a request can do nothing but forbid it.
theorem authorize_forbids {type : NodeType} (htype : type ∈ catalog.types) :
    FailsOnly (fun e => ∃ name, e = .forbidden name) (r.authorize catalog type) := by
  unfold authorize
  split
  · exact .error ⟨_, rfl⟩
  · rw [authorizeAll_eq_verdict htype]
    exact verdict_forbids _

theorem rootType_gives (config : Config) :
    FailsOnly (RequestError.Gives fun reason => r.operation ≠ .count ∧ r.LacksType catalog reason)
      (r.rootType catalog config) := by
  unfold rootType
  split
  · split
    · exact .ok _
    · exact .error trivial
  · rename_i hcount
    cases hname : r.typeName with
    | none => exact .error ⟨hcount, .absent hname⟩
    | some name =>
        simp only [Catalog.require]
        cases hfound : catalog.type? name with
        | none => exact .error ⟨hcount, .unknown hname hfound⟩
        | some type => exact .ok _

theorem statement_blames {setting : Setting} {type : NodeType}
    (htype : setting.catalog.type? type.name = some type) :
    Blames (fun reason => r.operation ≠ .count ∧ r.field.Explains setting.catalog type reason)
      (r.statement setting type) := by
  unfold Request.statement
  cases hoperation : r.operation with
  | query =>
      have hquery : Blames (r.field.Explains setting.catalog type)
          (r.field.readQuery setting ⟨Alias.root type.name, type.name, none⟩ .root) :=
        readQuery_blames htype r.field .root
      exact (hquery.mono fun _ h => ⟨by decide, h⟩).followedBy fun _ => .of_pure _
  | count => exact (countQuery_blames htype r.field).followedBy fun _ => .of_pure _
  | create | update | delete | merge =>
      exact (Mutation.statement_blames htype (by decide) (by decide)).mono
        fun _ h => ⟨by decide, h⟩

-- The type of the request is missing, or a selection below its field names what there is not.
def Explained (r : Request) (catalog : Catalog) (config : Config) (reason : String) : Prop :=
  r.operation ≠ .count ∧ (r.LacksType catalog reason ∨
    ∃ type, r.rootType catalog config = .ok type ∧ r.field.Explains catalog type reason)

-- Only the check of scopes forbids a request.
theorem compile_failsOnly {E : RequestError → Prop} {config : Config}
    (hgives : ∀ e, e.Gives (r.Explained catalog config) → E e)
    (hforbids : config.authScopes = true → ∀ name, E (.forbidden name)) :
    FailsOnly E (r.compile catalog config) := by
  unfold compile
  refine ((r.rootType_gives config).mono fun e he => hgives e (he.mono fun reason h =>
    ⟨h.1, .inl h.2⟩)).bind fun type hroot => ?_
  have htype := type?_of_rootType hroot
  have hstatement : Blames (r.Explained catalog config)
      (r.statement ⟨catalog, config.strictArguments, r.cypherParams⟩ type) :=
    (statement_blames htype).mono fun reason h => ⟨h.1, .inr ⟨type, hroot, h.2⟩⟩
  have hafter := ((hstatement r.initialDraft).bind fun p _ =>
    .ok (StatementPlan.mk p.1 p.2.parameters)).mono hgives
  split
  · rename_i hscopes
    refine FailsOnly.bind ((r.authorize_forbids (Catalog.type?_eq_some htype).1).mono ?_)
      fun _ _ => hafter
    rintro _ ⟨name, rfl⟩
    exact hforbids hscopes name
  · exact hafter

theorem compile_gives {P : String → Prop} {config : Config}
    (hsiblings : ∀ s ∈ r.field.nodes, s.SiblingsAgree)
    (hlacks : ∀ reason, r.operation ≠ .count → r.LacksType catalog reason → P reason)
    (hselects : ∀ reason type, r.operation ≠ .count → r.rootType catalog config = .ok type →
      SelectsUnknown catalog type r.field.selections reason → P reason) (reason : String)
    (h : r.compile catalog config = .error (.schemaInconsistency reason)) : P reason := by
  refine compile_failsOnly (E := fun e => ∀ reason, e = .schemaInconsistency reason → P reason)
    ?_ (by simp) _ h reason rfl
  rintro _ hgives reason rfl
  obtain ⟨hcount, hmissing | ⟨type, hroot, hexplains⟩⟩ := hgives
  · exact hlacks reason hcount hmissing
  · exact hselects reason type hcount hroot (hexplains hsiblings)

-- The schema is blamed only where the type of the request is missing, or where some selection
-- names what there is not. No other state that the compiler looks out for is ever reached.
theorem compile_schemaInconsistency {config : Config}
    (hdistinct : ∀ s ∈ r.field.nodes, (s.selections.map responseKey).Nodup)
    (h : r.compile catalog config = .error (.schemaInconsistency reason)) :
    r.operation ≠ .count ∧
      (r.LacksType catalog reason ∨ ∃ type, r.rootType catalog config = .ok type ∧
        SelectsUnknown catalog type r.field.selections reason) ∧
      ¬ IsDefect catalog reason := by
  have hsiblings : ∀ s ∈ r.field.nodes, s.SiblingsAgree :=
    fun s hs => siblingsAgree_of_nodup (hdistinct s hs)
  refine compile_gives (P := fun reason => r.operation ≠ .count ∧
    (r.LacksType catalog reason ∨ ∃ type, r.rootType catalog config = .ok type ∧
      SelectsUnknown catalog type r.field.selections reason) ∧ ¬ IsDefect catalog reason)
    hsiblings ?_ ?_ _ h
  · intro reason hcount hlacks
    exact ⟨hcount, .inl hlacks, hlacks.not_isDefect⟩
  · intro reason type hcount hroot hselects
    exact ⟨hcount, .inr ⟨type, hroot, hselects⟩, hselects.not_isDefect⟩

-- Asks for the ages of actors, which persons do not have.
def agesRequest : Request :=
  ⟨.query,
    ⟨"movies", none, [("filter", .obj [("actors", .obj [("name", .str "Ann")])])],
      [⟨"title", none, [], []⟩, ⟨"actors", some "cast", [], [⟨"age", none, [], []⟩]⟩]⟩,
    some "Movie", [], ⟨[]⟩⟩

theorem compile_schemaInconsistency_agesRequest :
    agesRequest.compile movies .default =
        .error (.schemaInconsistency "type `Person` has no field `age`") ∧
      ∃ type, agesRequest.rootType movies .default = .ok type ∧
        SelectsUnknown movies type agesRequest.field.selections
          "type `Person` has no field `age`" := by
  have hdistinct : ∀ s ∈ agesRequest.field.nodes, (s.selections.map responseKey).Nodup := by
    simp [agesRequest, nodes, nodesOfAll, responseKey]
  have hcompile : agesRequest.compile movies .default =
      .error (.schemaInconsistency "type `Person` has no field `age`") := rfl
  obtain ⟨-, hlacks | hselects, -⟩ := compile_schemaInconsistency hdistinct hcompile
  · generalize "type `Person` has no field `age`" = text at hlacks
    cases hlacks with
    | absent hnone => cases hnone
    | unknown hname hmissing =>
        cases hname
        cases hmissing
  · exact ⟨hcompile, hselects⟩

end Request

end CypherCompiler
