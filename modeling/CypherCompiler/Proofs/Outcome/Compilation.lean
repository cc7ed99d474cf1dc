import CypherCompiler.Compilation.Basic
import CypherCompiler.Proofs.Outcome.Mutation

namespace CypherCompiler

open Cypher

namespace Request

variable {r : Request} {setting : Setting} {type : NodeType} {d d' : Draft}

-- The three kinds of statements.
theorem statement_cases {statement : Statement}
    (h : r.statement setting type d = .ok (statement, d')) :
    (r.operation = .query ∧ ∃ query, statement = .read query ∧
      r.field.readQuery setting ⟨Alias.root type.name, type.name, none⟩ .root d =
        .ok (query, d')) ∨
    (r.operation = .count ∧ ∃ query, statement = .count query ∧
      r.field.countQuery setting type d = .ok (query, d')) ∨
    Mutation.statement setting type r.operation r.field d = .ok (statement, d') := by
  unfold Request.statement at h
  cases hoperation : r.operation with
  | query =>
      simp only [hoperation, bind_eq_ok, pure_eq_ok] at h
      obtain ⟨query, _, hquery, hr⟩ := h
      cases hr
      exact .inl ⟨rfl, query, rfl, hquery⟩
  | count =>
      simp only [hoperation, bind_eq_ok, pure_eq_ok] at h
      obtain ⟨query, _, hquery, hr⟩ := h
      cases hr
      exact .inr (.inl ⟨rfl, query, rfl, hquery⟩)
  | _ =>
      simp only [hoperation] at h
      exact .inr (.inr h)

-- The type of a request is one of the schema.
theorem type?_of_rootType {catalog : Catalog} {config : Config}
    (h : r.rootType catalog config = .ok type) : catalog.type? type.name = some type := by
  have hself : ∀ {name}, catalog.type? name = some type → catalog.type? type.name = some type := by
    intro name hname
    rw [(Catalog.type?_eq_some hname).2, hname]
  unfold rootType at h
  split at h
  · split at h
    · rename_i found htype
      cases h
      obtain ⟨name, -, hname⟩ := Option.bind_eq_some_iff.mp htype
      exact hself hname
    · cases h
  · split at h
    · exact hself (Catalog.require_eq_ok.mp h)
    · cases h

theorem compile_cases {catalog : Catalog} {config : Config} {plan : StatementPlan}
    (h : r.compile catalog config = .ok plan) :
    ∃ type d, r.rootType catalog config = .ok type ∧
      (config.authScopes = true → r.authorize catalog type = .ok ()) ∧
      r.statement ⟨catalog, config.strictArguments, r.cypherParams⟩ type r.initialDraft =
        .ok (plan.statement, d) ∧ plan.parameters = d.parameters := by
  unfold compile at h
  simp only [except_bind_eq_ok] at h
  obtain ⟨type, htype, h⟩ := h
  by_cases hscopes : config.authScopes = true
  · simp only [hscopes, ite_true, except_bind_eq_ok] at h
    obtain ⟨_, hauthorize, ⟨statement, d⟩, hstatement, hr⟩ := h
    cases hr
    exact ⟨type, d, htype, fun _ => hauthorize, hstatement, rfl⟩
  · simp only [hscopes, Bool.false_eq_true, ite_false, except_bind_eq_ok] at h
    obtain ⟨⟨statement, d⟩, hstatement, hr⟩ := h
    cases hr
    exact ⟨type, d, htype, fun hs => absurd hs hscopes, hstatement, rfl⟩

end Request

end CypherCompiler
