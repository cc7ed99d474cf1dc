import CypherCompiler.Compilation.Basic
import CypherCompiler.Proofs.Lockstep.Mutation
import CypherCompiler.Proofs.Text.PlainNames

namespace CypherCompiler

open Json

namespace Selection

variable {catalog : Catalog} {grants : Grants}

mutual

-- Authorization looks at the names of the selected fields only.
theorem authorize_alike (type : NodeType) (s t : Selection) (h : s.Alike t) :
    s.authorize catalog grants type = t.authorize catalog grants type := by
  match s, t, h with
  | ⟨name, _, _, ss⟩, ⟨_, _, _, ts⟩, .mk _ hselections =>
      have hall := fun target => authorizeAll_alike target ss ts hselections
      rw [authorize, authorize]
      simp only [hall]
termination_by sizeOf s

theorem authorizeAll_alike (type : NodeType) (ss ts : List Selection) (h : AlikeAll ss ts) :
    authorizeAll catalog grants type ss = authorizeAll catalog grants type ts := by
  match ss, ts, h with
  | [], [], .nil => rfl
  | s :: ss, t :: ts, .cons hs hrest =>
      rw [authorizeAll, authorizeAll, authorize_alike type s t hs,
        authorizeAll_alike type ss ts hrest]
termination_by sizeOf ss

end

end Selection

-- Requests that are equal but for the values given in them.
structure Request.Alike (r r' : Request) : Prop where
  operation : r.operation = r'.operation
  field : r.field.Alike r'.field
  typeName : r.typeName = r'.typeName
  cypherParams : AlikeMembers r.cypherParams r'.cypherParams
  grants : r.grants = r'.grants

namespace Request

variable {r r' : Request}

theorem rootType_alike (h : r.Alike r') (catalog : Catalog) (config : Config) :
    r.rootType catalog config = r'.rootType catalog config := by
  unfold rootType
  rw [h.operation, h.field.name_eq, h.typeName]

theorem authorize_alike (h : r.Alike r') (catalog : Catalog) (type : NodeType) :
    r.authorize catalog type = r'.authorize catalog type := by
  unfold authorize
  rw [h.operation, h.grants, h.field.name_eq,
    Selection.authorizeAll_alike type _ _ h.field.selections]

theorem initialDraft_sameNames (h : r.Alike r') :
    r.initialDraft.SameNames r'.initialDraft := by
  unfold initialDraft
  rw [h.cypherParams.isEmpty_eq]
  split
  · exact ⟨rfl, rfl⟩
  · exact ⟨rfl, Parameters.SameNames.share rfl _ _ _⟩

theorem statement_lockstep (h : r.Alike r') (catalog : Catalog) (strict : Bool)
    (type : NodeType) :
    DraftsAlike Eq (r.statement ⟨catalog, strict, r.cypherParams⟩ type)
      (r'.statement ⟨catalog, strict, r'.cypherParams⟩ type) := by
  unfold Request.statement
  rw [h.operation]
  cases r'.operation with
  | query =>
      apply (Selection.readWith_lockstep h.field _ .root ?_).andThen
      · exact fun _ => lockstep_pure rfl
      · exact fun target plan =>
          Selection.projectAll_lockstep target _ plan _ _ h.field.selections
  | count =>
      exact (Selection.countQuery_lockstep h.field type).andThen fun _ => lockstep_pure rfl
  | _ => exact Mutation.statement_lockstep h.field type _

-- Values have no influence on the text: two requests of the same shape fail with the same
-- error, or give the same text and the same names of parameters in the same order.
theorem compile_alike (h : r.Alike r') (catalog : Catalog) (config : Config) :
    (∃ e, r.compile catalog config = .error e ∧ r'.compile catalog config = .error e) ∨
      ∃ plan plan', r.compile catalog config = .ok plan ∧ r'.compile catalog config = .ok plan' ∧
        plan.text = plan'.text ∧ plan.parameters.names = plan'.parameters.names := by
  have hagree : Agree (fun p q : StatementPlan => p.statement = q.statement ∧
      p.parameters.names = q.parameters.names) (r.compile catalog config)
        (r'.compile catalog config) := by
    unfold compile
    rw [rootType_alike h catalog config]
    apply (Agree.refl _).bind
    rintro type _ rfl
    rw [authorize_alike h catalog type]
    have hstatement := statement_lockstep h catalog config.strictArguments type _ _
      (initialDraft_sameNames h)
    split
    · apply (Agree.refl _).bind
      intro _ _ _
      exact hstatement.bind fun p q hpq => .ok ⟨hpq.1, hpq.2.2⟩
    · exact hstatement.bind fun p q hpq => .ok ⟨hpq.1, hpq.2.2⟩
  generalize r.compile catalog config = first at hagree
  generalize r'.compile catalog config = second at hagree
  cases hagree with
  | ok hplans => exact .inr ⟨_, _, rfl, rfl, congrArg Cypher.Statement.render hplans.1, hplans.2⟩
  | error e => exact .inl ⟨e, rfl, rfl⟩

-- The movies of one actor, some of them.
def actorRequest (actor : String) : Request :=
  ⟨.query,
    ⟨"movies", none,
      [("filter", .obj [("actors", .obj [("name", .str actor)])]), ("first", .ofInt 3)],
      [⟨"title", none, [], []⟩]⟩,
    some "Movie", [], ⟨[]⟩⟩

theorem compile_alike_actorRequest :
    ∃ plan plan', (actorRequest "Ann").compile movies .default = .ok plan ∧
      (actorRequest "$x` OR true").compile movies .default = .ok plan' ∧
      plan.text = plan'.text ∧ plan.parameters.names = plan'.parameters.names := by
  have hfilter : Json.Alike (.obj [("actors", .obj [("name", .str "Ann")])])
      (.obj [("actors", .obj [("name", .str "$x` OR true")])]) :=
    .obj (.cons (.obj (.cons (.str _ _) .nil)) .nil)
  have hfixed : ∀ name ∈ [Argument.first, Argument.offset, Argument.orderBy, Argument.groupBy],
      (actorRequest "Ann").field.arguments.get? name =
        (actorRequest "$x` OR true").field.arguments.get? name := by
    intro name hname
    simp only [List.mem_cons, List.not_mem_nil, or_false] at hname
    rcases hname with rfl | rfl | rfl | rfl <;> rfl
  have halike : (actorRequest "Ann").Alike (actorRequest "$x` OR true") :=
    ⟨rfl, .mk ⟨.cons hfilter (.cons (.number _ _) .nil), hfixed⟩
      (.cons (.mk ⟨.nil, fun _ _ => rfl⟩ .nil) .nil), rfl, .nil, rfl⟩
  obtain ⟨plan, hplan⟩ : ∃ plan, (actorRequest "Ann").compile movies .default = .ok plan :=
    ⟨_, rfl⟩
  obtain ⟨e, he, -⟩ | hplans := compile_alike halike movies .default
  · rw [hplan] at he
    cases he
  · exact hplans

end Request

end CypherCompiler
