import CypherCompiler.Proofs.Authorization.Gate
import CypherCompiler.Proofs.Collision.Token

namespace CypherCompiler

open Cypher Selection

-- The field at the end of a group-by path. All names before the last one are relationships, each
-- of the type that the one before it leads to.
inductive Catalog.GroupsBy (c : Catalog) : NodeType → List String → Field → Prop
  | here {type : NodeType} {name : String} {field : Field}
      (hfield : type.field? name = some field) : GroupsBy c type [name] field
  | hop {type target : NodeType} {name : String} {owner field : Field} {relation : Relation}
      {rest : List String} (howner : type.field? name = some owner)
      (hrelation : owner.relation? = some relation)
      (htarget : c.type? relation.target = some target) (h : GroupsBy c target rest field) :
      GroupsBy c type (name :: rest) field

namespace Planning

variable {catalog : Catalog} {type last : NodeType} {path segments : List String} {p q : Planning}

-- The hops of a group-by path lead to the type on which its last segment is looked up.
theorem addGroupHops_groupsBy (h : addGroupHops catalog type path p segments = .ok (last, q))
    {name : String} {field : Field} (hfield : last.field? name = some field) :
    catalog.GroupsBy type (segments ++ [name]) field := by
  induction segments generalizing type path p with
  | nil =>
      cases h
      exact .here hfield
  | cons segment rest ih =>
      obtain ⟨relation, target, hrelation, htarget, hrest⟩ := addGroupHops_cons_cases h
      obtain ⟨owner, howner, hkind⟩ := Option.bind_eq_some_iff.mp hrelation
      exact .hop howner hkind htarget (ih hrest)

theorem addGroupBy_groupsBy {written : String} {key : GroupKey}
    (h : p.addGroupBy catalog type written = .ok (key, q)) :
    ∃ field, catalog.GroupsBy type (Text.pieces written '.') field ∧ field.isProperty = true ∧
      key.field = field.name := by
  have hpieces := List.dropLast_append_getLast (Text.pieces_ne_nil written '.')
  have hlast : (Text.pieces written '.').getLastD "" =
      (Text.pieces written '.').getLast (Text.pieces_ne_nil written '.') := by
    rw [List.getLastD_eq_getLast?, List.getLast?_eq_getLast_of_ne_nil, Option.getD_some]
  unfold addGroupBy at h
  simp only [except_bind_eq_ok] at h
  obtain ⟨⟨target, q'⟩, hhops, h⟩ := h
  split at h
  · simp [except_throw_eq_ok, except_bind_eq_ok] at h
  · rename_i hproperty
    rw [Bool.not_eq_true', Bool.not_eq_false, Option.any_eq_true] at hproperty
    obtain ⟨field, hfield, hstored⟩ := hproperty
    have hgroups := addGroupHops_groupsBy hhops hfield
    rw [hlast, hpieces] at hgroups
    refine ⟨field, hgroups, hstored, ?_⟩
    split at h
    · cases h
      exact (NodeType.field?_eq_some hfield).2.symm
    · simp [except_throw_eq_ok] at h

end Planning

theorem Plan.make_groupsBy {catalog : Catalog} {root : Root} {type : NodeType}
    (htype : catalog.type? root.typeName = some type) {selections : List Selection}
    {written : String} {predicate : Predicate} {aliases aliases' : AliasRegistry} {plan : Plan}
    (h : make catalog root selections (some written) predicate aliases = .ok (plan, aliases')) :
    ∃ node field, plan.groupKey = some ⟨node, field.name⟩ ∧ field.isProperty = true ∧
      catalog.GroupsBy type (Text.pieces written '.') field := by
  unfold make at h
  simp only [except_bind_eq_ok, Catalog.require_eq_ok] at h
  obtain ⟨found, hfound, ⟨key, q⟩, hadd, _, hr, h⟩ := h
  obtain rfl : found = type := Option.some.inj (hfound.symm.trans htype)
  cases hr
  cases h
  obtain ⟨field, hgroups, hstored, hkey⟩ := Planning.addGroupBy_groupsBy hadd
  exact ⟨key.node, field, by rw [← hkey], hstored, hgroups⟩

-- The key of a grouped count is the stored property at the end of its path.
theorem Selection.countQuery_groupsBy {setting : Setting} {type : NodeType}
    (htype : setting.catalog.type? type.name = some type) {s : Selection} {written : String}
    (hgroup : s.groupByPath = .ok (some written)) {query : CountQuery} {d d' : Draft}
    (h : s.countQuery setting type d = .ok (query, d')) :
    ∃ node field, query.group = some (node, field.name) ∧ field.isProperty = true ∧
      setting.catalog.GroupsBy type (Text.pieces written '.') field := by
  obtain ⟨_, _, groupBy, read, _, -, hpath, hread, -, rfl⟩ := countQuery_cases h
  obtain rfl : groupBy = some written := Except.ok.inj (hpath.symm.trans hgroup)
  obtain ⟨_, -, -, hmake⟩ := planRead_cases hread
  obtain ⟨node, field, hkey, hstored, hgroups⟩ := Plan.make_groupsBy htype hmake
  exact ⟨node, field, by rw [hkey]; rfl, hstored, hgroups⟩

namespace Request

variable {r : Request} {catalog : Catalog} {config : Config} {type : NodeType}

-- A grouped count names no field whose scopes were not granted, as long as the protected fields of
-- its path are among those that its selections ask for. The path itself is never checked.
theorem compile_groups_permitted (hscopes : config.authScopes = true)
    (hcount : r.operation = .count) (htype : r.rootType catalog config = .ok type)
    {written : String} (hgroup : r.field.groupByPath = .ok (some written))
    (hasked : ∀ path field, path <+: Text.pieces written '.' → catalog.GroupsBy type path field →
      field.scopes ≠ [] → ∃ s ∈ r.field.selections, Asks catalog type s field)
    {plan : StatementPlan} (h : r.compile catalog config = .ok plan) :
    (∃ query node field, plan.statement = .count query ∧ query.group = some (node, field.name) ∧
        catalog.GroupsBy type (Text.pieces written '.') field) ∧
      ∀ path field, path <+: Text.pieces written '.' → catalog.GroupsBy type path field →
        r.grants.permits field.scopes = true := by
  obtain ⟨found, d, hfound, hauthorized, hstatement, -⟩ := compile_cases h
  obtain rfl : found = type := Except.ok.inj (hfound.symm.trans htype)
  have hmem := type?_of_rootType htype
  refine ⟨?_, fun path field hpath hfield => ?_⟩
  · obtain ⟨hother, -⟩ | ⟨-, query, hquery, hrun⟩ | hmutation := statement_cases hstatement
    · cases hcount.symm.trans hother
    · obtain ⟨node, field, hkey, -, hgroups⟩ := countQuery_groupsBy hmem hgroup hrun
      exact ⟨query, node, field, hquery, hkey, hgroups⟩
    · rw [hcount] at hmutation
      generalize plan.statement = statement at hmutation
      cases Mutation.statement_cases hmutation with
      | change hoperation => simp at hoperation
  · cases hpermits : r.grants.permits field.scopes with
    | true => rfl
    | false =>
        have hprotected : field.scopes ≠ [] := by
          intro hnone
          rw [hnone] at hpermits
          cases hpermits
        obtain ⟨s, hs, hasks⟩ := hasked path field hpath hfield hprotected
        have hgranted := not_lacksGrant_of_authorize (Catalog.type?_eq_some hmem).1
          (hauthorized hscopes)
        exact (hgranted (.inr ⟨s, hs, field, hasks, hpermits⟩)).elim

-- Counts the movies of each rating.
def ratingCountsRequest (selections : List Selection) (scopes : List String) : Request :=
  ⟨.count, ⟨"CountMovie", none, [("groupBy", .str "rating")], selections⟩, none, [], ⟨scopes⟩⟩

theorem compile_groups_permitted_ratingCounts :
    ∃ plan, (ratingCountsRequest [⟨"rating", none, [], []⟩] ["read:rating"]).compile ratings
        scopedConfig = .ok plan ∧
      ratings.GroupsBy ratedMovieType ["rating"] movieRating ∧
      (⟨["read:rating"]⟩ : Grants).permits movieRating.scopes = true := by
  have hpieces : Text.pieces "rating" '.' = ["rating"] := by decide
  have hgroups : ratings.GroupsBy ratedMovieType ["rating"] movieRating := .here rfl
  have hasked : ∀ path field, path <+: Text.pieces "rating" '.' →
      ratings.GroupsBy ratedMovieType path field → field.scopes ≠ [] →
        ∃ s ∈ [(⟨"rating", none, [], []⟩ : Selection)], Asks ratings ratedMovieType s field := by
    intro path field hpath hfield _
    rw [hpieces] at hpath
    obtain rfl | ⟨rest, rfl, hrest⟩ := List.prefix_cons_iff.mp hpath
    · cases hfield
    · obtain rfl := List.prefix_nil.mp hrest
      cases hfield with
      | here hfield => exact ⟨_, List.mem_cons_self, .own hfield⟩
      | hop _ _ _ hnone => cases hnone
  obtain ⟨plan, hplan⟩ : ∃ plan, (ratingCountsRequest [⟨"rating", none, [], []⟩]
      ["read:rating"]).compile ratings scopedConfig = .ok plan := ⟨_, rfl⟩
  obtain ⟨-, hpermitted⟩ := compile_groups_permitted rfl rfl rfl rfl hasked hplan
  exact ⟨plan, hplan, hgroups, hpermitted _ _ (by rw [hpieces]) hgroups⟩

-- A path that no selection repeats is followed without any grant.
theorem compile_groups_forbidden :
    ∃ plan query node, (ratingCountsRequest [] []).compile ratings scopedConfig = .ok plan ∧
      plan.statement = .count query ∧ query.group = some (node, movieRating.name) ∧
      ratings.GroupsBy ratedMovieType (Text.pieces "rating" '.') movieRating ∧
      (ratingCountsRequest [] []).grants.permits movieRating.scopes = false :=
  ⟨_, _, _, rfl, rfl, rfl, .here rfl, by decide⟩

end Request

end CypherCompiler
