import CypherCompiler.Proofs.Cypher.References
import CypherCompiler.Proofs.Outcome.Filter
import CypherCompiler.Proofs.Outcome.Resolution
import CypherCompiler.Proofs.Text.PlainNames

namespace CypherCompiler

open Cypher Text

-- A step takes exactly these names out of the request, all of them words.
structure Hoisted (ps qs : Parameters) (names : List String) : Prop where
  mem_iff : ∀ n, n ∈ qs.names ↔ n ∈ ps.names ∨ n ∈ names
  words : AreWords names

namespace Hoisted

variable {ps qs ms : Parameters} {names more : List String}

theorem refl (ps : Parameters) : Hoisted ps ps [] :=
  ⟨by simp, by simp [AreWords]⟩

theorem trans (h : Hoisted ps ms names) (k : Hoisted ms qs more) :
    Hoisted ps qs (names ++ more) := by
  refine ⟨?_, areWords_append.mpr ⟨h.words, k.words⟩⟩
  intro n
  rw [k.mem_iff, h.mem_iff, List.mem_append, or_assoc]

theorem insert {name : String} {v : Json} (hname : IsWord name) :
    Hoisted ps ⟨ps.members ++ [(name, v)]⟩ [name] :=
  ⟨by simp [Parameters.names, Json.Members.keys], by simpa [AreWords] using hname⟩

-- A value that is there already is supplied as well.
theorem share {name : String} {v : Json} (hname : IsWord name) :
    Hoisted ps (ps.share name v) [name] := by
  unfold Parameters.share
  by_cases hc : ps.contains name = true
  · rw [if_pos hc]
    have hmem := Parameters.contains_iff.mp hc
    refine ⟨?_, by simpa [AreWords] using hname⟩
    intro n
    rw [List.mem_singleton]
    constructor
    · exact .inl
    · rintro (hn | rfl)
      · exact hn
      · exact hmem
  · rw [if_neg hc]
    exact insert hname

end Hoisted

namespace Predicate

mutual

-- The parameters that a predicate compares with.
def references : Predicate → List String
  | compare c => c.operand.references
  | all children => referencesOfAll children
  | any children => referencesOfAll children
  | not child => references child
  | related _ child => references child

def referencesOfAll : List Predicate → List String
  | [] => []
  | p :: rest => references p ++ referencesOfAll rest

end

theorem referencesOfAll_append (ps qs : List Predicate) :
    referencesOfAll (ps ++ qs) = referencesOfAll ps ++ referencesOfAll qs := by
  induction ps with
  | nil => rfl
  | cons p rest ih => rw [List.cons_append, referencesOfAll, referencesOfAll, ih, List.append_assoc]

end Predicate

mutual

-- A plan states a predicate with the parameters of the predicate.
theorem Plan.references_condition (plan : Plan) : ∀ (p : Predicate) (c : Condition),
    plan.condition p = .ok c → c.references = p.references
  | .compare comparison, c, h => by
      obtain ⟨node, -, rfl⟩ := condition_compare_eq_ok.mp h
      rfl
  | .all children, c, h => by
      obtain ⟨cs, hcs, rfl⟩ := condition_all_eq_ok.mp h
      exact Plan.references_conditions plan children cs hcs
  | .any children, c, h => by
      obtain ⟨cs, hcs, rfl⟩ := condition_any_eq_ok.mp h
      exact Plan.references_conditions plan children cs hcs
  | .not child, c, h => by
      obtain ⟨inner, hinner, rfl⟩ := condition_not_eq_ok.mp h
      exact Plan.references_condition plan child inner hinner
  | .related hop child, c, h => by
      obtain ⟨s, inner, -, hinner, rfl⟩ := condition_related_eq_ok.mp h
      exact Plan.references_condition plan child inner hinner

theorem Plan.references_conditions (plan : Plan) : ∀ (ps : List Predicate) (cs : List Condition),
    plan.conditions ps = .ok cs → Condition.referencesOfAll cs = Predicate.referencesOfAll ps
  | [], cs, h => by
      rw [conditions_nil_eq_ok.mp h]
      rfl
  | p :: rest, cs, h => by
      obtain ⟨c, more, hc, hmore, rfl⟩ := conditions_cons_eq_ok.mp h
      have hfirst := Plan.references_condition plan p c hc
      have hrest := Plan.references_conditions plan rest more hmore
      rw [Condition.referencesOfAll, Predicate.referencesOfAll, hfirst, hrest]

end

namespace Predicate

theorem comparison_hoisted {field : Field} {op : Comparator} {key : String} {v : Json}
    {hops : List String} {path : ParameterPath} {ps qs : Parameters} {p : Predicate}
    (hpath : path.IsPlain) (h : comparison field op key v hops path ps = .ok (p, qs)) :
    Hoisted ps qs p.references := by
  obtain ⟨-, -, rfl, rfl⟩ | ⟨-, value, -, rfl, -, rfl⟩ := comparison_cases h
  · exact .refl _
  · exact .insert hpath.isWord_name

variable {catalog : Catalog}

mutual

theorem ofMembers_hoisted (hcatalog : catalog.HasPlainFields) {type : NodeType}
    (htype : type.HasPlainFields) {path : ParameterPath} (hpath : path.IsPlain)
    {hops : List String} {negated : Bool} (members : List (String × Json)) {ps qs : Parameters}
    {children : List Predicate}
    (h : ofMembers catalog type hops negated path members ps = .ok (children, qs)) :
    Hoisted ps qs (referencesOfAll children) := by
  match members, h with
  | [], h =>
      cases ofMembers_nil_eq_ok.mp h
      exact .refl _
  | (key, v) :: rest, h =>
      obtain ⟨p, more, ms, hp, hmore, rfl⟩ := ofMembers_cons_eq_ok.mp h
      exact (ofMember_hoisted hcatalog htype hpath v hp).trans
        (ofMembers_hoisted hcatalog htype hpath rest hmore)
termination_by sizeOf members

theorem ofMember_hoisted (hcatalog : catalog.HasPlainFields) {type : NodeType}
    (htype : type.HasPlainFields) {path : ParameterPath} (hpath : path.IsPlain)
    {hops : List String} {negated : Bool} {key : String} (v : Json) {ps qs : Parameters}
    {p : Predicate}
    (h : ofMember catalog type hops negated path key v ps = .ok (p, qs)) :
    Hoisted ps qs p.references := by
  cases ofMember_cases h with
  | all hkey hitems =>
      exact ofItems_hoisted hcatalog htype hpath (FilterKey.isWord_of_read? htype hkey) _ hitems
  | any hkey hitems =>
      exact ofItems_hoisted hcatalog htype hpath (FilterKey.isWord_of_read? htype hkey) _ hitems
  | not hkey hmembers =>
      have hword := FilterKey.isWord_of_read? htype hkey
      exact ofMembers_hoisted hcatalog htype (hpath.child hword) _ hmembers
  | comparison hkey hcompare =>
      exact comparison_hoisted (hpath.child (FilterKey.isWord_of_read? htype hkey)) hcompare
  | absent => exact .refl _
  | related hkey htarget hmembers =>
      have hword := FilterKey.isWord_of_read? htype hkey
      exact ofMembers_hoisted hcatalog (hcatalog.type htarget) (hpath.child hword) _ hmembers
termination_by sizeOf v

theorem ofItems_hoisted (hcatalog : catalog.HasPlainFields) {type : NodeType}
    (htype : type.HasPlainFields) {path : ParameterPath} (hpath : path.IsPlain)
    {hops : List String} {negated : Bool} {key : String} (hkey : IsWord key) {index : Nat}
    (items : List Json) {ps qs : Parameters} {children : List Predicate}
    (h : ofItems catalog type hops negated path key index items ps = .ok (children, qs)) :
    Hoisted ps qs (referencesOfAll children) := by
  cases items with
  | nil =>
      cases ofItems_nil_eq_ok.mp h
      exact .refl _
  | cons item rest =>
      obtain ⟨members, inner, more, ms, rfl, hinner, hmore, rfl⟩ := ofItems_cons_cases h
      exact (ofMembers_hoisted hcatalog htype (hpath.indexed hkey index) members hinner).trans
        (ofItems_hoisted hcatalog htype hpath hkey rest hmore)
termination_by sizeOf items

end

variable {type : NodeType} {path : ParameterPath} {strict : Bool}

theorem ofArgument_hoisted (htype : type.HasPlainNames) (hpath : path.IsPlain) {name : String}
    {v : Json} {ps qs : Parameters} {p : Predicate}
    (h : ofArgument type path name v ps = .ok (p, qs)) : Hoisted ps qs p.references := by
  obtain ⟨rfl, rfl, -, rfl⟩ | ⟨field, op, hfield, -, hcompare⟩ := ofArgument_cases h
  · exact .insert (hpath.child (isWord_of_all (by decide))).isWord_name
  · exact comparison_hoisted (hpath.child (htype.isWord hfield)) hcompare

theorem ofArguments_hoisted (htype : type.HasPlainNames) (hpath : path.IsPlain)
    {arguments : Json.Members} {ps qs : Parameters} {children : List Predicate}
    (h : ofArguments type path strict arguments ps = .ok (children, qs)) :
    Hoisted ps qs (referencesOfAll children) := by
  induction arguments generalizing ps children with
  | nil =>
      cases ofArguments_nil_eq_ok.mp h
      exact .refl _
  | cons argument rest ih =>
      obtain hrest | ⟨p, more, ms, hp, hmore, rfl⟩ := ofArguments_cons_cases h
      · exact ih hrest
      · exact (ofArgument_hoisted htype hpath hp).trans (ih hmore)

-- The condition of a read field refers to exactly what is taken out for it, also where an
-- argument is left out.
theorem ofSelection_hoisted (hcatalog : catalog.HasPlainNames) (htype : type.HasPlainNames)
    (hpath : path.IsPlain) {s : Selection} {ps qs : Parameters} {p : Predicate}
    (h : ofSelection catalog type path strict s ps = .ok (p, qs)) :
    Hoisted ps qs p.references := by
  obtain ⟨tests, filter, ms, htests, hfilter, rfl⟩ := ofSelection_cases h
  rw [references, referencesOfAll_append]
  apply (ofArguments_hoisted htype hpath htests).trans
  obtain ⟨-, rfl, rfl⟩ | ⟨v, -, hread⟩ := hfilter
  · exact .refl _
  · obtain ⟨members, -, hmembers⟩ := ofFilter_cases hread
    have hword : IsWord Argument.filter := isWord_of_all (by decide)
    exact ofMembers_hoisted hcatalog.fields htype.field (hpath.child hword) members hmembers

end Predicate

end CypherCompiler
