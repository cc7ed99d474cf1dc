import CypherCompiler.Proofs.Filter.Typing
import CypherCompiler.Proofs.Handover.Given
import CypherCompiler.Proofs.Outcome.Source
import CypherCompiler.Proofs.Supply.Filter

namespace CypherCompiler

open Cypher

theorem Subject.isId_property_iff {catalog : Catalog} {type : NodeType} {field : Field}
    (htype : type ∈ catalog.types) (hfield : type.field? field.name = some field) :
    (Subject.property type.name field.name).IsId catalog ↔ field.kind = .scalar .id := by
  have hfound := Catalog.type?_eq_some_of_mem htype
  constructor
  · rintro ⟨other, own, hother, hown, hkind⟩
    obtain rfl := Option.some.inj (hfound.symm.trans hother)
    obtain rfl := Option.some.inj (hfield.symm.trans hown)
    exact hkind
  · exact fun hkind => ⟨type, field, hfound, hfield, hkind⟩

namespace Field

variable {field : Field} {v value : Json}

theorem singleValue?_id (hkind : field.kind = .scalar .id)
    (h : field.singleValue? v = some value) : value = Scalar.id.normalize v := by
  simp only [singleValue?, hkind] at h
  split at h
  · cases h
  · exact (Option.some.inj h).symm

theorem mapM_singleValue?_id (hkind : field.kind = .scalar .id) {items values : List Json}
    (h : items.mapM field.singleValue? = some values) :
    values = Scalar.id.normalizeAll items := by
  induction items generalizing values with
  | nil =>
      cases h
      rfl
  | cons item rest ih =>
      simp only [List.mapM_cons, Option.bind_eq_bind, Option.pure_def, Option.bind_eq_some_iff,
        Option.some.injEq] at h
      obtain ⟨first, hfirst, more, hmore, rfl⟩ := h
      rw [Scalar.normalizeAll, singleValue?_id hkind hfirst, ih hmore]

-- Whatever an id is compared with, the value is turned into text as a whole.
theorem comparedValue?_id {op : Comparator} (hkind : field.kind = .scalar .id)
    (h : field.comparedValue? op v = some value) : value = Scalar.id.normalize v := by
  have hlist : field.comparedValue? .isIn v = some value → value = Scalar.id.normalize v := by
    intro hmany
    cases v with
    | arr items =>
        obtain ⟨values, hvalues, rfl⟩ := Option.map_eq_some_iff.mp hmany
        rw [Scalar.normalize, mapM_singleValue?_id hkind hvalues]
    | _ => cases hmany
  cases op with
  | isIn => exact hlist h
  | notIn => exact hlist h
  | distance test =>
      -- such a bound is an object, and holds no value of its own
      cases v with
      | obj members =>
          simp only [comparedValue?, distanceValue?, Option.bind_eq_bind,
            Option.bind_eq_some_iff] at h
          obtain ⟨-, -, _, -, _, -, h⟩ := h
          split at h
          · exact (Option.some.inj h).symm
          · cases h
      | _ => cases h
  | _ =>
      simp only [comparedValue?] at h
      split at h
      · cases h
      · exact singleValue?_id hkind h

end Field

-- A step that is left out was refused.
theorem Hoist.refused_of_orSkip {α : Type} {strict : Bool} {step : Hoist α} {ps qs : Parameters}
    (h : orSkip strict step ps = .ok (none, qs)) :
    ∃ key, step ps = .error (.invalidFilterField key) := by
  unfold orSkip at h
  split at h
  · cases h
  · exact ⟨_, by assumption⟩
  · cases h

namespace Predicate

mutual

-- The comparisons of a predicate with parameters, on nodes of the named type and on those at the
-- ends of its hops.
def uses (type : String) : Predicate → List ValueUse
  | compare c => c.operand.references.map fun parameter =>
      ⟨some (c.target.subjectOn type), .compared c.op, parameter⟩
  | all children => usesOfAll type children
  | any children => usesOfAll type children
  | not child => uses type child
  | related hop child => uses hop.relation.target child

def usesOfAll (type : String) : List Predicate → List ValueUse
  | [] => []
  | p :: rest => uses type p ++ usesOfAll type rest

end

theorem usesOfAll_append (type : String) (children more : List Predicate) :
    usesOfAll type (children ++ more) = usesOfAll type children ++ usesOfAll type more := by
  induction children with
  | nil => rfl
  | cons child rest ih => rw [List.cons_append, usesOfAll, usesOfAll, ih, List.append_assoc]

variable {catalog : Catalog}

-- A comparison of a property is made with the value that was given for it.
theorem comparison_handsOver {type : NodeType} (htype : type ∈ catalog.types) {field : Field}
    (hfield : type.field? field.name = some field) {op : Comparator} {key : String} {v : Json}
    {hops : List String} {path : ParameterPath} {ps qs final : Parameters} {p : Predicate}
    (h : comparison field op key v hops path ps = .ok (p, qs)) (hfinal : qs.Extends final) :
    List.Forall₂ (HandedOver catalog final)
      (if v.isNull then [] else [⟨.property type.name field.name, .compared op, v⟩])
      (p.uses type.name) := by
  obtain ⟨hnull, -, rfl, -⟩ | ⟨hnull, value, hvalue, rfl, hname, rfl⟩ := comparison_cases h
  · rw [if_pos hnull]
    exact .nil
  · rw [if_neg (by rw [hnull]; simp)]
    refine .cons ⟨rfl, rfl, fun hid => ?_⟩ .nil
    have hkind := (Subject.isId_property_iff htype hfield).mp hid
    rw [← Field.comparedValue?_id hkind hvalue]
    exact hfinal _ _ (Parameters.get?_append hname value)

mutual

theorem ofMembers_handsOver {type : NodeType} (htype : type ∈ catalog.types) {hops : List String}
    {negated : Bool} {path : ParameterPath} (members : List (String × Json))
    {ps qs final : Parameters} {children : List Predicate}
    (h : ofMembers catalog type hops negated path members ps = .ok (children, qs))
    (hfinal : qs.Extends final) :
    List.Forall₂ (HandedOver catalog final) (GivenValue.ofFilter catalog type members)
      (usesOfAll type.name children) := by
  match members, h with
  | [], h =>
      cases ofMembers_nil_eq_ok.mp h
      rw [GivenValue.ofFilter]
      exact .nil
  | (key, v) :: rest, h =>
      obtain ⟨p, more, ms, hp, hmore, rfl⟩ := ofMembers_cons_eq_ok.mp h
      have hkeeps := (ofMembers_supplies rest hmore).toExtends
      rw [GivenValue.ofFilter, usesOfAll]
      exact List.rel_append (ofMember_handsOver htype v hp (hkeeps.trans hfinal))
        (ofMembers_handsOver htype rest hmore hfinal)
termination_by sizeOf members

theorem ofMember_handsOver {type : NodeType} (htype : type ∈ catalog.types) {hops : List String}
    {negated : Bool} {path : ParameterPath} {key : String} (v : Json) {ps qs final : Parameters}
    {p : Predicate} (h : ofMember catalog type hops negated path key v ps = .ok (p, qs))
    (hfinal : qs.Extends final) :
    List.Forall₂ (HandedOver catalog final) (GivenValue.ofFilterMember catalog type key v)
      (p.uses type.name) := by
  rw [GivenValue.ofFilterMember.eq_def]
  cases ofMember_cases h with
  | all hkey hitems =>
      rw [hkey]
      exact ofItems_handsOver htype _ hitems hfinal
  | any hkey hitems =>
      rw [hkey]
      exact ofItems_handsOver htype _ hitems hfinal
  | not hkey hmembers =>
      rw [hkey]
      exact ofMembers_handsOver htype _ hmembers hfinal
  | comparison hkey hcompare =>
      rw [hkey]
      obtain ⟨hfield, -⟩ := FilterKey.comparison_of_read? hkey
      exact comparison_handsOver htype (NodeType.field?_eq_some_of_mem hfield) hcompare hfinal
  | absent hkey htarget _ =>
      rw [hkey]
      simp only [htarget]
      exact .nil
  | related hkey htarget hmembers =>
      rw [hkey]
      simp only [htarget]
      obtain ⟨hmem, hname⟩ := Catalog.type?_eq_some htarget
      rw [uses, uses, ← hname]
      exact ofMembers_handsOver hmem _ hmembers hfinal
termination_by sizeOf v

theorem ofItems_handsOver {type : NodeType} (htype : type ∈ catalog.types) {hops : List String}
    {negated : Bool} {path : ParameterPath} {key : String} {index : Nat} (items : List Json)
    {ps qs final : Parameters} {children : List Predicate}
    (h : ofItems catalog type hops negated path key index items ps = .ok (children, qs))
    (hfinal : qs.Extends final) :
    List.Forall₂ (HandedOver catalog final) (GivenValue.ofFilterItems catalog type items)
      (usesOfAll type.name children) := by
  match items, h with
  | [], h =>
      cases ofItems_nil_eq_ok.mp h
      rw [GivenValue.ofFilterItems]
      exact .nil
  | item :: rest, h =>
      obtain ⟨members, inner, more, ms, rfl, hinner, hmore, rfl⟩ := ofItems_cons_cases h
      have hkeeps := (ofItems_supplies rest hmore).toExtends
      rw [GivenValue.ofFilterItems, usesOfAll]
      exact List.rel_append (ofMembers_handsOver htype members hinner (hkeeps.trans hfinal))
        (ofItems_handsOver htype rest hmore hfinal)
termination_by sizeOf items

end

variable {type : NodeType} {path : ParameterPath} {strict : Bool} {ps qs final : Parameters}

-- An argument that the type has no fitting test for is left out, and only such a one.
theorem ofArguments_cons_tests {name : String} {v : Json} {rest : List (String × Json)}
    {children : List Predicate}
    (h : ofArguments type path strict ((name, v) :: rest) ps = .ok (children, qs)) :
    (GivenValue.ofArgument type name v = [] ∧
      ofArguments type path strict rest ps = .ok (children, qs)) ∨
    ∃ p more ms, GivenValue.ofArgument type name v = GivenValue.ofTest type name v ∧
      v.isNull = false ∧ ofArgument type path name v ps = .ok (p, ms) ∧
      ofArguments type path strict rest ms = .ok (more, qs) ∧ children = p :: more := by
  rw [ofArguments] at h
  unfold GivenValue.ofArgument
  split at h
  · rename_i hother
    exact .inl ⟨by rw [hother]; rfl, h⟩
  · rename_i hread
    obtain ⟨hname, hv⟩ : Argument.reserved.contains name = false ∧ v.isNull = false := by
      simpa only [Bool.or_eq_true, not_or, Bool.not_eq_true] using hread
    simp only [bind_eq_ok, pure_eq_ok] at h
    obtain ⟨found, ms, hfound, more, _, hmore, hr⟩ := h
    cases hr
    by_cases hfits : type.fitsTest name v = true
    · refine .inr ?_
      obtain ⟨p, rfl, hp⟩ | ⟨rfl, rfl⟩ := Hoist.orSkip_cases hfound
      · exact ⟨p, more, ms, by simp only [hname, hv, hfits]; rfl, hv, hp, hmore, rfl⟩
      · obtain ⟨key, hrefused⟩ := Hoist.refused_of_orSkip hfound
        cases ofArgument_fails hv hfits ms _ hrefused
    · refine .inl ⟨by simp only [hfits]; simp, ?_⟩
      rw [ofArgument_refuses hv (by simpa using hfits)] at hfound
      obtain ⟨p, -, hp⟩ | ⟨rfl, rfl⟩ := Hoist.orSkip_cases hfound
      · exact (Hoist.refuse_eq_ok.mp hp).elim
      · exact hmore

theorem ofArgument_handsOver (htype : type ∈ catalog.types) {name : String} {v : Json}
    (hv : v.isNull = false) {p : Predicate} (h : ofArgument type path name v ps = .ok (p, qs))
    (hfinal : qs.Extends final) :
    List.Forall₂ (HandedOver catalog final) (GivenValue.ofTest type name v)
      (p.uses type.name) := by
  unfold GivenValue.ofTest
  by_cases hname : name = Argument.nodeId
  · unfold ofArgument at h
    simp only [if_pos hname, bind_eq_ok, Hoist.value_eq_ok, pure_eq_ok] at h
    obtain ⟨_, _, ⟨hfresh, hp⟩, hr⟩ := h
    cases hp
    cases hr
    rw [if_pos hname]
    exact .cons ⟨rfl, rfl, fun _ => hfinal _ _ (Parameters.get?_append hfresh _)⟩ .nil
  · obtain ⟨field, hfield, -, hcompare⟩ := ofArgument_comparison hname h
    obtain ⟨-, rfl⟩ := NodeType.field?_eq_some hfield
    have hgiven := comparison_handsOver htype hfield hcompare hfinal
    rw [hv] at hgiven
    rw [if_neg hname, hfield]
    exact hgiven

theorem ofArguments_handsOver (htype : type ∈ catalog.types) {arguments : Json.Members}
    {children : List Predicate}
    (h : ofArguments type path strict arguments ps = .ok (children, qs))
    (hfinal : qs.Extends final) :
    List.Forall₂ (HandedOver catalog final)
      (arguments.flatMap fun a => GivenValue.ofArgument type a.1 a.2)
      (usesOfAll type.name children) := by
  induction arguments generalizing ps children with
  | nil =>
      cases ofArguments_nil_eq_ok.mp h
      exact .nil
  | cons argument rest ih =>
      obtain ⟨name, v⟩ := argument
      rw [List.flatMap_cons]
      obtain ⟨hnone, hrest⟩ | ⟨p, more, ms, hgiven, hv, hp, hmore, rfl⟩ :=
        ofArguments_cons_tests h
      · rw [hnone]
        exact ih hrest
      · have hkeeps := (ofArguments_supplies hmore).toExtends
        rw [hgiven, usesOfAll]
        exact List.rel_append (ofArgument_handsOver htype hv hp (hkeeps.trans hfinal)) (ih hmore)

-- The tests of a read field come before its filter.
theorem ofSelection_handsOver (htype : type ∈ catalog.types) {s : Selection} {p : Predicate}
    (h : ofSelection catalog type path strict s ps = .ok (p, qs)) (hfinal : qs.Extends final) :
    List.Forall₂ (HandedOver catalog final) (GivenValue.ofTests catalog type s)
      (p.uses type.name) := by
  obtain ⟨tests, filter, ms, htests, hfilter, rfl⟩ := ofSelection_cases h
  rw [uses, usesOfAll_append]
  unfold GivenValue.ofTests
  obtain ⟨hnone, rfl, rfl⟩ | ⟨v, hv, hread⟩ := hfilter
  · rw [hnone]
    exact List.rel_append (ofArguments_handsOver htype htests hfinal) .nil
  · obtain ⟨members, rfl, hmembers⟩ := ofFilter_cases hread
    have hkeeps := (ofMembers_supplies members hmembers).toExtends
    rw [hv]
    exact List.rel_append (ofArguments_handsOver htype htests (hkeeps.trans hfinal))
      (ofMembers_handsOver htype members hmembers hfinal)

end Predicate

end CypherCompiler
