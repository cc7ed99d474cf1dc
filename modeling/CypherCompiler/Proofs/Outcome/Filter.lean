import CypherCompiler.Proofs.Outcome.Step

namespace CypherCompiler

theorem Catalog.require_eq_ok {catalog : Catalog} {name : String} {t : NodeType} :
    catalog.require name = .ok t ↔ catalog.type? name = some t := by
  unfold Catalog.require
  cases catalog.type? name <;> simp

theorem NodeType.field?_eq_some {t : NodeType} {name : String} {f : Field}
    (h : t.field? name = some f) : f ∈ t.fields ∧ f.name = name :=
  ⟨List.mem_of_find?_eq_some h, by simpa using List.find?_some h⟩

theorem Catalog.type?_eq_some {c : Catalog} {name : String} {t : NodeType}
    (h : c.type? name = some t) : t ∈ c.types ∧ t.name = name :=
  ⟨List.mem_of_find?_eq_some h, by simpa using List.find?_some h⟩

namespace FilterKey

variable {type : NodeType} {key : String}

theorem read_eq_ok {type : NodeType} {key : String} {k : FilterKey} :
    read type key = .ok k ↔ read? type key = some k := by
  unfold read
  cases read? type key <;> simp

-- A key that is split consists of the name of a field and an ending.
theorem split?_eq_some {type : NodeType} {key ending : String} {field : Field}
    (h : split? type key = some (field, ending)) :
    ∃ name, ending ∈ endings ∧ Text.beforeSuffix? key ("_" ++ ending) = some name ∧
      type.field? name = some field := by
  unfold split? at h
  obtain ⟨e, he, hsplit⟩ := List.exists_of_findSome?_eq_some h
  simp only [Option.bind_eq_bind, Option.pure_def, Option.bind_eq_some_iff, Option.some.injEq,
    Prod.mk.injEq] at hsplit
  obtain ⟨name, hname, f, hf, rfl, rfl⟩ := hsplit
  exact ⟨name, he, hname, hf⟩

-- A key is the name of a combinator, or the name of a field with an ending or without one.
theorem read?_cases {k : FilterKey} (h : read? type key = some k) :
    (∃ c, Combinator.name c = key ∧ k = .combinator c) ∨
      ∃ field ending, classify? field ending = some k ∧
        ((ending = none ∧ type.field? key = some field) ∨
          ∃ e name, ending = some e ∧ e ∈ endings ∧
            Text.beforeSuffix? key ("_" ++ e) = some name ∧ type.field? name = some field) := by
  unfold read? at h
  cases hc : Combinator.ofName? key with
  | some c =>
      simp only [hc, Option.some.injEq] at h
      exact .inl ⟨c, by simpa using List.find?_some hc, h.symm⟩
  | none =>
      simp only [hc] at h
      cases hf : type.field? key with
      | some field =>
          simp only [hf] at h
          exact .inr ⟨field, none, h, .inl ⟨rfl, rfl⟩⟩
      | none =>
          simp only [hf] at h
          cases hs : split? type key with
          | none => simp [hs] at h
          | some split =>
              simp only [hs] at h
              obtain ⟨name, hending, hbefore, hfield⟩ := split?_eq_some hs
              exact .inr ⟨split.1, some split.2, h, .inr ⟨split.2, name, rfl, hending, hbefore,
                hfield⟩⟩

-- What a field is asked for fits its kind.
theorem classify?_cases {field : Field} {ending : Option String} {k : FilterKey}
    (h : classify? field ending = some k) :
    (∃ relation quantifier, field.relation? = some relation ∧
      (∀ e ∈ ending, quantifiers.lookup e = some quantifier) ∧
      k = .relationship field relation quantifier) ∨
    ∃ op, field.relation? = none ∧ k = .comparison field op := by
  have hcompared : ∀ op : Comparator,
      (if op.appliesTo field = true then some (comparison field op) else none) = some k →
        ∃ op, k = comparison field op := by
    intro op hop
    split at hop
    · exact ⟨op, (Option.some.inj hop).symm⟩
    · cases hop
  unfold classify? at h
  unfold Field.relation?
  cases hkind : field.kind with
  | relationship relation =>
      rw [hkind] at h
      refine .inl ⟨relation, ?_⟩
      cases ending with
      | none => exact ⟨.some, rfl, by simp, (Option.some.inj h).symm⟩
      | some e =>
          obtain ⟨quantifier, hquantifier, hk⟩ := Option.bind_eq_some_iff.mp h
          exact ⟨quantifier, rfl, by simpa using hquantifier, (Option.some.inj hk).symm⟩
  | computed statement returns =>
      rw [hkind] at h
      cases h
  | _ =>
      rw [hkind] at h
      refine .inr ?_
      cases ending with
      | none =>
          obtain ⟨op, hk⟩ := hcompared .eq h
          exact ⟨op, rfl, hk⟩
      | some e =>
          obtain ⟨_, -, hop⟩ := Option.bind_eq_some_iff.mp h
          obtain ⟨op, hk⟩ := hcompared _ hop
          exact ⟨op, rfl, hk⟩

-- A key that follows a relationship names a field of the type.
theorem relationship_of_read? {field : Field} {relation : Relation} {quantifier : Quantifier}
    (h : read? type key = some (.relationship field relation quantifier)) :
    field ∈ type.fields ∧ field.relation? = some relation := by
  obtain ⟨c, -, hk⟩ | ⟨found, ending, hclassify, hfield⟩ := read?_cases h
  · cases hk
  · obtain ⟨_, _, hkind, -, hk⟩ | ⟨op, -, hk⟩ := classify?_cases hclassify
    · cases hk
      refine ⟨?_, hkind⟩
      obtain ⟨-, hfound⟩ | ⟨_, _, -, -, -, hfound⟩ := hfield <;>
        exact (NodeType.field?_eq_some hfound).1
    · cases hk

end FilterKey

namespace Predicate

-- A comparison with null takes nothing out of the request; every other one takes out the value
-- it compares with.
theorem comparison_cases {field : Field} {op : Comparator} {key : String} {v : Json}
    {hops : List String} {path : ParameterPath} {ps qs : Parameters} {p : Predicate}
    (h : comparison field op key v hops path ps = .ok (p, qs)) :
    (v.isNull = true ∧ (op = .eq ∨ op = .not) ∧
      p = .compare ⟨hops, .property field.name field.compound?, op, .null⟩ ∧ qs = ps) ∨
    (v.isNull = false ∧ ∃ value, field.comparedValue? op v = some value ∧
      p = .compare ⟨hops, .property field.name field.compound?, op, .parameter path.name⟩ ∧
      path.name ∉ ps.names ∧ qs = ⟨ps.members ++ [(path.name, value)]⟩) := by
  unfold comparison at h
  split at h
  · rename_i hnull
    split at h
    · rename_i hop
      cases pure_eq_ok.mp h
      exact .inl ⟨hnull, hop, rfl, rfl⟩
    · exact (Hoist.refuse_eq_ok.mp h).elim
  · rename_i hnull
    refine .inr ⟨by simpa using hnull, ?_⟩
    cases hvalue : field.comparedValue? op v with
    | none =>
        rw [hvalue] at h
        exact (Hoist.refuse_eq_ok.mp h).elim
    | some value =>
        simp only [hvalue, bind_eq_ok, Hoist.value_eq_ok, pure_eq_ok] at h
        obtain ⟨_, _, ⟨hn, hp⟩, hr⟩ := h
        cases hp
        cases hr
        exact ⟨value, rfl, rfl, hn, rfl⟩

-- A segment is the bare name of its field, or else has the quantifier at its end.
theorem hopSegment_eq_self_iff {field : String} {quantifier : Quantifier} {negated : Bool} :
    hopSegment field quantifier negated = field ↔ quantifier = .some ∧ negated = false := by
  unfold hopSegment
  split
  · rename_i hshared
    simpa using hshared
  · rename_i hapart
    constructor
    · intro hsame
      have hlength := congrArg String.length hsame
      simp only [String.length_append] at hlength
      have hunderscore : "_".length = 1 := rfl
      omega
    · intro hshared
      exact absurd (by simpa using hshared) hapart

theorem hopSegment_of_ne {field : String} {quantifier : Quantifier} {negated : Bool}
    (h : hopSegment field quantifier negated ≠ field) :
    hopSegment field quantifier negated = field ++ "_" ++ quantifier.suffix := by
  unfold hopSegment at h ⊢
  split
  · rename_i hshared
    exact absurd (if_pos hshared) h
  · rfl

variable {catalog : Catalog} {type : NodeType} {hops : List String} {negated : Bool}
  {path : ParameterPath} {key : String} {strict : Bool} {ps qs : Parameters}

variable (catalog type hops negated path key) in
-- The ways in which a member of a filter object is read.
inductive MemberOutcome : Json → Parameters → Predicate → Parameters → Prop
  | all {items children ps qs} (hkey : FilterKey.read? type key = some (.combinator .and))
      (hitems : ofItems catalog type hops negated path key 0 items ps = .ok (children, qs)) :
      MemberOutcome (.arr items) ps (.all children) qs
  | any {items children ps qs} (hkey : FilterKey.read? type key = some (.combinator .or))
      (hitems : ofItems catalog type hops negated path key 0 items ps = .ok (children, qs)) :
      MemberOutcome (.arr items) ps (.any children) qs
  | not {members children ps qs} (hkey : FilterKey.read? type key = some (.combinator .not))
      (hmembers : ofMembers catalog type hops true (path.child key) members ps =
        .ok (children, qs)) :
      MemberOutcome (.obj members) ps (.not (.all children)) qs
  | comparison {field op v ps p qs}
      (hkey : FilterKey.read? type key = some (.comparison field op))
      (hcompare : comparison field op key v hops (path.child key) ps = .ok (p, qs)) :
      MemberOutcome v ps p qs
  | absent {field relation quantifier target flipped ps}
      (hkey : FilterKey.read? type key = some (.relationship field relation quantifier))
      (htarget : catalog.type? relation.target = some target)
      (hflip : quantifier.flip? = some flipped) :
      MemberOutcome .null ps
        (.related ⟨hops ++ [hopSegment field.name flipped negated], field.name, relation, flipped⟩
          (.all [])) ps
  | related {field relation quantifier target members children ps qs}
      (hkey : FilterKey.read? type key = some (.relationship field relation quantifier))
      (htarget : catalog.type? relation.target = some target)
      (hmembers : ofMembers catalog target (hops ++ [hopSegment field.name quantifier negated])
        negated (path.child key) members ps = .ok (children, qs)) :
      MemberOutcome (.obj members) ps
        (.related
          ⟨hops ++ [hopSegment field.name quantifier negated], field.name, relation, quantifier⟩
          (.all children)) qs

theorem ofMember_cases {v : Json} {p : Predicate}
    (h : ofMember catalog type hops negated path key v ps = .ok (p, qs)) :
    MemberOutcome catalog type hops negated path key v ps p qs := by
  rw [ofMember.eq_def] at h
  simp only [bind_eq_ok, lift_eq_ok, FilterKey.read_eq_ok] at h
  obtain ⟨k, _, ⟨_, hkey, hk⟩, h⟩ := h
  cases hk
  cases k with
  | combinator c =>
      cases c with
      | and =>
          cases v with
          | arr items =>
              simp only [bind_eq_ok, pure_eq_ok] at h
              obtain ⟨children, _, hitems, hr⟩ := h
              cases hr
              exact .all hkey hitems
          | _ => exact (Hoist.refuse_eq_ok.mp h).elim
      | or =>
          cases v with
          | arr items =>
              simp only [bind_eq_ok, pure_eq_ok] at h
              obtain ⟨children, _, hitems, hr⟩ := h
              cases hr
              exact .any hkey hitems
          | _ => exact (Hoist.refuse_eq_ok.mp h).elim
      | not =>
          cases v with
          | obj members =>
              simp only [bind_eq_ok, pure_eq_ok] at h
              obtain ⟨children, _, hmembers, hr⟩ := h
              cases hr
              exact .not hkey hmembers
          | _ => exact (Hoist.refuse_eq_ok.mp h).elim
  | comparison field op => exact .comparison hkey h
  | relationship field relation quantifier =>
      simp only [bind_eq_ok, lift_eq_ok, Catalog.require_eq_ok] at h
      obtain ⟨target, _, ⟨_, htarget, ht⟩, h⟩ := h
      cases ht
      cases heffective : effectiveQuantifier? quantifier v with
      | none =>
          rw [heffective] at h
          exact (Hoist.refuse_eq_ok.mp h).elim
      | some effective =>
          simp only [heffective] at h
          cases v with
          | null =>
              cases pure_eq_ok.mp h
              exact .absent hkey htarget heffective
          | obj members =>
              simp only [bind_eq_ok, pure_eq_ok] at h
              obtain ⟨children, _, hmembers, hr⟩ := h
              cases hr
              cases heffective
              exact .related hkey htarget hmembers
          | _ => exact (Hoist.refuse_eq_ok.mp h).elim

theorem ofMembers_nil_eq_ok {r : List Predicate × Parameters} :
    ofMembers catalog type hops negated path [] ps = .ok r ↔ ([], ps) = r := by
  rw [ofMembers]
  exact pure_eq_ok

theorem ofMembers_cons_eq_ok {v : Json} {rest : List (String × Json)}
    {children : List Predicate} :
    ofMembers catalog type hops negated path ((key, v) :: rest) ps = .ok (children, qs) ↔
      ∃ p more ms, ofMember catalog type hops negated path key v ps = .ok (p, ms) ∧
        ofMembers catalog type hops negated path rest ms = .ok (more, qs) ∧
        children = p :: more := by
  rw [ofMembers]
  simp only [bind_eq_ok, pure_eq_ok, Prod.mk.injEq]
  constructor
  · rintro ⟨p, ms, hp, more, _, hmore, rfl, rfl⟩
    exact ⟨p, more, ms, hp, hmore, rfl⟩
  · rintro ⟨p, more, ms, hp, hmore, rfl⟩
    exact ⟨p, ms, hp, more, _, hmore, rfl, rfl⟩

theorem ofItems_nil_eq_ok {index : Nat} {r : List Predicate × Parameters} :
    ofItems catalog type hops negated path key index [] ps = .ok r ↔ ([], ps) = r := by
  rw [ofItems]
  exact pure_eq_ok

theorem ofItems_cons_cases {index : Nat} {item : Json} {rest : List Json}
    {children : List Predicate}
    (h : ofItems catalog type hops negated path key index (item :: rest) ps =
      .ok (children, qs)) :
    ∃ members inner more ms, item = .obj members ∧
      ofMembers catalog type hops negated (path.indexed key index) members ps =
        .ok (inner, ms) ∧
      ofItems catalog type hops negated path key (index + 1) rest ms = .ok (more, qs) ∧
      children = .all inner :: more := by
  cases item with
  | obj members =>
      rw [ofItems] at h
      simp only [bind_eq_ok, pure_eq_ok] at h
      obtain ⟨inner, ms, hinner, more, _, hmore, hr⟩ := h
      cases hr
      exact ⟨members, inner, more, ms, rfl, hinner, hmore, rfl⟩
  | _ =>
      rw [ofItems] at h
      · exact (Hoist.refuse_eq_ok.mp h).elim
      · intro members hobject
        cases hobject

theorem ofFilter_cases {v : Json} {children : List Predicate}
    (h : ofFilter catalog type path v ps = .ok (children, qs)) :
    ∃ members, v = .obj members ∧
      ofMembers catalog type [] false path members ps = .ok (children, qs) := by
  cases v with
  | obj members => exact ⟨members, rfl, h⟩
  | _ => exact (Hoist.refuse_eq_ok.mp h).elim

-- The comparator of an argument. A list for a single-valued field asks for one of its members.
def argumentComparator (field : Field) (v : Json) : Comparator :=
  if v.isArray && !field.list then .isIn else .eq

theorem ofArgument_comparison {name : String} {v : Json} {p : Predicate}
    (hname : name ≠ Argument.nodeId)
    (h : ofArgument type path name v ps = .ok (p, qs)) :
    ∃ field, type.field? name = some field ∧ field.isProperty = true ∧
      comparison field (argumentComparator field v) name v [] (path.child name) ps =
        .ok (p, qs) := by
  unfold ofArgument at h
  rw [if_neg hname] at h
  cases hfield : (type.field? name).filter (·.isProperty) with
  | none =>
      rw [hfield] at h
      exact (Hoist.refuse_eq_ok.mp h).elim
  | some field =>
      rw [hfield] at h
      obtain ⟨hfound, hstored⟩ := Option.filter_eq_some_iff.mp hfield
      exact ⟨field, hfound, hstored, h⟩

-- An argument tests the number of the node or one of its properties.
theorem ofArgument_cases {name : String} {v : Json} {p : Predicate}
    (h : ofArgument type path name v ps = .ok (p, qs)) :
    (name = Argument.nodeId ∧
      p = .compare ⟨[], .nodeId, .eq, .parameter (path.child name).name⟩ ∧
      (path.child name).name ∉ ps.names ∧
      qs = ⟨ps.members ++ [((path.child name).name, Scalar.id.normalize v)]⟩) ∨
    ∃ field op, type.field? name = some field ∧ field.isProperty = true ∧
      comparison field op name v [] (path.child name) ps = .ok (p, qs) := by
  by_cases hname : name = Argument.nodeId
  · unfold ofArgument at h
    simp only [if_pos hname, bind_eq_ok, Hoist.value_eq_ok, pure_eq_ok] at h
    obtain ⟨_, _, ⟨hn, hp⟩, hr⟩ := h
    cases hp
    cases hr
    exact .inl ⟨hname, rfl, hn, rfl⟩
  · obtain ⟨field, hfield, hstored, hcompare⟩ := ofArgument_comparison hname h
    exact .inr ⟨field, _, hfield, hstored, hcompare⟩

theorem ofArguments_nil_eq_ok {r : List Predicate × Parameters} :
    ofArguments type path strict [] ps = .ok r ↔ ([], ps) = r := by
  rw [ofArguments]
  exact pure_eq_ok

theorem ofArguments_cons_cases {name : String} {v : Json} {rest : List (String × Json)}
    {children : List Predicate}
    (h : ofArguments type path strict ((name, v) :: rest) ps = .ok (children, qs)) :
    ofArguments type path strict rest ps = .ok (children, qs) ∨
    ∃ p more ms, ofArgument type path name v ps = .ok (p, ms) ∧
      ofArguments type path strict rest ms = .ok (more, qs) ∧ children = p :: more := by
  rw [ofArguments] at h
  split at h
  · exact .inl h
  · simp only [bind_eq_ok, pure_eq_ok] at h
    obtain ⟨found, ms, hfound, more, _, hmore, hr⟩ := h
    cases hr
    obtain ⟨p, rfl, hp⟩ | ⟨rfl, rfl⟩ := Hoist.orSkip_cases hfound
    · exact .inr ⟨p, more, ms, hp, hmore, rfl⟩
    · exact .inl hmore

theorem ofSelection_cases {s : Selection} {p : Predicate}
    (h : ofSelection catalog type path strict s ps = .ok (p, qs)) :
    ∃ tests filter ms, ofArguments type path strict s.arguments ps = .ok (tests, ms) ∧
      ((s.argument? Argument.filter = none ∧ filter = [] ∧ qs = ms) ∨
        ∃ v, s.argument? Argument.filter = some v ∧
          ofFilter catalog type (path.child Argument.filter) v ms = .ok (filter, qs)) ∧
      p = .all (tests ++ filter) := by
  unfold ofSelection at h
  rw [bind_eq_ok] at h
  obtain ⟨tests, ms, htests, h⟩ := h
  cases hv : s.argument? Argument.filter with
  | none =>
      simp only [hv, bind_eq_ok, pure_eq_ok] at h
      obtain ⟨filter, _, hfilter, hr⟩ := h
      cases hfilter
      cases hr
      exact ⟨tests, [], _, htests, .inl ⟨rfl, rfl, rfl⟩, rfl⟩
  | some v =>
      simp only [hv, bind_eq_ok, pure_eq_ok] at h
      obtain ⟨filter, _, hfilter, hr⟩ := h
      cases hr
      exact ⟨tests, filter, ms, htests, .inr ⟨v, rfl, hfilter⟩, rfl⟩

end Predicate

end CypherCompiler
