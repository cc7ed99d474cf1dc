import CypherCompiler.Proofs.Outcome.Filter

namespace CypherCompiler

-- A path of relationships, one of which is called like another one of its type with the ending of
-- a quantifier.
inductive Catalog.NamesQuantified (c : Catalog) : NodeType → List String → Prop
  | here {type : NodeType} {field : Field} {quantifier : Quantifier} {rest : List String}
      (hfield : field ∈ type.fields) (hrelation : field.relation?.isSome = true) :
      NamesQuantified c type ((field.name ++ "_" ++ quantifier.suffix) :: rest)
  | beyond {type target : NodeType} {field : Field} {relation : Relation} {rest : List String}
      (hfield : field ∈ type.fields) (hrelation : field.relation? = some relation)
      (htarget : c.type? relation.target = some target) (hrest : NamesQuantified c target rest) :
      NamesQuantified c type (field.name :: rest)

theorem Catalog.NamesQuantified.append {c : Catalog} {type : NodeType} {path : List String}
    (h : c.NamesQuantified type path) (more : List String) :
    c.NamesQuantified type (path ++ more) := by
  induction h with
  | here hfield hrelation => exact .here hfield hrelation
  | beyond hfield hrelation htarget _ ih => exact .beyond hfield hrelation htarget ih

namespace Predicate

mutual

-- The hops that a predicate does not simply require: those that ask for something else than some
-- related node, those under a negation, and all hops inside such hops.
def apartHops (apart : Bool) : Predicate → List FilterHop
  | compare _ => []
  | all children => apartHopsOfAll apart children
  | any children => apartHopsOfAll apart children
  | not child => apartHops true child
  | related hop child =>
    if apart = true ∨ hop.quantifier ≠ .some then hop :: apartHops true child
    else apartHops false child

def apartHopsOfAll (apart : Bool) : List Predicate → List FilterHop
  | [] => []
  | p :: rest => apartHops apart p ++ apartHopsOfAll apart rest

end

theorem apartHopsOfAll_append (apart : Bool) (ps qs : List Predicate) :
    apartHopsOfAll apart (ps ++ qs) = apartHopsOfAll apart ps ++ apartHopsOfAll apart qs := by
  induction ps with
  | nil => rfl
  | cons p rest ih =>
      rw [List.cons_append, apartHopsOfAll, apartHopsOfAll, ih, List.append_assoc]

-- Where a part of a filter stands. Below a hop that is kept apart, the path names a quantifier
-- already. Before the first such hop, the path consists of names of fields, and the hops to come
-- are kept apart exactly under a negation.
inductive Placed (c : Catalog) (root type : NodeType) (hops : List String) (negated : Bool) :
    Bool → Prop
  | apart (hpath : ∀ more, c.NamesQuantified root (hops ++ more)) :
      Placed c root type hops negated true
  | along (hpath : ∀ more, c.NamesQuantified type more → c.NamesQuantified root (hops ++ more)) :
      Placed c root type hops negated negated

namespace Placed

variable {c : Catalog} {root type target : NodeType} {hops : List String} {negated apart : Bool}
  {field : Field} {relation : Relation} {quantifier : Quantifier}

theorem start (c : Catalog) (root : NodeType) : Placed c root root [] false false :=
  .along fun _ h => h

theorem negate (h : Placed c root type hops negated apart) : Placed c root type hops true true := by
  cases h with
  | apart hpath => exact .apart hpath
  | along hpath => exact .along hpath

-- A hop that is kept apart puts the ending of its quantifier into the path.
theorem hop_apart (h : Placed c root type hops negated apart) (hfield : field ∈ type.fields)
    (hrelation : field.relation? = some relation)
    (hkept : apart = true ∨ quantifier ≠ .some) (more : List String) :
    c.NamesQuantified root (hops ++ [hopSegment field.name quantifier negated] ++ more) := by
  rw [List.append_assoc]
  cases h with
  | apart hpath => exact hpath _
  | along hpath =>
      apply hpath
      have hsegment : hopSegment field.name quantifier negated =
          field.name ++ "_" ++ quantifier.suffix := by
        apply hopSegment_of_ne
        rw [ne_eq, hopSegment_eq_self_iff]
        rintro ⟨rfl, rfl⟩
        simp at hkept
      rw [hsegment]
      exact .here hfield (by simp [hrelation])

-- Any other hop adds the name of its field.
theorem hop_along (h : Placed c root type hops negated apart) (hfield : field ∈ type.fields)
    (hrelation : field.relation? = some relation)
    (htarget : c.type? relation.target = some target)
    (hkept : ¬ (apart = true ∨ quantifier ≠ .some)) :
    Placed c root target (hops ++ [hopSegment field.name quantifier negated]) negated false := by
  obtain ⟨hapart, hsome⟩ := not_or.mp hkept
  obtain rfl := Decidable.not_not.mp hsome
  cases h with
  | apart => exact (hapart rfl).elim
  | along hpath =>
      have hnegated : negated = false := by simpa using hapart
      subst hnegated
      refine .along fun more hmore => ?_
      rw [List.append_assoc]
      exact hpath _ (.beyond hfield hrelation htarget hmore)

end Placed

variable {catalog : Catalog} {root : NodeType}

mutual

theorem ofMembers_apart {type : NodeType} {hops : List String} {negated apart : Bool}
    (hplaced : Placed catalog root type hops negated apart) {path : ParameterPath}
    (members : List (String × Json)) {ps qs : Parameters} {children : List Predicate}
    (h : ofMembers catalog type hops negated path members ps = .ok (children, qs)) :
    ∀ hop ∈ apartHopsOfAll apart children, catalog.NamesQuantified root hop.path := by
  match members, h with
  | [], h =>
      cases ofMembers_nil_eq_ok.mp h
      simp [apartHopsOfAll]
  | (key, v) :: rest, h =>
      obtain ⟨p, more, ms, hp, hmore, rfl⟩ := ofMembers_cons_eq_ok.mp h
      rw [apartHopsOfAll]
      exact List.forall_mem_append.mpr
        ⟨ofMember_apart hplaced v hp, ofMembers_apart hplaced rest hmore⟩
termination_by sizeOf members

theorem ofMember_apart {type : NodeType} {hops : List String} {negated apart : Bool}
    (hplaced : Placed catalog root type hops negated apart) {path : ParameterPath} {key : String}
    (v : Json) {ps qs : Parameters} {p : Predicate}
    (h : ofMember catalog type hops negated path key v ps = .ok (p, qs)) :
    ∀ hop ∈ apartHops apart p, catalog.NamesQuantified root hop.path := by
  cases ofMember_cases h with
  | all _ hitems =>
      rw [apartHops]
      exact ofItems_apart hplaced _ hitems
  | any _ hitems =>
      rw [apartHops]
      exact ofItems_apart hplaced _ hitems
  | not _ hmembers =>
      rw [apartHops, apartHops]
      exact ofMembers_apart hplaced.negate _ hmembers
  | comparison _ hcompare =>
      obtain ⟨-, -, rfl, -⟩ | ⟨-, _, -, rfl, -⟩ := comparison_cases hcompare <;>
        simp [apartHops]
  | absent hkey _ _ =>
      obtain ⟨hfield, hrelation⟩ := FilterKey.relationship_of_read? hkey
      rw [apartHops]
      split
      · rename_i hkept
        have hhop := hplaced.hop_apart hfield hrelation hkept []
        rw [List.append_nil] at hhop
        simpa [apartHops, apartHopsOfAll] using hhop
      · simp [apartHops, apartHopsOfAll]
  | related hkey htarget hmembers =>
      obtain ⟨hfield, hrelation⟩ := FilterKey.relationship_of_read? hkey
      rw [apartHops]
      split
      · rename_i hkept
        have hinside := hplaced.hop_apart hfield hrelation hkept
        refine List.forall_mem_cons.mpr ⟨?_, ?_⟩
        · simpa using hinside []
        · rw [apartHops]
          exact ofMembers_apart (.apart hinside) _ hmembers
      · rename_i hkept
        rw [apartHops]
        exact ofMembers_apart (hplaced.hop_along hfield hrelation htarget hkept) _ hmembers
termination_by sizeOf v

theorem ofItems_apart {type : NodeType} {hops : List String} {negated apart : Bool}
    (hplaced : Placed catalog root type hops negated apart) {path : ParameterPath} {key : String}
    {index : Nat} (items : List Json) {ps qs : Parameters} {children : List Predicate}
    (h : ofItems catalog type hops negated path key index items ps = .ok (children, qs)) :
    ∀ hop ∈ apartHopsOfAll apart children, catalog.NamesQuantified root hop.path := by
  match items, h with
  | [], h =>
      cases ofItems_nil_eq_ok.mp h
      simp [apartHopsOfAll]
  | item :: rest, h =>
      obtain ⟨members, inner, more, ms, rfl, hinner, hmore, rfl⟩ := ofItems_cons_cases h
      rw [apartHopsOfAll, apartHops]
      exact List.forall_mem_append.mpr
        ⟨ofMembers_apart hplaced members hinner, ofItems_apart hplaced rest hmore⟩
termination_by sizeOf items

end

theorem ofArgument_apartHops {path : ParameterPath} {name : String} {v : Json}
    {ps qs : Parameters} {p : Predicate} (h : ofArgument root path name v ps = .ok (p, qs))
    (apart : Bool) : apartHops apart p = [] := by
  obtain ⟨-, rfl, -, -⟩ | ⟨field, op, -, -, hcompare⟩ := ofArgument_cases h
  · rfl
  · obtain ⟨-, -, rfl, -⟩ | ⟨-, _, -, rfl, -⟩ := comparison_cases hcompare <;> rfl

theorem ofArguments_apartHops {path : ParameterPath} {strict : Bool} {arguments : Json.Members}
    {ps qs : Parameters} {children : List Predicate}
    (h : ofArguments root path strict arguments ps = .ok (children, qs)) (apart : Bool) :
    apartHopsOfAll apart children = [] := by
  induction arguments generalizing ps children with
  | nil =>
      cases ofArguments_nil_eq_ok.mp h
      rfl
  | cons argument rest ih =>
      obtain hrest | ⟨p, more, ms, hp, hmore, rfl⟩ := ofArguments_cons_cases h
      · exact ih hrest
      · rw [apartHopsOfAll, ofArgument_apartHops hp, ih hmore]
        rfl

-- The path of a hop that is kept apart names a quantifier.
theorem ofSelection_apart {path : ParameterPath} {strict : Bool} {s : Selection}
    {ps qs : Parameters} {p : Predicate}
    (h : ofSelection catalog root path strict s ps = .ok (p, qs)) :
    ∀ hop ∈ apartHops false p, catalog.NamesQuantified root hop.path := by
  obtain ⟨tests, filter, ms, htests, hfilter, rfl⟩ := ofSelection_cases h
  rw [apartHops, apartHopsOfAll_append, ofArguments_apartHops htests, List.nil_append]
  obtain ⟨-, rfl, -⟩ | ⟨v, -, hread⟩ := hfilter
  · simp [apartHopsOfAll]
  · obtain ⟨members, -, hmembers⟩ := ofFilter_cases hread
    exact ofMembers_apart (.start catalog root) members hmembers

end Predicate

end CypherCompiler
