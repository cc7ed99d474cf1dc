import CypherCompiler.Proofs.Collision.Key
import CypherCompiler.Proofs.Collision.Step

namespace CypherCompiler

open Text

namespace Json

mutual

-- No object holds a key twice, at any depth.
def HasDistinctKeys : Json → Prop
  | .arr items => AllHaveDistinctKeys items
  | .obj members => (Members.keys members).Nodup ∧ MembersHaveDistinctKeys members
  | _ => True

def AllHaveDistinctKeys : List Json → Prop
  | [] => True
  | v :: rest => v.HasDistinctKeys ∧ AllHaveDistinctKeys rest

def MembersHaveDistinctKeys : List (String × Json) → Prop
  | [] => True
  | (_, v) :: rest => v.HasDistinctKeys ∧ MembersHaveDistinctKeys rest

end

mutual

-- The keys of all objects, at any depth.
def allKeys : Json → List String
  | .arr items => itemsKeys items
  | .obj members => membersKeys members
  | _ => []

def itemsKeys : List Json → List String
  | [] => []
  | v :: rest => v.allKeys ++ itemsKeys rest

def membersKeys : List (String × Json) → List String
  | [] => []
  | (key, v) :: rest => key :: (v.allKeys ++ membersKeys rest)

end

theorem membersKeys_cons_subset {key : String} {v : Json} {rest : List (String × Json)}
    {words : List String} :
    membersKeys ((key, v) :: rest) ⊆ words ↔
      key ∈ words ∧ v.allKeys ⊆ words ∧ membersKeys rest ⊆ words := by
  rw [membersKeys, List.cons_subset, List.append_subset]

theorem itemsKeys_cons_subset {v : Json} {rest : List Json} {words : List String} :
    itemsKeys (v :: rest) ⊆ words ↔ v.allKeys ⊆ words ∧ itemsKeys rest ⊆ words := by
  rw [itemsKeys, List.append_subset]

theorem allKeys_subset_of_get? {members : List (String × Json)} {key : String} {v : Json}
    (hv : Members.get? members key = some v) : v.allKeys ⊆ membersKeys members := by
  induction members with
  | nil => cases hv
  | cons m rest ih =>
      obtain ⟨hhere, hrest⟩ := (membersKeys_cons_subset.mp (List.Subset.refl _)).2
      rw [Members.get?, List.lookup_cons] at hv
      cases hkey : key == m.1 with
      | true =>
          rw [hkey] at hv
          exact Option.some.inj hv ▸ hhere
      | false =>
          rw [hkey] at hv
          exact List.Subset.trans (ih hv) hrest

end Json

open Json

theorem Json.AllHaveDistinctKeys.of_mem {items : List Json} (h : AllHaveDistinctKeys items)
    {v : Json} (hv : v ∈ items) : v.HasDistinctKeys := by
  induction items with
  | nil => cases hv
  | cons item rest ih =>
      rcases List.mem_cons.mp hv with rfl | hv
      · exact h.1
      · exact ih h.2 hv

theorem Json.MembersHaveDistinctKeys.get? {members : List (String × Json)}
    (h : MembersHaveDistinctKeys members) {key : String} {v : Json}
    (hv : Members.get? members key = some v) : v.HasDistinctKeys := by
  induction members with
  | nil => cases hv
  | cons m rest ih =>
      rw [Members.get?, List.lookup_cons] at hv
      cases hkey : key == m.1 with
      | true =>
          rw [hkey] at hv
          exact Option.some.inj hv ▸ h.1
      | false =>
          rw [hkey] at hv
          exact ih h.2 hv

theorem Json.HasDistinctKeys.argument? {s : Selection}
    (h : (Json.obj s.arguments).HasDistinctKeys) {name : String} {v : Json}
    (hv : s.argument? name = some v) : v.HasDistinctKeys :=
  h.2.get? (Option.filter_eq_some_iff.mp hv).1

theorem Selection.allKeys_argument? {s : Selection} {name : String} {v : Json}
    (hv : s.argument? name = some v) : v.allKeys ⊆ membersKeys s.arguments :=
  allKeys_subset_of_get? (Option.filter_eq_some_iff.mp hv).1

-- The names below a path whose next token is no ending of a relationship.
def filterNames (start : List String) : Region :=
  {w | ∃ first more, w = start ++ first :: more ∧ first ∉ FilterKey.quantifierEndings}

theorem filterNames_subset_namesBelow (start : List String) :
    filterNames start ⊆ namesBelow start := by
  rintro w ⟨first, more, rfl, -⟩
  exact ⟨first, more, rfl⟩

-- The names that a member of a filter object gives out, as long as its key is one of the words.
def memberNames (type : NodeType) (words start : List String) (key : String) : Region :=
  {w | key ∈ words ∧ ∃ k rest, FilterKey.read? type key = some k ∧ k.Continues rest ∧
    w = start ++ (tokens key ++ rest)}

section

variable {type : NodeType} {words start : List String}

theorem memberNames_tellsKeys (htype : type.HasSimpleNames words) :
    TellsKeys (memberNames type words start) := by
  rintro key key' w ⟨hmem, k, rest, hk, hrest, rfl⟩ ⟨hmem', k', rest', hk', hrest', heq⟩
  exact FilterKey.eq_of_continues htype hmem hmem' hk hk' hrest hrest'
    (List.append_cancel_left heq)

theorem memberNames_subset_filterNames (htype : type.HasSimpleNames words)
    (keys : List String) : eachOf (memberNames type words start) keys ⊆ filterNames start := by
  rintro w ⟨key, -, hmem, k, rest, hk, -, rfl⟩
  have hspelled := FilterKey.spelled_of_read? htype hmem hk
  have hending : ∀ {name : String}, name ∉ takenFieldNames →
      name ∉ FilterKey.quantifierEndings := by
    intro name hfree hmem
    exact hfree (by simp [takenFieldNames, hmem])
  generalize tokens key = written at hspelled ⊢
  cases hspelled with
  | combinator c => exact ⟨c.name, rest, rfl, by cases c <;> decide⟩
  | comparison _ hfree _ => exact ⟨_, _, rfl, hending hfree⟩
  | relationship _ hfree _ _ => exact ⟨_, _, rfl, hending hfree⟩

end

namespace Predicate

theorem comparison_draws {R : Region} {field : Field} {op : Comparator} {key : String} {v : Json}
    {hops : List String} {path : ParameterPath} (h : tokens path.name ∈ R) :
    HoistDraws R (comparison field op key v hops path) := by
  unfold comparison
  split
  · split
    · exact draws_pure _
    · exact draws_throw (by simp)
  · cases field.comparedValue? op v with
    | none => exact draws_throw (by simp)
    | some value => exact (Hoist.value_draws h).before fun _ => draws_pure _

variable {catalog : Catalog} {words : List String}

mutual

-- The names of a filter follow its keys.
theorem ofMembers_draws (hcatalog : catalog.HasSimpleNames words) {type : NodeType}
    (htype : type.HasSimpleNames words) (hops : List String) (negated : Bool)
    (path : ParameterPath) (members : List (String × Json))
    (hwords : membersKeys members ⊆ words) (hkeys : (Members.keys members).Nodup)
    (hmembers : MembersHaveDistinctKeys members) :
    HoistDraws (eachOf (memberNames type words path.tokens) (Members.keys members))
      (ofMembers catalog type hops negated path members) := by
  match members with
  | [] =>
      rw [ofMembers]
      exact draws_pure _
  | (key, v) :: rest =>
      obtain ⟨hfresh, hrest⟩ := List.nodup_cons.mp hkeys
      obtain ⟨hkey, hhere, hbelow⟩ := membersKeys_cons_subset.mp hwords
      rw [ofMembers]
      apply (ofMember_draws hcatalog htype hops negated path key hkey v hhere hmembers.1).cons
      · intro p _ _ _
        exact (ofMembers_draws hcatalog htype hops negated path rest hbelow hrest
          hmembers.2).before fun _ => draws_pure _
      · exact memberNames_tellsKeys htype
      · exact hfresh
termination_by sizeOf members

theorem ofMember_draws (hcatalog : catalog.HasSimpleNames words) {type : NodeType}
    (htype : type.HasSimpleNames words) (hops : List String) (negated : Bool)
    (path : ParameterPath) (key : String) (hkey : key ∈ words) (v : Json)
    (hwords : v.allKeys ⊆ words) (hv : v.HasDistinctKeys) :
    HoistDraws (memberNames type words path.tokens key)
      (ofMember catalog type hops negated path key v) := by
  rw [ofMember.eq_def]
  apply (draws_lift (FilterKey.read_neverCollides type key)).after
  intro k _ _ hrun
  obtain ⟨_, hread, hr⟩ := lift_eq_ok.mp hrun
  cases hr
  have hk := FilterKey.read_eq_ok.mp hread
  have hmem : ∀ {rest}, k.Continues rest →
      path.tokens ++ (tokens key ++ rest) ∈ memberNames type words path.tokens key :=
    fun hrest => ⟨hkey, k, _, hk, hrest, rfl⟩
  have hitems : ∀ {c : Combinator}, k = .combinator c →
      itemNames path.tokens key 0 ⊆ memberNames type words path.tokens key := by
    rintro c rfl _ ⟨i, rest, -, rfl⟩
    exact hmem trivial
  cases k with
  | combinator c =>
      cases c with
      | and =>
          cases v with
          | arr items =>
              exact ((ofItems_draws hcatalog htype hops negated path key 0 items hwords hv).mono
                (hitems rfl)).before fun _ => draws_pure _
          | _ => exact draws_throw (by simp)
      | or =>
          cases v with
          | arr items =>
              exact ((ofItems_draws hcatalog htype hops negated path key 0 items hwords hv).mono
                (hitems rfl)).before fun _ => draws_pure _
          | _ => exact draws_throw (by simp)
      | not =>
          cases v with
          | obj members =>
              have hinner := ofMembers_draws hcatalog htype hops true (path.child key) members
                hwords hv.1 hv.2
              refine (hinner.mono ?_).before fun _ => draws_pure _
              apply (memberNames_subset_filterNames htype _).trans
              rintro _ ⟨first, more, rfl, -⟩
              rw [ParameterPath.tokens_child, List.append_assoc]
              exact hmem trivial
          | _ => exact draws_throw (by simp)
  | comparison field op =>
      apply comparison_draws
      rw [ParameterPath.tokens_name_child, ← List.append_nil (tokens key)]
      exact hmem rfl
  | relationship field relation quantifier =>
      apply (draws_lift (catalog.require_neverCollides relation.target)).after
      intro target _ _ htarget
      obtain ⟨_, hrequire, hr⟩ := lift_eq_ok.mp htarget
      cases hr
      have hplain := hcatalog.type (Catalog.require_eq_ok.mp hrequire)
      cases effectiveQuantifier? quantifier v with
      | none => exact draws_throw (by simp)
      | some effective =>
          cases v with
          | null => exact draws_pure _
          | obj members =>
              have hinner := ofMembers_draws hcatalog hplain
                (hops ++ [hopSegment field.name effective negated]) negated (path.child key)
                members hwords hv.1 hv.2
              refine (hinner.mono ?_).before fun _ => draws_pure _
              -- a key of the target comes next, and no field is named as an ending
              apply (memberNames_subset_filterNames hplain _).trans
              rintro _ ⟨first, more, rfl, hfirst⟩
              rw [ParameterPath.tokens_child, List.append_assoc]
              exact hmem ⟨first, more, rfl, hfirst⟩
          | _ => exact draws_throw (by simp)
termination_by sizeOf v

theorem ofItems_draws (hcatalog : catalog.HasSimpleNames words) {type : NodeType}
    (htype : type.HasSimpleNames words) (hops : List String) (negated : Bool)
    (path : ParameterPath) (key : String) (index : Nat) (items : List Json)
    (hwords : itemsKeys items ⊆ words) (hitems : AllHaveDistinctKeys items) :
    HoistDraws (itemNames path.tokens key index)
      (ofItems catalog type hops negated path key index items) := by
  match items with
  | [] =>
      rw [ofItems]
      exact draws_pure _
  | .obj members :: rest =>
      rw [ofItems]
      obtain ⟨hhere, hbelow⟩ := itemsKeys_cons_subset.mp hwords
      have hfirst := ofMembers_draws hcatalog htype hops negated (path.indexed key index) members
        hhere hitems.1.1 hitems.1.2
      rw [ParameterPath.tokens_indexed] at hfirst
      apply (hfirst.mono ?_).item
      · exact fun p _ _ _ => (ofItems_draws hcatalog htype hops negated path key (index + 1) rest
          hbelow hitems.2).before fun _ => draws_pure _
      · exact (memberNames_subset_filterNames htype _).trans (filterNames_subset_namesBelow _)
  | .null :: _ | .bool _ :: _ | .number _ :: _ | .str _ :: _ | .arr _ :: _ =>
      rw [ofItems]
      · exact draws_throw (by simp)
      · simp
termination_by sizeOf items

end

end Predicate

-- The arguments of a read field that may be equality tests.
def IsTest (name : String) : Prop :=
  name ∉ Argument.reserved ∧
    (name = Argument.nodeId ∨ (IsSimple name ∧ name ∉ takenFieldNames))

theorem IsTest.tokens_cases {name : String} (h : IsTest name) :
    tokens name = ["", "id"] ∨ tokens name = [name] := by
  obtain ⟨-, rfl | ⟨hsimple, -⟩⟩ := h
  · exact .inl (by decide)
  · exact .inr hsimple.tokens_eq

-- The name that an equality test gives out.
def testNames (start : List String) (name : String) : Region :=
  {w | IsTest name ∧ w = start ++ tokens name}

theorem testNames_tellsKeys (start : List String) : TellsKeys (testNames start) := by
  rintro name name' w ⟨-, rfl⟩ ⟨-, heq⟩
  exact tokens_injective (List.append_cancel_left heq)

-- Those of the condition of a read field: of its equality tests, and below its filter.
def conditionNames (start : List String) : Region :=
  {w | (∃ name, IsTest name ∧ w = start ++ tokens name) ∨
    ∃ first more, w = start ++ Argument.filter :: first :: more}

namespace Predicate

variable {catalog : Catalog} {type : NodeType} {path : ParameterPath} {strict : Bool}
  {words : List String}

theorem ofArgument_draws (htype : type.HasSimpleNames words) {name : String}
    (hword : name ∈ words) {v : Json} (hname : name ∉ Argument.reserved) :
    HoistDraws (testNames path.tokens name) (ofArgument type path name v) := by
  have hmem : (name = Argument.nodeId ∨ (IsSimple name ∧ name ∉ takenFieldNames)) →
      tokens (path.child name).name ∈ testNames path.tokens name :=
    fun htest => ⟨⟨hname, htest⟩, path.tokens_name_child name⟩
  unfold ofArgument
  split
  · rename_i hid
    exact (Hoist.value_draws (hmem (.inl hid))).before fun _ => draws_pure _
  · cases hfield : (type.field? name).filter (·.isProperty) with
    | none => exact draws_throw (by simp)
    | some field =>
        have hfound := (Option.filter_eq_some_iff.mp hfield).1
        have hplain := htype.field hfound (.of_mem hword)
        obtain ⟨-, rfl⟩ := NodeType.field?_eq_some hfound
        exact comparison_draws (hmem (.inr ⟨hplain.name, hplain.free⟩))

theorem ofArguments_draws (htype : type.HasSimpleNames words)
    {arguments : List (String × Json)} (hwords : membersKeys arguments ⊆ words)
    (hkeys : (Members.keys arguments).Nodup) :
    HoistDraws (eachOf (testNames path.tokens) (Members.keys arguments))
      (ofArguments type path strict arguments) := by
  induction arguments with
  | nil => exact draws_pure _
  | cons argument rest ih =>
      obtain ⟨name, v⟩ := argument
      obtain ⟨hfresh, hrest⟩ := List.nodup_cons.mp hkeys
      obtain ⟨hword, -, hbelow⟩ := membersKeys_cons_subset.mp hwords
      rw [ofArguments]
      split
      · exact (ih hbelow hrest).mono (eachOf_mono (List.subset_cons_self name _))
      · rename_i hread
        have hname : name ∉ Argument.reserved := by
          intro hmem
          exact hread (by simp [hmem])
        exact (Hoist.orSkip_draws (ofArgument_draws htype hword hname)).cons
          (fun p _ _ _ => (ih hbelow hrest).before fun _ => draws_pure _) (testNames_tellsKeys _)
          hfresh

theorem ofFilter_draws (hcatalog : catalog.HasSimpleNames words)
    (htype : type.HasSimpleNames words) {v : Json} (hwords : v.allKeys ⊆ words)
    (hv : v.HasDistinctKeys) :
    HoistDraws (filterNames path.tokens) (ofFilter catalog type path v) := by
  cases v with
  | obj members =>
      exact (ofMembers_draws hcatalog htype [] false path members hwords hv.1 hv.2).mono
        (memberNames_subset_filterNames htype _)
  | _ => exact draws_throw (by simp)

theorem ofSelection_draws (hcatalog : catalog.HasSimpleNames words)
    (htype : type.HasSimpleNames words) {s : Selection}
    (hwords : membersKeys s.arguments ⊆ words)
    (harguments : (Json.obj s.arguments).HasDistinctKeys) :
    HoistDraws (conditionNames path.tokens) (ofSelection catalog type path strict s) := by
  unfold ofSelection
  refine ((ofArguments_draws htype hwords harguments.1).bind (S := filterNames (path.tokens ++
    [Argument.filter])) (fun tests _ _ _ => ?_) ?_).mono ?_
  · cases hv : s.argument? Argument.filter with
    | none => exact (draws_pure _).before fun _ => draws_pure _
    | some v =>
        have hread : HoistDraws (filterNames (path.child Argument.filter).tokens)
            (ofFilter catalog type (path.child Argument.filter) v) :=
          ofFilter_draws hcatalog htype (List.Subset.trans (Selection.allKeys_argument? hv) hwords)
            (harguments.argument? hv)
        rw [ParameterPath.tokens_child] at hread
        exact hread.before fun _ => draws_pure _
  · -- a test is named by one token, or by those of `_id`
    rw [Set.disjoint_left]
    rintro w ⟨name, -, htest, rfl⟩ ⟨first, more, heq, -⟩
    rw [List.append_assoc] at heq
    have hname : tokens name = Argument.filter :: first :: more := List.append_cancel_left heq
    obtain hid | hsingle := htest.tokens_cases
    · exact absurd (List.cons.inj (hid.symm.trans hname)).1 (by decide)
    · cases hsingle.symm.trans hname
  · rintro w (⟨name, -, htest⟩ | ⟨first, more, rfl, -⟩)
    · exact .inl ⟨name, htest⟩
    · exact .inr ⟨first, more, by simp⟩

end Predicate

end CypherCompiler
