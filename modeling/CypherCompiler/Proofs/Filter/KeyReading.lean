import CypherCompiler.Proofs.Filter.Scope
import CypherCompiler.Proofs.Schema.Lookup

namespace CypherCompiler.FilterKey

variable {type : NodeType} {key : String} {field other : Field} {ending shorter : Option String}
  {e : String} {k : FilterKey}

-- How a key can be taken apart into the name of a field and an ending. A key that is the name of
-- a field has no ending.
inductive Splits (type : NodeType) (key : String) : Field → Option String → Prop
  | exact {field : Field} (hfield : field ∈ type.fields) (hname : field.name = key) :
      Splits type key field none
  | ending {field : Field} {e : String} (hfree : ∀ f ∈ type.fields, f.name ≠ key)
      (hfield : field ∈ type.fields) (he : e ∈ endings) (hkey : key = field.name ++ "_" ++ e) :
      Splits type key field (some e)

-- What an ending, or none, says about a field of its kind.
inductive Fits (field : Field) : Option String → FilterKey → Prop
  | equals (hstored : field.isProperty = true) : Fits field none (.comparison field .eq)
  | compared {e : String} {op : Comparator} (hop : (e, op) ∈ comparators)
      (happlies : op.appliesTo field = true) : Fits field (some e) (.comparison field op)
  | related {relation : Relation} (hrelation : field.relation? = some relation) :
      Fits field none (.relationship field relation .some)
  | quantified {e : String} {relation : Relation} {quantifier : Quantifier}
      (hquantifier : (e, quantifier) ∈ quantifiers)
      (hrelation : field.relation? = some relation) :
      Fits field (some e) (.relationship field relation quantifier)

-- A valid reading of a key: it is taken apart so that the ending fits the field.
def Reading (type : NodeType) (key : String) (ending : Option String) (k : FilterKey) : Prop :=
  ∃ field, Splits type key field ending ∧ Fits field ending k

def endingLength (ending : Option String) : Nat := ending.elim 0 String.length

-- No other way to take the key apart leaves a longer ending.
structure LongestSplit (type : NodeType) (key : String) (field : Field) (ending : Option String) :
    Prop where
  splits : Splits type key field ending
  longest : ∀ other shorter, Splits type key other shorter →
    endingLength shorter ≤ endingLength ending

theorem lookup_eq_some_iff {α β : Type} [BEq α] [LawfulBEq α] {entries : List (α × β)}
    (h : (entries.map Prod.fst).Nodup) {a : α} {b : β} :
    entries.lookup a = some b ↔ (a, b) ∈ entries := by
  induction entries with
  | nil => simp
  | cons entry rest ih =>
      obtain ⟨a', b'⟩ := entry
      obtain ⟨hmissing, hrest⟩ := List.nodup_cons.mp h
      rw [List.lookup_cons, List.mem_cons, Prod.mk.injEq]
      by_cases ha : a = a'
      · subst ha
        have hother : (a, b) ∉ rest := fun hmem => hmissing (List.mem_map.mpr ⟨_, hmem, rfl⟩)
        simp [hother, eq_comm]
      · rw [beq_false_of_ne ha]
        simp [ha, ih hrest]

theorem comparators_nodup : (comparators.map Prod.fst).Nodup := by decide

theorem quantifiers_nodup : (quantifiers.map Prod.fst).Nodup := by decide

theorem isProperty_of_appliesTo {op : Comparator} (h : op.appliesTo field = true) :
    field.isProperty = true := by
  unfold Comparator.appliesTo at h
  unfold Field.isProperty
  cases hkind : field.kind with
  | scalar | compound => rfl
  | relationship | computed =>
      rw [hkind] at h
      cases h

-- Every stored property can be tested for equality.
theorem appliesTo_eq_of_isProperty (h : field.isProperty = true) :
    Comparator.appliesTo .eq field = true := by
  unfold Field.isProperty at h
  unfold Comparator.appliesTo
  cases hkind : field.kind with
  | scalar => rfl
  | compound compound => cases compound <;> rfl
  | relationship | computed =>
      rw [hkind] at h
      cases h

-- What an ending stands for. Without one a property is tested for equality and a relationship for
-- some related node.
def comparatorOf? : Option String → Option Comparator
  | none => some .eq
  | some e => comparators.lookup e

def quantifierOf? : Option String → Option Quantifier
  | none => some .some
  | some e => quantifiers.lookup e

-- A comparison needs a stored property.
theorem classify?_comparison_iff (hstored : field.isProperty = true) :
    classify? field ending = some k ↔ ∃ op, k = .comparison field op ∧
      comparatorOf? ending = some op ∧
      op.appliesTo field = true := by
  have hclassify : classify? field ending =
      (comparatorOf? ending).bind fun op =>
        if op.appliesTo field then some (.comparison field op) else none := by
    unfold Field.isProperty at hstored
    unfold classify?
    cases hkind : field.kind with
    | scalar | compound => cases ending <;> rfl
    | relationship | computed =>
        rw [hkind] at hstored
        cases hstored
  rw [hclassify, Option.bind_eq_some_iff]
  constructor
  · rintro ⟨op, hop, hk⟩
    split at hk
    · rename_i happlies
      exact ⟨op, (Option.some.inj hk).symm, hop, happlies⟩
    · cases hk
  · rintro ⟨op, rfl, hop, happlies⟩
    exact ⟨op, hop, if_pos happlies⟩

theorem classify?_relationship_iff {relation : Relation}
    (hrelation : field.relation? = some relation) :
    classify? field ending = some k ↔ ∃ quantifier, k = .relationship field relation quantifier ∧
      quantifierOf? ending = some quantifier := by
  have hclassify : classify? field ending =
      (quantifierOf? ending).bind fun quantifier =>
        some (.relationship field relation quantifier) := by
    unfold Field.relation? at hrelation
    unfold classify?
    cases hkind : field.kind with
    | scalar | compound | computed =>
        rw [hkind] at hrelation
        cases hrelation
    | relationship own =>
        rw [hkind] at hrelation
        cases hrelation
        cases ending <;> rfl
  rw [hclassify, Option.bind_eq_some_iff]
  constructor
  · rintro ⟨quantifier, hquantifier, hk⟩
    exact ⟨quantifier, (Option.some.inj hk).symm, hquantifier⟩
  · rintro ⟨quantifier, rfl, hquantifier⟩
    exact ⟨quantifier, hquantifier, rfl⟩

theorem classify?_eq_none (hstored : field.isProperty = false)
    (hrelation : field.relation? = none) :
    classify? field ending = none := by
  unfold Field.isProperty at hstored
  unfold Field.relation? at hrelation
  unfold classify?
  cases hkind : field.kind with
  | computed => rfl
  | scalar | compound =>
      rw [hkind] at hstored
      cases hstored
  | relationship =>
      rw [hkind] at hrelation
      cases hrelation

-- A field is read with an ending, or without one, exactly where the ending fits it.
theorem classify?_eq_some_iff : classify? field ending = some k ↔ Fits field ending k := by
  constructor
  · intro h
    cases hrelation : field.relation? with
    | some relation =>
        obtain ⟨quantifier, rfl, hquantifier⟩ := (classify?_relationship_iff hrelation).mp h
        cases ending with
        | none =>
            cases hquantifier
            exact .related hrelation
        | some e =>
            exact .quantified ((lookup_eq_some_iff quantifiers_nodup).mp hquantifier) hrelation
    | none =>
        cases hstored : field.isProperty with
        | false => cases (classify?_eq_none hstored hrelation).symm.trans h
        | true =>
            obtain ⟨op, rfl, hop, happlies⟩ := (classify?_comparison_iff hstored).mp h
            cases ending with
            | none =>
                cases hop
                exact .equals hstored
            | some e => exact .compared ((lookup_eq_some_iff comparators_nodup).mp hop) happlies
  · intro h
    cases h with
    | equals hstored =>
        exact (classify?_comparison_iff hstored).mpr
          ⟨.eq, rfl, rfl, appliesTo_eq_of_isProperty hstored⟩
    | compared hop happlies =>
        exact (classify?_comparison_iff (isProperty_of_appliesTo happlies)).mpr
          ⟨_, rfl, (lookup_eq_some_iff comparators_nodup).mpr hop, happlies⟩
    | related hrelation => exact (classify?_relationship_iff hrelation).mpr ⟨.some, rfl, rfl⟩
    | quantified hquantifier hrelation =>
        exact (classify?_relationship_iff hrelation).mpr
          ⟨_, rfl, (lookup_eq_some_iff quantifiers_nodup).mpr hquantifier⟩

-- No ending stands before another one that it is the end of.
theorem endings_pairwise :
    endings.Pairwise fun e f => ("_" ++ e).toList <:+ ("_" ++ f).toList → e = f := by
  decide +kernel

-- Two endings of one key are told apart by their length.
theorem isSuffix_of_length_le {name name' f : String} (hkey : key = name ++ "_" ++ e)
    (hkey' : key = name' ++ "_" ++ f) (hlength : e.length ≤ f.length) :
    ("_" ++ e).toList <:+ ("_" ++ f).toList := by
  have he : ("_" ++ e).toList <:+ key.toList := ⟨name.toList, by simp [hkey]⟩
  have hf : ("_" ++ f).toList <:+ key.toList := ⟨name'.toList, by simp [hkey']⟩
  exact List.suffix_of_suffix_length_le he hf (by
    simpa [String.length_toList] using hlength)

-- Of two ways to take a key apart, one leaves a longer ending.
theorem Splits.unique (h : Splits type key field ending) (hother : Splits type key other shorter)
    (hlength : endingLength ending = endingLength shorter) : field = other ∧ ending = shorter := by
  cases h with
  | exact hfield hname =>
      cases hother with
      | exact hfield' hname' =>
          exact ⟨type.eq_of_name_eq hfield hfield' (hname.trans hname'.symm), rfl⟩
      | ending hfree => exact absurd hname (hfree _ hfield)
  | @ending e hfree hfield _ hkey =>
      cases hother with
      | exact hfield' hname' => exact absurd hname' (hfree _ hfield')
      | @ending f _ hfield' _ hkey' =>
          have hle : e.length ≤ f.length := hlength.le
          have hge : f.length ≤ e.length := hlength.ge
          have hsame : "_" ++ e = "_" ++ f := String.toList_injective
            ((isSuffix_of_length_le hkey hkey' hle).eq_of_length_le
              (isSuffix_of_length_le hkey' hkey hge).length_le)
          obtain rfl : e = f := (String.append_right_inj _).mp hsame
          have hname : field.name = other.name := by
            simpa [String.append_assoc] using hkey.symm.trans hkey'
          exact ⟨type.eq_of_name_eq hfield hfield' hname, rfl⟩

-- The field whose name an ending leaves, together with the ending.
def leaves? (type : NodeType) (key : String) (f : String) : Option (Field × String) := do
  let field ← type.field? (← Text.beforeSuffix? key ("_" ++ f))
  return (field, f)

theorem split?_eq_findSome? : split? type key = endings.findSome? (leaves? type key) := rfl

theorem leaves?_eq_some_iff {f : String} :
    leaves? type key f = some (field, e) ↔
      f = e ∧ field ∈ type.fields ∧ key = field.name ++ "_" ++ e := by
  simp only [leaves?, Option.bind_eq_bind, Option.pure_def, Option.bind_eq_some_iff,
    Option.some.injEq, Prod.mk.injEq]
  constructor
  · rintro ⟨name, hbefore, found, hfound, rfl, rfl⟩
    obtain ⟨hmem, rfl⟩ := NodeType.field?_eq_some hfound
    exact ⟨rfl, hmem, by rw [Text.eq_append_of_beforeSuffix? hbefore, String.append_assoc]⟩
  · rintro ⟨rfl, hmem, rfl⟩
    rw [String.append_assoc]
    exact ⟨_, Text.beforeSuffix?_append _ _, field, NodeType.field?_eq_some_of_mem hmem, rfl, rfl⟩

-- The first ending that leaves the name of a field is the longest one.
theorem longestSplit_of_split? (hfree : ∀ f ∈ type.fields, f.name ≠ key)
    (h : split? type key = some (field, e)) : LongestSplit type key field (some e) := by
  rw [split?_eq_findSome?] at h
  obtain ⟨before, _, after, hendings, hfound, hbefore⟩ := List.findSome?_eq_some_iff.mp h
  obtain ⟨rfl, hfield, hkey⟩ := leaves?_eq_some_iff.mp hfound
  refine ⟨.ending hfree hfield (by simp [hendings]) hkey, fun other shorter hother => ?_⟩
  cases hother with
  | exact => exact Nat.zero_le _
  | @ending f _ hother hf hkey' =>
      by_contra hlonger
      have hsuffix := isSuffix_of_length_le hkey hkey' (Nat.le_of_not_le hlonger)
      have hpairwise := endings_pairwise
      rw [hendings, List.pairwise_append, List.pairwise_cons] at hpairwise
      rw [hendings, List.mem_append, List.mem_cons] at hf
      obtain hf | rfl | hf := hf
      · have hleaves := leaves?_eq_some_iff.mpr ⟨rfl, hother, hkey'⟩
        cases (hbefore f hf).symm.trans hleaves
      · exact hlonger le_rfl
      · obtain rfl := hpairwise.2.1.1 f hf hsuffix
        exact hlonger le_rfl

theorem not_splits_of_split? (hfree : ∀ f ∈ type.fields, f.name ≠ key)
    (h : split? type key = none) : ¬ Splits type key field ending := by
  rw [split?_eq_findSome?, List.findSome?_eq_none_iff] at h
  intro hsplits
  cases hsplits with
  | exact hfield hname => exact hfree _ hfield hname
  | @ending e _ hfield he hkey =>
      cases (h e he).symm.trans (leaves?_eq_some_iff.mpr ⟨rfl, hfield, hkey⟩)

theorem longestSplit_none (hfield : field ∈ type.fields) (hname : field.name = key) :
    LongestSplit type key field none := by
  refine ⟨.exact hfield hname, fun other shorter hother => ?_⟩
  cases hother with
  | exact => exact le_rfl
  | ending hfree => exact absurd hname (hfree _ hfield)

theorem LongestSplit.unique (h : LongestSplit type key field ending)
    (hother : LongestSplit type key other shorter) : field = other ∧ ending = shorter :=
  h.splits.unique hother.splits
    (Nat.le_antisymm (hother.longest _ _ h.splits) (h.longest _ _ hother.splits))

-- Where a key can be taken apart, there is a longest way to do so.
theorem Splits.exists_longest (h : Splits type key field ending) :
    ∃ found longest, LongestSplit type key found longest := by
  cases h with
  | exact hfield hname => exact ⟨field, none, longestSplit_none hfield hname⟩
  | @ending e hfree hfield he hkey =>
      cases hsplit : split? type key with
      | none => exact (not_splits_of_split? hfree hsplit (.ending hfree hfield he hkey)).elim
      | some found => exact ⟨found.1, some found.2, longestSplit_of_split? hfree hsplit⟩

-- The longest ending alone decides how a key is read, whether it fits the field or not.
theorem read?_eq_some_iff (hcombinator : ∀ c : Combinator, c.name ≠ key) :
    read? type key = some k ↔
      ∃ field ending, LongestSplit type key field ending ∧ Fits field ending k := by
  have hread {found : Field} {longest : Option String}
      (hlongest : LongestSplit type key found longest) :
      classify? found longest = some k ↔
        ∃ field ending, LongestSplit type key field ending ∧ Fits field ending k := by
    rw [classify?_eq_some_iff]
    constructor
    · exact fun hfits => ⟨found, longest, hlongest, hfits⟩
    · rintro ⟨field, ending, hother, hfits⟩
      obtain ⟨rfl, rfl⟩ := hother.unique hlongest
      exact hfits
  have hnone : Combinator.ofName? key = none := by simp [Combinator.ofName?, hcombinator]
  unfold read?
  rw [hnone]
  cases hfield : type.field? key with
  | some field =>
      obtain ⟨hmem, hname⟩ := NodeType.field?_eq_some hfield
      exact hread (longestSplit_none hmem hname)
  | none =>
      have hfree : ∀ f ∈ type.fields, f.name ≠ key := by
        rintro f hf rfl
        cases hfield.symm.trans (NodeType.field?_eq_some_of_mem hf)
      cases hsplit : split? type key with
      | some found => exact hread (longestSplit_of_split? hfree hsplit)
      | none =>
          refine iff_of_false (by simp) ?_
          rintro ⟨field, ending, hlongest, -⟩
          exact not_splits_of_split? hfree hsplit hlongest.splits

-- No valid reading stands behind a longer ending that leaves a field which it does not fit.
def Commits (type : NodeType) (key : String) : Prop :=
  ∀ ending k, Reading type key ending k → ∀ field longer, Splits type key field longer →
    endingLength ending < endingLength longer → ∃ k', Fits field longer k'

-- A valid reading ends no earlier than the one that is found.
theorem Reading.exists_longest (hcommits : Commits type key) (h : Reading type key ending k) :
    ∃ field longest k', LongestSplit type key field longest ∧ Fits field longest k' ∧
      endingLength ending ≤ endingLength longest ∧ (ending = longest → k' = k) := by
  obtain ⟨field, hsplits, hfits⟩ := h
  obtain ⟨found, longest, hlongest⟩ := hsplits.exists_longest
  have hle := hlongest.longest field ending hsplits
  rcases hle.eq_or_lt with heq | hlt
  · obtain ⟨rfl, rfl⟩ := hsplits.unique hlongest.splits heq
    exact ⟨field, ending, k, hlongest, hfits, le_rfl, fun _ => rfl⟩
  · obtain ⟨k', hfits'⟩ :=
      hcommits ending k ⟨field, hsplits, hfits⟩ found longest hlongest.splits hlt
    refine ⟨found, longest, k', hlongest, hfits', hle, ?_⟩
    rintro rfl
    exact absurd rfl hlt.ne

-- A key is read by its longest ending, and refused where that does not fit. Without such a refusal
-- it is read exactly where it has a valid reading, and then by the one with the longest ending.
theorem read_eq_ok_iff_reading (hcombinator : ∀ c : Combinator, c.name ≠ key) :
    (∀ k, read type key = .ok k ↔
        ∃ field ending, LongestSplit type key field ending ∧ Fits field ending k) ∧
      ((∀ k, read type key ≠ .ok k) → read type key = .error (.invalidFilterField key)) ∧
      (Commits type key →
        (∀ k, read type key = .ok k ↔ ∃ ending, Reading type key ending k ∧
          ∀ other k', Reading type key other k' → endingLength other ≤ endingLength ending) ∧
        ((∃ k, read type key = .ok k) ↔ ∃ ending k, Reading type key ending k)) := by
  have hread (k : FilterKey) : read type key = .ok k ↔
      ∃ field ending, LongestSplit type key field ending ∧ Fits field ending k := by
    rw [read_eq_ok, read?_eq_some_iff hcombinator]
  refine ⟨hread, fun hfails => ?_, fun hcommits => ⟨fun k => ?_, ?_⟩⟩
  · unfold read at hfails ⊢
    cases hfound : read? type key with
    | some k =>
        rw [hfound] at hfails
        exact absurd rfl (hfails k)
    | none => rfl
  · rw [hread]
    constructor
    · rintro ⟨field, ending, hlongest, hfits⟩
      exact ⟨ending, ⟨field, hlongest.splits, hfits⟩, fun other k' ⟨f, hsplits, _⟩ =>
        hlongest.longest f other hsplits⟩
    · rintro ⟨ending, hreading, hmost⟩
      obtain ⟨field, longest, k', hlongest, hfits, hle, hsame⟩ := hreading.exists_longest hcommits
      have hge := hmost longest k' ⟨field, hlongest.splits, hfits⟩
      obtain ⟨f, hsplits, -⟩ := hreading
      obtain ⟨rfl, rfl⟩ := hsplits.unique hlongest.splits (Nat.le_antisymm hle hge)
      exact ⟨f, ending, hlongest, hsame rfl ▸ hfits⟩
  · constructor
    · rintro ⟨k, hk⟩
      obtain ⟨field, ending, hlongest, hfits⟩ := (hread k).mp hk
      exact ⟨ending, k, field, hlongest.splits, hfits⟩
    · rintro ⟨ending, k, hreading⟩
      obtain ⟨field, longest, k', hlongest, hfits, -⟩ := hreading.exists_longest hcommits
      exact ⟨k', (hread k').mpr ⟨field, longest, hlongest, hfits⟩⟩

def location : Field := ⟨"location", .compound .point, false, false, false, false, none, [], []⟩

def locationDistance : Field :=
  ⟨"location_distance", .scalar .float, false, false, false, false, none, [], []⟩

-- Places with a point and with a number that is called like a distance from it.
def placeType : NodeType where
  name := "Place"
  additionalLabels := []
  scopes := .unrestricted
  fields := [location, locationDistance]
  primaryKey := none
  fields_nodup := by decide
  primaryKey_scalar := by simp

theorem placeType_splits (h : Splits placeType "location_distance_lt" field ending) :
    (field = location ∧ ending = some "distance_lt") ∨
      (field = locationDistance ∧ ending = some "lt") := by
  cases h with
  | exact hfield hname =>
      simp only [placeType, List.mem_cons, List.not_mem_nil, or_false] at hfield
      rcases hfield with rfl | rfl <;> exact absurd hname (by decide)
  | @ending e _ hfield _ hkey =>
      simp only [placeType, List.mem_cons, List.not_mem_nil, or_false] at hfield
      rcases hfield with rfl | rfl
      · have hcut : "location" ++ "_" ++ "distance_lt" = "location" ++ "_" ++ e := hkey
        exact .inl ⟨rfl, congrArg some ((String.append_right_inj _).mp hcut).symm⟩
      · have hcut : "location_distance" ++ "_" ++ "lt" = "location_distance" ++ "_" ++ e := hkey
        exact .inr ⟨rfl, congrArg some ((String.append_right_inj _).mp hcut).symm⟩

-- Of two valid readings the one with the longer ending is taken.
theorem read_eq_ok_iff_reading_placeType :
    Reading placeType "location_distance_lt" (some "lt") (.comparison locationDistance .lt) ∧
      read placeType "location_distance_lt" = .ok (.comparison location (.distance .lt)) := by
  have hfree : ∀ f ∈ placeType.fields, f.name ≠ "location_distance_lt" := by decide
  have hfar : Fits location (some "distance_lt") (.comparison location (.distance .lt)) :=
    .compared (by decide) rfl
  have hnear : Fits locationDistance (some "lt") (.comparison locationDistance .lt) :=
    .compared (by decide) rfl
  have hlonger : Reading placeType "location_distance_lt" (some "distance_lt")
      (.comparison location (.distance .lt)) :=
    ⟨location, .ending hfree (.head _) (by decide) (by decide), hfar⟩
  have hcommits : Commits placeType "location_distance_lt" := by
    rintro - - - field longer hsplits -
    obtain ⟨rfl, rfl⟩ | ⟨rfl, rfl⟩ := placeType_splits hsplits
    · exact ⟨_, hfar⟩
    · exact ⟨_, hnear⟩
  have hcombinator : ∀ c : Combinator, c.name ≠ "location_distance_lt" := by
    intro c
    cases c <;> decide
  obtain ⟨-, -, hread⟩ := read_eq_ok_iff_reading hcombinator
  refine ⟨⟨_, .ending hfree (.tail _ (.head _)) (by decide) (by decide), hnear⟩, ?_⟩
  refine ((hread hcommits).1 _).mpr ⟨_, hlonger, fun other k' ⟨field, hsplits, _⟩ => ?_⟩
  obtain ⟨rfl, rfl⟩ | ⟨rfl, rfl⟩ := placeType_splits hsplits <;> decide

def route : Field := ⟨"route", .scalar .string, false, true, false, false, none, [], []⟩

def routeDistance : Field :=
  ⟨"route_distance", .scalar .float, false, false, false, false, none, [], []⟩

def tripType : NodeType where
  name := "Trip"
  additionalLabels := []
  scopes := .unrestricted
  fields := [route, routeDistance]
  primaryKey := none
  fields_nodup := by decide
  primaryKey_scalar := by simp

-- The longer ending leaves a text, which has no distance, and so the key is refused.
theorem read_refuses_reading :
    Reading tripType "route_distance_lt" (some "lt") (.comparison routeDistance .lt) ∧
      read tripType "route_distance_lt" = .error (.invalidFilterField "route_distance_lt") := by
  have hfree : ∀ f ∈ tripType.fields, f.name ≠ "route_distance_lt" := by decide
  exact ⟨⟨routeDistance, .ending hfree (.tail _ (.head _)) (by decide) (by decide),
    .compared (by decide) rfl⟩, rfl⟩

end CypherCompiler.FilterKey
