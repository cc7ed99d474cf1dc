import CypherCompiler.Proofs.Filter.KeyReading
import CypherCompiler.Proofs.Graph.Predicate

namespace CypherCompiler

-- A temporal value is compared with a text, or with a map of some of its constituents.
inductive Compound.Spells (compound : Compound) : Json → Prop
  | text (s : String) : Spells compound (.str s)
  | parts {members : List (String × Json)} (hne : members ≠ [])
      (hparts : ∀ part ∈ members, part.1 ∈ compound.constituents ∧ part.2.isNull = false) :
      Spells compound (.obj members)

-- What is taken out of a temporal value is in one of the two forms, also where it was given as a
-- `formatted` text.
theorem Compound.spells_of_temporalValue? {compound : Compound} {v value : Json}
    (h : compound.temporalValue? v = some value) : compound.Spells value := by
  cases v with
  | str s =>
      cases h
      exact .text s
  | obj members =>
      simp only [temporalValue?] at h
      cases hformatted : Json.Members.get? members formatted with
      | some text =>
          simp only [hformatted] at h
          split at h
          · cases h
            rename_i htext
            cases value with
            | str s => exact .text s
            | _ => cases htext
          · cases h
      | none =>
          simp only [hformatted] at h
          split at h
          · cases h
            rename_i hparts
            rw [Bool.and_eq_true, Bool.not_eq_true', List.all_eq_true] at hparts
            refine .parts (fun hempty => by simp [hempty] at hparts) fun part hpart => ?_
            simpa using hparts.2 part hpart
          · cases h
  | _ => cases h

namespace Scalar

theorem isObject_normalize (s : Scalar) (v : Json) : (s.normalize v).isObject = v.isObject := by
  cases v with
  | number | bool =>
      rw [normalize]
      split <;> rfl
  | _ => simp [normalize, Json.isObject]

theorem isArray_normalize (s : Scalar) (v : Json) : (s.normalize v).isArray = v.isArray := by
  cases v with
  | number | bool =>
      rw [normalize]
      split <;> rfl
  | _ => simp [normalize, Json.isArray]

end Scalar

namespace Field

-- A single value of the kind of the field.
def TakesOne (f : Field) (v : Json) : Prop :=
  match f.kind with
  | .scalar _ => v.isObject = false
  | .compound .point => v.isObject = true
  | .compound compound => compound.Spells v
  | .relationship _ | .computed .. => False

-- A value that a comparator can be given for the field.
def Takes (f : Field) (op : Comparator) (v : Json) : Prop :=
  match op with
  | .isIn | .notIn => ∃ items, v = .arr items ∧ ∀ item ∈ items, f.TakesOne item
  | .distance _ => ∃ members point distance, v = .obj members ∧
      Json.Members.get? members "point" = some (.obj point) ∧
      Json.Members.get? members "distance" = some (.number distance)
  | _ => (v.isArray = true → f.list = true) ∧ f.TakesOne v

variable {f : Field} {v value : Json}

-- Ids are turned into texts, and a `formatted` text stands for itself; neither makes or takes
-- away a list.
theorem takesOne_of_singleValue? (h : f.singleValue? v = some value) :
    f.TakesOne value ∧ (value.isArray = true → v.isArray = true) := by
  unfold singleValue? at h
  unfold TakesOne
  cases hkind : f.kind with
  | scalar s =>
      simp only [hkind] at h
      split at h
      · cases h
      · rename_i hobject
        cases h
        refine ⟨?_, ?_⟩
        · simpa [s.isObject_normalize] using hobject
        · simp [s.isArray_normalize]
  | compound compound =>
      cases compound with
      | point =>
          simp only [hkind] at h
          split at h
          · rename_i hobject
            cases h
            exact ⟨hobject, fun harray => harray⟩
          · cases h
      | _ =>
          simp only [hkind] at h
          have hspells := Compound.spells_of_temporalValue? h
          refine ⟨hspells, fun harray => ?_⟩
          cases hspells <;> cases harray
  | relationship | computed =>
      simp only [hkind] at h
      cases h

theorem takesOne_of_mapM_singleValue? {items values : List Json}
    (h : items.mapM f.singleValue? = some values) : ∀ value ∈ values, f.TakesOne value := by
  induction items generalizing values with
  | nil =>
      cases h
      simp
  | cons item rest ih =>
      simp only [List.mapM_cons, Option.bind_eq_bind, Option.pure_def, Option.bind_eq_some_iff,
        Option.some.injEq] at h
      obtain ⟨first, hfirst, more, hmore, rfl⟩ := h
      exact List.forall_mem_cons.mpr ⟨(takesOne_of_singleValue? hfirst).1, ih hmore⟩

theorem takes_of_distanceValue? (h : distanceValue? v = some value) (test : DistanceTest) :
    f.Takes (.distance test) value := by
  simp only [distanceValue?, Option.bind_eq_bind, Option.bind_eq_some_iff] at h
  obtain ⟨members, hmembers, point, hpoint, distance, hdistance, h⟩ := h
  split at h
  · rename_i hshape
    cases h
    cases v with
    | obj own =>
        cases hmembers
        cases point with
        | obj point =>
            cases distance with
            | number distance => exact ⟨_, _, _, rfl, hpoint, hdistance⟩
            | _ => simp [Json.isNumber] at hshape
        | _ => simp [Json.isObject] at hshape
    | _ => cases hmembers
  · cases h

-- The value that a comparison takes out of the request suits the comparator and the field.
theorem takes_of_comparedValue? {op : Comparator} (h : f.comparedValue? op v = some value) :
    f.Takes op value := by
  have hmany : f.comparedValue? .isIn v = some value →
      ∃ items, value = .arr items ∧ ∀ item ∈ items, f.TakesOne item := by
    intro hlist
    cases v with
    | arr items =>
        obtain ⟨values, hvalues, rfl⟩ := Option.map_eq_some_iff.mp hlist
        exact ⟨values, rfl, takesOne_of_mapM_singleValue? hvalues⟩
    | _ => cases hlist
  have hone : (if v.isArray && !f.list then none else f.singleValue? v) = some value →
      (value.isArray = true → f.list = true) ∧ f.TakesOne value := by
    intro hsingle
    split at hsingle
    · cases hsingle
    · rename_i hlist
      obtain ⟨htakes, harray⟩ := takesOne_of_singleValue? hsingle
      exact ⟨fun hvalue => by simpa [harray hvalue] using hlist, htakes⟩
  cases op with
  | isIn => exact hmany h
  | notIn => exact hmany h
  | distance test => exact takes_of_distanceValue? h test
  | _ => exact hone h

end Field

theorem FilterKey.comparison_of_read? {type : NodeType} {key : String} {field : Field}
    {op : Comparator} (h : read? type key = some (.comparison field op)) :
    field ∈ type.fields ∧ op.appliesTo field = true := by
  obtain ⟨c, -, hk⟩ | ⟨found, ending, hclassify, hfield⟩ := read?_cases h
  · cases hk
  · have hfound : found ∈ type.fields := by
      obtain ⟨-, hname⟩ | ⟨_, _, -, -, -, hname⟩ := hfield <;>
        exact (NodeType.field?_eq_some hname).1
    cases classify?_eq_some_iff.mp hclassify with
    | equals hstored => exact ⟨hfound, appliesTo_eq_of_isProperty hstored⟩
    | compared _ happlies => exact ⟨hfound, happlies⟩

namespace Predicate

-- What a comparison of a field may stand against: null where it asks for absence or presence,
-- else a parameter whose value suits the comparator and the field.
def OperandSuits (ps : Parameters) (field : Field) (op : Comparator) : Operand → Prop
  | .null => op = .eq ∨ op = .not
  | .parameter name => ∃ v, ps.get? name = some v ∧ field.Takes op v

mutual

-- Every part of the predicate makes sense on the nodes that it is met on: those of the type at
-- the start, and those of the target below each relationship.
def WellTyped (catalog : Catalog) (ps : Parameters) : Predicate → NodeType → Prop
  | compare c, type => ∃ field ∈ type.fields, field.isProperty = true ∧
      c.target = .property field.name field.compound? ∧ c.op.appliesTo field = true ∧
      OperandSuits ps field c.op c.operand
  | all children, type => AllWellTyped catalog ps children type
  | any children, type => AllWellTyped catalog ps children type
  | not child, type => WellTyped catalog ps child type
  | related hop child, type =>
      (∃ field ∈ type.fields, field.name = hop.field ∧ field.relation? = some hop.relation) ∧
        ∃ target, catalog.type? hop.relation.target = some target ∧
          WellTyped catalog ps child target

def AllWellTyped (catalog : Catalog) (ps : Parameters) : List Predicate → NodeType → Prop
  | [], _ => True
  | p :: rest, type => WellTyped catalog ps p type ∧ AllWellTyped catalog ps rest type

end

variable {catalog : Catalog}

theorem comparison_wellTyped {type : NodeType} {field : Field} {op : Comparator} {key : String}
    {v : Json} {hops : List String} {path : ParameterPath} {ps qs final : Parameters}
    {p : Predicate} (hfield : field ∈ type.fields) (happlies : op.appliesTo field = true)
    (h : comparison field op key v hops path ps = .ok (p, qs)) (hfinal : qs.Extends final) :
    WellTyped catalog final p type := by
  have hstored := FilterKey.isProperty_of_appliesTo happlies
  obtain ⟨-, hop, rfl, rfl⟩ | ⟨-, value, hvalue, rfl, hname, rfl⟩ := comparison_cases h
  · exact ⟨field, hfield, hstored, rfl, happlies, hop⟩
  · have hfound := hfinal _ _ (Parameters.get?_append hname value)
    exact ⟨field, hfield, hstored, rfl, happlies, value, hfound,
      Field.takes_of_comparedValue? hvalue⟩

mutual

-- Later members of the request only add to the parameters, so that `final` stands for the map
-- at the end.
theorem ofMembers_wellTyped {type : NodeType} {hops : List String} {negated : Bool}
    {path : ParameterPath} (members : List (String × Json)) {ps qs final : Parameters}
    {children : List Predicate}
    (h : ofMembers catalog type hops negated path members ps = .ok (children, qs))
    (hfinal : qs.Extends final) : AllWellTyped catalog final children type := by
  match members, h with
  | [], h =>
      cases ofMembers_nil_eq_ok.mp h
      trivial
  | (key, v) :: rest, h =>
      obtain ⟨p, more, ms, hp, hmore, rfl⟩ := ofMembers_cons_eq_ok.mp h
      have hkeeps := (ofMembers_expresses rest hmore).keeps
      exact ⟨ofMember_wellTyped v hp (hkeeps.trans hfinal), ofMembers_wellTyped rest hmore hfinal⟩
termination_by sizeOf members

theorem ofMember_wellTyped {type : NodeType} {hops : List String} {negated : Bool}
    {path : ParameterPath} {key : String} (v : Json) {ps qs final : Parameters} {p : Predicate}
    (h : ofMember catalog type hops negated path key v ps = .ok (p, qs))
    (hfinal : qs.Extends final) : WellTyped catalog final p type := by
  cases ofMember_cases h with
  | all _ hitems => exact ofItems_wellTyped _ hitems hfinal
  | any _ hitems => exact ofItems_wellTyped _ hitems hfinal
  | not _ hmembers => exact ofMembers_wellTyped _ hmembers hfinal
  | comparison hkey hcompare =>
      obtain ⟨hfield, happlies⟩ := FilterKey.comparison_of_read? hkey
      exact comparison_wellTyped hfield happlies hcompare hfinal
  | absent hkey htarget _ =>
      obtain ⟨hfield, hrelation⟩ := FilterKey.relationship_of_read? hkey
      exact ⟨⟨_, hfield, rfl, hrelation⟩, _, htarget, trivial⟩
  | related hkey htarget hmembers =>
      obtain ⟨hfield, hrelation⟩ := FilterKey.relationship_of_read? hkey
      exact ⟨⟨_, hfield, rfl, hrelation⟩, _, htarget, ofMembers_wellTyped _ hmembers hfinal⟩
termination_by sizeOf v

theorem ofItems_wellTyped {type : NodeType} {hops : List String} {negated : Bool}
    {path : ParameterPath} {key : String} {index : Nat} (items : List Json)
    {ps qs final : Parameters} {children : List Predicate}
    (h : ofItems catalog type hops negated path key index items ps = .ok (children, qs))
    (hfinal : qs.Extends final) : AllWellTyped catalog final children type := by
  match items, h with
  | [], h =>
      cases ofItems_nil_eq_ok.mp h
      trivial
  | item :: rest, h =>
      obtain ⟨members, inner, more, ms, rfl, hinner, hmore, rfl⟩ := ofItems_cons_cases h
      have hkeeps := (ofItems_expresses rest hmore).1.keeps
      exact ⟨ofMembers_wellTyped members hinner (hkeeps.trans hfinal),
        ofItems_wellTyped rest hmore hfinal⟩
termination_by sizeOf items

end

-- A filter that is accepted says of each node only what can be said of nodes of its type, and
-- the values that it compares with are supplied in a form that fits.
theorem ofFilter_wellTyped {type : NodeType} {path : ParameterPath} {filter : Json}
    {ps qs : Parameters} {children : List Predicate}
    (h : ofFilter catalog type path filter ps = .ok (children, qs)) :
    WellTyped catalog qs (.all children) type := by
  obtain ⟨members, rfl, hmembers⟩ := ofFilter_cases h
  exact ofMembers_wellTyped members hmembers (.refl qs)

-- Cinemas with a place, an opening day and awards, and what they show.
def cinemaType : NodeType where
  name := "Cinema"
  additionalLabels := []
  scopes := .unrestricted
  fields :=
    [⟨"id", .scalar .id, false, true, true, true, none, [], []⟩,
      ⟨"place", .compound .point, false, false, false, false, none, [], []⟩,
      ⟨"opened", .compound .date, false, false, false, false, none, [], []⟩,
      ⟨"awards", .scalar .string, true, false, false, false, none, [], []⟩,
      ⟨"shows", .relationship ⟨"SHOWS", .out, "Show"⟩, true, false, false, false, none, [], []⟩]
  primaryKey := some "id"
  fields_nodup := by decide
  primaryKey_scalar := by decide

def showType : NodeType where
  name := "Show"
  additionalLabels := []
  scopes := .unrestricted
  fields :=
    [⟨"title", .scalar .string, false, true, false, false, none, [], []⟩,
      ⟨"starts", .compound .dateTime, false, false, false, false, none, [], []⟩]
  primaryKey := none
  fields_nodup := by decide
  primaryKey_scalar := by decide

def cinemas : Catalog where
  types := [cinemaType, showType]
  types_nodup := by decide
  closed := by decide

-- Cinemas near a place that got awards, with no show in the evening, or none at all.
def eveningFilter : Json := .obj
  [("id_not_in", .arr [.ofInt 4, .str "n5"]),
    ("place_distance_lt", .obj [("point", .obj [("x", .ofInt 1), ("y", .ofInt 2)]),
      ("distance", .ofInt 500)]),
    ("opened_not", .null),
    ("awards", .ofStrings ["Best Screen"]),
    ("OR", .arr
      [.obj [("NOT", .obj [("shows", .obj [("starts_gte", .obj [("formatted",
          .str "2024-06-01T18:00:00Z")])])])],
        .obj [("shows", .null)],
        .obj [("opened_lt", .obj [("year", .ofInt 1950), ("month", .ofInt 1)])]])]

theorem ofFilter_wellTyped_eveningFilter :
    ∃ children qs, ofFilter cinemas cinemaType ⟨["filter"]⟩ eveningFilter .empty =
        .ok (children, qs) ∧ WellTyped cinemas qs (.all children) cinemaType := by
  obtain ⟨children, qs, h⟩ : ∃ children qs,
      ofFilter cinemas cinemaType ⟨["filter"]⟩ eveningFilter .empty = .ok (children, qs) :=
    ⟨_, _, rfl⟩
  exact ⟨children, qs, h, ofFilter_wellTyped h⟩

end Predicate

end CypherCompiler
