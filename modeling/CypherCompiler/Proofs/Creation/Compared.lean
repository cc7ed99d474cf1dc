import CypherCompiler.Proofs.Creation.Relations
import CypherCompiler.Proofs.Filter.KeyReading
import CypherCompiler.Proofs.Graph.Predicate
import CypherCompiler.Proofs.Outcome.Compilation

namespace CypherCompiler

open Cypher CreatedObject Parameters

-- A write and a filter take the values of a property in the same form, but for two: a compound
-- property of many values, and a temporal value that is given as a `formatted` text.
def Field.StoresAsCompared (f : Field) (v : Json) : Prop :=
  ∀ compound ∈ f.compound?, f.list = false ∧
    (compound.isTemporal = true → ∀ members, v = .obj members →
      Json.Members.get? members Compound.formatted = none)

-- A temporal value that is no `formatted` text is compared with as it is given.
theorem Compound.eq_of_temporalValue? {compound : Compound} {v value : Json}
    (hformatted : ∀ members, v = .obj members → Json.Members.get? members formatted = none)
    (h : compound.temporalValue? v = some value) : value = v := by
  cases v with
  | str s =>
      cases h
      rfl
  | obj members =>
      simp only [temporalValue?, hformatted members rfl] at h
      split at h
      · cases h
        rfl
      · cases h
  | _ => cases h

namespace CreatedObject

variable {type : NodeType} {field : Field} {path : ParameterPath} {v value : Json}

-- What a test for equality compares with is what a write stores.
theorem suppliedValue_of_comparedValue? (hfield : field ∈ type.fields)
    (hsame : field.StoresAsCompared v) (h : field.comparedValue? .eq v = some value) :
    suppliedValue type field.name v = value := by
  have hsingle : field.singleValue? v = some value := by
    simp only [Field.comparedValue?] at h
    split at h
    · cases h
    · exact h
  unfold suppliedValue Field.scalar?
  rw [NodeType.field?_eq_some_of_mem hfield, Option.bind_some]
  unfold Field.singleValue? at hsingle
  cases hkind : field.kind with
  | scalar scalar =>
      simp only [hkind] at hsingle ⊢
      split at hsingle
      · cases hsingle
      · exact Option.some.inj hsingle
  | compound compound =>
      have hcompound : field.compound? = some compound := by
        unfold Field.compound?
        rw [hkind]
      obtain ⟨-, htemporal⟩ := hsame compound hcompound
      simp only [hkind] at hsingle ⊢
      cases compound with
      | point =>
          simp only at hsingle
          split at hsingle
          · exact Option.some.inj hsingle
          · cases hsingle
      | _ => exact (Compound.eq_of_temporalValue? (htemporal rfl) hsingle).symm
  | relationship | computed =>
      simp only [hkind] at hsingle
      cases hsingle

-- Both build a compound value in the same way, and no value that is not compound.
theorem writtenMember_render (hfield : field ∈ type.fields) (hsame : field.StoresAsCompared v) :
    (writtenMember type path field.name).render =
      (CompareTarget.property field.name field.compound?).value .eq
        (parameterName path field.name) := by
  unfold writtenMember
  simp only [NodeType.field?_eq_some_of_mem hfield]
  cases hcompound : field.compound? with
  | none => rfl
  | some compound =>
      obtain ⟨hlist, -⟩ := hsame compound hcompound
      simp only [hlist]
      rfl

end CreatedObject

-- A property that is called like no combinator is a key of its own.
theorem FilterKey.read?_of_isProperty {type : NodeType} {field : Field}
    (hfield : field ∈ type.fields) (hstored : field.isProperty = true)
    (hname : ∀ c : Combinator, c.name ≠ field.name) :
    read? type field.name = some (.comparison field .eq) := by
  have hnone : Combinator.ofName? field.name = none := by simp [Combinator.ofName?, hname]
  unfold read?
  simp only [hnone, NodeType.field?_eq_some_of_mem hfield]
  exact classify?_eq_some_iff.mpr (.equals hstored)

namespace Predicate

variable {catalog : Catalog} {type : NodeType} {field : Field}

-- A filter on one property is one test for equality.
theorem ofFilter_singleton_cases {path : ParameterPath} {v : Json} {ps qs : Parameters}
    {children : List Predicate} (hfield : field ∈ type.fields)
    (hstored : field.isProperty = true) (hname : ∀ c : Combinator, c.name ≠ field.name)
    (hv : v.isNull = false)
    (h : ofFilter catalog type path (.obj [(field.name, v)]) ps = .ok (children, qs)) :
    ∃ value, field.comparedValue? .eq v = some value ∧
      children = [.compare ⟨[], .property field.name field.compound?, .eq,
        .parameter (path.child field.name).name⟩] ∧
      qs.get? (path.child field.name).name = some value := by
  have hread := FilterKey.read?_of_isProperty hfield hstored hname
  obtain ⟨members, hmembers, h⟩ := ofFilter_cases h
  cases hmembers
  obtain ⟨p, more, ms, hp, hmore, rfl⟩ := ofMembers_cons_eq_ok.mp h
  cases ofMembers_nil_eq_ok.mp hmore
  cases ofMember_cases hp with
  | all hkey | any hkey | not hkey | absent hkey | related hkey => cases hread.symm.trans hkey
  | comparison hkey hcompare =>
      cases hread.symm.trans hkey
      obtain ⟨hnull, -⟩ | ⟨-, value, hvalue, rfl, hfresh, rfl⟩ := comparison_cases hcompare
      · cases hv.symm.trans hnull
      · exact ⟨value, hvalue, rfl, get?_append hfresh value⟩

end Predicate

namespace Mutation

variable {setting : Setting} {type : NodeType} {field : Field} {path : ParameterPath} {v : Json}
  {d d' : Draft} {s : Selection} {items : List Item}

theorem property?_eq_ok (hfield : field ∈ type.fields) (hstored : field.isProperty = true)
    (hfresh : parameterName path field.name ∉ d.parameters.names) :
    property? type path field.name v d =
      .ok (some (field.name, writtenMember type path field.name),
        { d with parameters := ⟨d.parameters.members ++
          [(parameterName path field.name, suppliedValue type field.name v)]⟩ }) := by
  have hfound := NodeType.field?_eq_some_of_mem hfield
  unfold property?
  unfold Field.isProperty at hstored
  unfold writtenMember suppliedValue Field.compound? Field.scalar?
  simp only [hfound, Option.bind_some]
  cases hkind : field.kind with
  | scalar | compound =>
      simp only [bind_eq_ok, pure_eq_ok, Drafting.value_eq_ok]
      exact ⟨_, _, ⟨hfresh, rfl⟩, rfl⟩
  | relationship | computed =>
      rw [hkind] at hstored
      cases hstored

-- An object with one property is written without any clause for related nodes.
theorem properties_singleton_eq_ok (hfield : field ∈ type.fields)
    (hstored : field.isProperty = true)
    (hfresh : parameterName path field.name ∉ d.parameters.names) :
    properties type path [] [(field.name, v)] d =
      .ok ([(field.name, writtenMember type path field.name)],
        { d with parameters := ⟨d.parameters.members ++
          [(parameterName path field.name, suppliedValue type field.name v)]⟩ }) := by
  have hread : ¬ ([] : List String).contains field.name = true := by simp
  rw [properties, if_neg hread, bind_eq_ok]
  refine ⟨_, _, property?_eq_ok hfield hstored hfresh, ?_⟩
  rw [bind_eq_ok]
  exact ⟨[], _, properties_nil_eq_ok.mpr rfl, rfl⟩

theorem relations_singleton_eq_ok {catalog : Catalog} {node : String} {level : Level}
    (hfield : field ∈ type.fields) (hstored : field.isProperty = true) :
    relations catalog type node level path [] [(field.name, v)] d = .ok ([], d) := by
  have hrelation : field.relation? = none := by
    unfold Field.isProperty at hstored
    unfold Field.relation?
    cases hkind : field.kind with
    | scalar | compound | computed => rfl
    | relationship =>
        rw [hkind] at hstored
        cases hstored
  have hrest : (do
      let clauses ← (pure [] : Drafting (List Clause))
      return clauses ++ (← relations catalog type node level path [] [])) d = .ok ([], d) := by
    simp only [bind_eq_ok, pure_eq_ok, relations_nil_eq_ok]
    exact ⟨_, _, rfl, _, _, rfl, rfl⟩
  rw [relations]
  cases hread : (type.field? field.name).filter fun _ =>
      !([] : List String).contains field.name && !v.isNull with
  | none => exact hrest
  | some found =>
      obtain ⟨hfound, -⟩ := Option.filter_eq_some_iff.mp hread
      cases (NodeType.field?_eq_some_of_mem hfield).symm.trans hfound
      simp only [hrelation]
      exact hrest

-- The draft of a create with one property, when all data have been taken out.
def writtenDraft (type : NodeType) (name : String) (v : Json) (d : Draft) : Draft :=
  ⟨d.aliases.reserve (Alias.root type.name), ⟨d.parameters.members ++
    [(parameterName dataPath name, suppliedValue type name v)]⟩⟩

theorem create_singleton_eq_ok (hdata : s.arguments = [(Argument.data, .obj [(field.name, v)])])
    (hfield : field ∈ type.fields) (hstored : field.isProperty = true)
    (hfresh : parameterName dataPath field.name ∉ d.parameters.names)
    (hitems : result setting type (Alias.root type.name) s
      (writtenDraft type field.name v d) = .ok (items, d')) :
    Mutation.statement setting type .create s d =
      .ok (.write [.create ⟨Alias.root type.name, type.labels,
          [(field.name, writtenMember type dataPath field.name)]⟩]
        (Alias.root type.name) items s.responseKey, d') := by
  have hfind : s.arguments.keys.find? (!(allowedArguments .create).contains ·) = none := by
    rw [hdata]
    rfl
  have hargument : s.argument? Argument.data = some (.obj [(field.name, v)]) := by
    rw [Selection.argument?, hdata]
    rfl
  unfold Mutation.statement
  simp only [bind_eq_ok, Drafting.reserve_eq_ok, hfind]
  refine ⟨_, _, rfl, ?_⟩
  unfold create
  simp only [bind_eq_ok, lift_eq_ok, pure_eq_ok, data_eq_ok]
  refine ⟨_, _, ⟨_, hargument, rfl⟩, _, _, properties_singleton_eq_ok hfield hstored hfresh, _, _,
    relations_singleton_eq_ok hfield hstored, _, _, hitems, rfl⟩

-- What was taken out of the data is found after the answer has been put together.
theorem result_extends {node : String} (h : result setting type node s d = .ok (items, d')) :
    d.parameters.Extends d'.parameters := by
  obtain ⟨plan, e, hplan, hprojected⟩ := result_cases h
  obtain ⟨-, hplanned⟩ := Selection.planSelections_cases hplan
  obtain ⟨added, hmembers, -⟩ := Selection.projectAll_supplies s.selections hprojected
  rw [hplanned] at hmembers
  have hafter : d'.parameters = ⟨d.parameters.members ++ added⟩ := by rw [← hmembers]
  rw [hafter]
  exact .append _ _

end Mutation

namespace Request

variable {r : Request} {catalog : Catalog} {config : Config} {type : NodeType}

theorem compile_eq_ok {statement : Statement} {d : Draft}
    (htype : r.rootType catalog config = .ok type)
    (hscopes : config.authScopes = true → r.authorize catalog type = .ok ())
    (hstatement : r.statement ⟨catalog, config.strictArguments, r.cypherParams⟩ type
      r.initialDraft = .ok (statement, d)) :
    r.compile catalog config = .ok ⟨statement, d.parameters⟩ := by
  unfold compile
  simp only [except_bind_eq_ok, htype]
  refine ⟨type, rfl, ?_⟩
  by_cases hon : config.authScopes = true
  · simp only [hon, ite_true, except_bind_eq_ok]
    exact ⟨(), hscopes hon, _, hstatement, rfl⟩
  · simp only [hon, Bool.false_eq_true, ite_false, except_bind_eq_ok]
    exact ⟨_, hstatement, rfl⟩

-- Before the data, only the caller's variables have been taken out.
theorem parameterName_not_mem_initialDraft (r : Request) (key : String) :
    parameterName Mutation.dataPath key ∉ r.initialDraft.parameters.names := by
  have hname : parameterName Mutation.dataPath key = "data" ++ "_" ++ key := rfl
  have hother : parameterName Mutation.dataPath key ≠ cypherParamsName := by
    intro h
    rw [hname] at h
    have hfirst := congrArg (fun s : String => s.toList.head?) h
    simp [cypherParamsName] at hfirst
  unfold initialDraft
  split
  · simp [Draft.empty, Parameters.empty, Parameters.names, Json.Members.keys]
  · simpa [Parameters.share, Parameters.empty, Parameters.names, Json.Members.keys,
      Parameters.contains, Json.Members.contains] using hother

-- A write takes every value that a filter takes, and hands it over to the database as the filter
-- does.
theorem compile_storesCompared (hoperation : r.operation = .create)
    (htype : r.rootType catalog config = .ok type)
    (hscopes : config.authScopes = true → r.authorize catalog type = .ok ()) {field : Field}
    (hfield : field ∈ type.fields) (hstored : field.isProperty = true)
    (hname : ∀ c : Combinator, c.name ≠ field.name) {v : Json} (hv : v.isNull = false)
    (hdata : r.field.arguments = [(Argument.data, .obj [(field.name, v)])])
    {items : List Item} {d : Draft}
    (hitems : Mutation.result ⟨catalog, config.strictArguments, r.cypherParams⟩ type
      (Alias.root type.name) r.field (Mutation.writtenDraft type field.name v r.initialDraft) =
        .ok (items, d))
    {path : ParameterPath} {ps qs : Parameters} {children : List Predicate}
    (hfilter : Predicate.ofFilter catalog type path (.obj [(field.name, v)]) ps =
      .ok (children, qs)) :
    ∃ plan written stored name compared, r.compile catalog config = .ok plan ∧
      plan.statement = .write [.create ⟨Alias.root type.name, type.labels,
        [(field.name, written)]⟩] (Alias.root type.name) items r.field.responseKey ∧
      children = [.compare ⟨[], .property field.name field.compound?, .eq, .parameter name⟩] ∧
      qs.get? name = some compared ∧
      plan.parameters.get? (parameterName Mutation.dataPath field.name) = some stored ∧
      (field.StoresAsCompared v → stored = compared ∧
        written.render = (CompareTarget.property field.name field.compound?).value .eq
          (parameterName Mutation.dataPath field.name)) := by
  obtain ⟨compared, hcompared, hchildren, hfound⟩ :=
    Predicate.ofFilter_singleton_cases hfield hstored hname hv hfilter
  have hfresh := r.parameterName_not_mem_initialDraft field.name
  have hcreate := Mutation.create_singleton_eq_ok hdata hfield hstored hfresh hitems
  have hstatement : r.statement ⟨catalog, config.strictArguments, r.cypherParams⟩ type
      r.initialDraft = Mutation.statement ⟨catalog, config.strictArguments, r.cypherParams⟩ type
        .create r.field r.initialDraft := by
    unfold statement
    rw [hoperation]
  have hsupplied := Mutation.result_extends hitems _ _
    (get?_append hfresh (suppliedValue type field.name v))
  refine ⟨_, _, _, _, compared, compile_eq_ok htype hscopes (hstatement.trans hcreate), rfl,
    hchildren, hfound, hsupplied, fun hsame => ⟨?_, writtenMember_render hfield hsame⟩⟩
  exact suppliedValue_of_comparedValue? hfield hsame hcompared

-- Persons with the day on which they were born.
def bearerType : NodeType where
  name := "Person"
  additionalLabels := []
  scopes := .unrestricted
  fields :=
    [⟨"name", .scalar .string, false, true, false, true, none, [], []⟩,
      ⟨"born", .compound .date, false, false, false, false, none, [], []⟩]
  primaryKey := some "name"
  fields_nodup := by decide
  primaryKey_scalar := by decide

def births : Catalog where
  types := [bearerType]
  types_nodup := by decide
  closed := by decide

def birthRequest (day : Json) : Request :=
  ⟨.create, ⟨"createPerson", none, [("data", .obj [("born", day)])], [⟨"name", none, [], []⟩]⟩,
    some "Person", [], ⟨[]⟩⟩

def dayInParts : Json := .obj [("year", .ofInt 1956), ("month", .ofInt 7), ("day", .ofInt 9)]

-- A day in its parts is stored as it is compared with.
theorem compile_storesCompared_dayInParts :
    ∃ plan written children qs value,
      (birthRequest dayInParts).compile births .default = .ok plan ∧
      plan.statement = .write [.create ⟨"person", ["Person"], [("born", written)]⟩] "person"
        [.shorthand "name"] "createPerson" ∧
      Predicate.ofFilter births bearerType ⟨["filter"]⟩ (.obj [("born", dayInParts)]) .empty =
        .ok (children, qs) ∧
      children = [.compare ⟨[], .property "born" (some .date), .eq, .parameter "filter_born"⟩] ∧
      qs.get? "filter_born" = some value ∧ plan.parameters.get? "data_born" = some value ∧
      written.render = "date($data_born)" := by
  obtain ⟨children, qs, hfilter⟩ : ∃ children qs, Predicate.ofFilter births bearerType
      ⟨["filter"]⟩ (.obj [("born", dayInParts)]) .empty = .ok (children, qs) := ⟨_, _, rfl⟩
  have htype : (birthRequest dayInParts).rootType births .default = .ok bearerType := rfl
  have hscopes : Config.default.authScopes = true →
      (birthRequest dayInParts).authorize births bearerType = .ok () := fun _ => rfl
  have hname : ∀ c : Combinator, c.name ≠ "born" := by
    intro c
    cases c <;> decide
  obtain ⟨plan, written, stored, name, value, hplan, hstatement, hchildren, hcompared, hstored,
    hsame⟩ := compile_storesCompared rfl htype hscopes (.tail _ (.head _)) rfl hname rfl rfl rfl
      hfilter
  have hparts : ∀ members, dayInParts = .obj members →
      Json.Members.get? members Compound.formatted = none := by
    intro members hmembers
    cases hmembers
    rfl
  obtain ⟨rfl, hrender⟩ := hsame fun compound hcompound => by
    cases hcompound
    exact ⟨rfl, fun _ => hparts⟩
  obtain rfl : name = "filter_born" := by
    cases hfilter
    cases hchildren
    rfl
  exact ⟨plan, written, children, qs, stored, hplan, hstatement, hfilter, hchildren, hcompared,
    hstored, hrender⟩

def formattedDay : Json := .obj [("formatted", .str "1956-07-09")]

-- A day that is given as a `formatted` text is compared with that text, but the database is asked
-- to store a day built from the whole object.
theorem compile_stores_formattedDay :
    ∃ plan children qs compared stored,
      Predicate.ofFilter births bearerType ⟨["filter"]⟩ (.obj [("born", formattedDay)]) .empty =
        .ok (children, qs) ∧
      (birthRequest formattedDay).compile births .default = .ok plan ∧
      qs.get? "filter_born" = some compared ∧ plan.parameters.get? "data_born" = some stored ∧
      stored ≠ compared :=
  ⟨_, _, _, .str "1956-07-09", formattedDay, rfl, rfl, rfl, rfl, Json.noConfusion⟩

end Request

end CypherCompiler
