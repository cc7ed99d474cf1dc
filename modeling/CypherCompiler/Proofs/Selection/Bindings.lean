import Mathlib.Data.List.Nodup
import CypherCompiler.Proofs.Cypher.Quoting
import CypherCompiler.Proofs.Cypher.Wording
import CypherCompiler.Proofs.Filter.Lenient
import CypherCompiler.Proofs.Supply.Mutation
import CypherCompiler.Proofs.Supply.Projection
import CypherCompiler.Proofs.Text.Referred

namespace CypherCompiler

open Cypher Parameters
open Text (RefersTo)

-- A shared value is the one that was brought in first.
theorem Parameters.get?_share (ps : Parameters) (name : String) (v : Json) :
    (ps.share name v).get? name = some ((ps.get? name).getD v) := by
  unfold share
  split
  · rename_i hcontains
    obtain ⟨w, hw⟩ := Option.ne_none_iff_exists'.mp
      (mt get?_eq_none_iff.mp (not_not.mpr (contains_iff.mp hcontains)))
    rw [hw]
    rfl
  · rename_i hcontains
    have hname := mt contains_iff.mpr hcontains
    rw [get?_append hname, get?_eq_none_iff.mpr hname]
    rfl

-- The call that an entry of a map is read from.
def Cypher.Item.call? : Item → Option CustomCall
  | .computed _ _ call => some call
  | .computedNodes _ _ _ call _ => some call
  | _ => none

namespace Selection

variable {s : Selection} {setting : Setting} {type : NodeType} {node : String} {plan : Plan}
  {field : Field} {statement : String} {returns : ValueType} {d d' : Draft}

-- The selection is one of the field. Under two names a selection asks for the type and for the
-- number of the node, whatever fields the type has.
structure IsOf (s : Selection) (type : NodeType) (field : Field) : Prop where
  field : type.field? s.name = some field
  not_typeName : s.name ≠ typeNameField
  not_nodeId : s.name ≠ Argument.nodeId

-- The name under which an argument is taken out.
def argumentParameter (s : Selection) (node name : String) : String :=
  (((ParameterPath.below node).child s.responseKey).child name).name

-- What the names inside a custom statement are bound to on the node `node`.
inductive Binds (s : Selection) (field : Field) (statement node : String) :
    String → Binding → Prop
  | this : Binds s field statement node "this" (.node node)
  | cypherParams (h : RefersTo statement cypherParamsName) :
      Binds s field statement node cypherParamsName (.parameter cypherParamsName)
  | supplied {name : String} {v : Json} (hname : name ∈ field.arguments)
      (h : s.arguments.get? name = some v) :
      Binds s field statement node name (.parameter (s.argumentParameter node name))
  | leftOut {name : String} (hname : name ∈ field.arguments)
      (h : s.arguments.get? name = none) (hrefers : RefersTo statement name) :
      Binds s field statement node name .null

-- A call in which every name is bound once, as the map is written, to what it is to be bound to.
structure BindsOnce (s : Selection) (setting : Setting) (field : Field) (statement node : String)
    (call : CustomCall) (ps qs : Parameters) : Prop where
  template : call.statement = statement
  head : call.bindings.head? = some ("this", .node node)
  keys : (call.bindings.map fun b => propertyKey b.1).Nodup
  mem_iff : ∀ name binding,
    (name, binding) ∈ call.bindings ↔ s.Binds field statement node name binding
  cypherParams : RefersTo statement cypherParamsName → qs.get? cypherParamsName =
    some ((ps.get? cypherParamsName).getD (.obj setting.cypherParams))
  supplied : ∀ name ∈ field.arguments, ∀ v, s.arguments.get? name = some v →
    qs.get? (s.argumentParameter node name) = some v

-- The entry of a field as it is written: the values that a call returns, or what is shown of each
-- node among them. The call holds the statement and the map of all that is bound.
inductive ShowsCall (s : Selection) (field : Field) (statement : String)
    (bindings : List (String × Binding)) : String → Prop
  | values : ShowsCall s field statement bindings (propertyKey s.responseKey ++ ": " ++
      Wording.call field.list statement (bindings.map fun (key, b) => (key, Wording.binding b)))
  | nodes (item : String) (entries : List String) :
      ShowsCall s field statement bindings (propertyKey s.responseKey ++ ": " ++
        Wording.values field.list ("[" ++ quoteIdentifier item ++ " IN " ++
          Wording.call true statement (bindings.map fun (key, b) => (key, Wording.binding b)) ++
          " | " ++ Wording.shown item entries ++ "]"))

-- The field with the arguments that it declares.
def withDeclared (s : Selection) (field : Field) : Selection :=
  { s with arguments := s.arguments.filter fun m => field.arguments.contains m.1 }

end Selection

-- What a declared argument is bound to.
def Field.argumentBinding? (referenced : List String) (arguments : Json.Members)
    (path : ParameterPath) (name : String) : Option Binding :=
  match arguments.get? name with
  | some _ => some (.parameter (path.child name).name)
  | none => if referenced.contains name then some .null else none

theorem Field.undeclared?_of_first (f : Field) {before : Json.Members} {name : String} (v : Json)
    (after : Json.Members) (hbefore : ∀ m ∈ before, m.1 ∈ f.arguments)
    (hname : name ∉ f.arguments) :
    f.undeclared? (before ++ (name, v) :: after) = some name := by
  have hdeclared : (before.map Prod.fst).find? (!f.arguments.contains ·) = none := by
    rw [List.find?_eq_none, List.forall_mem_map]
    exact fun m hm => by simp [hbefore m hm]
  rw [undeclared?, Json.Members.keys, List.map_append, List.find?_append, hdeclared,
    Option.none_or, List.map_cons, List.find?_cons_of_pos (by simp [hname])]

namespace Selection

variable {s : Selection} {setting : Setting} {type : NodeType} {node : String} {plan : Plan}
  {field : Field} {statement : String} {returns : ValueType} {path : ParameterPath}
  {referenced declared : List String} {arguments : Json.Members} {d d' : Draft}

theorem bindArguments_eq {bindings : List (String × Binding)}
    (h : Field.bindArguments referenced arguments path declared d = .ok (bindings, d')) :
    bindings = declared.filterMap fun name =>
      (Field.argumentBinding? referenced arguments path name).map fun b => (name, b) := by
  induction declared generalizing d bindings with
  | nil =>
      cases bindArguments_nil_eq_ok.mp h
      rfl
  | cons name rest ih =>
      obtain ⟨more, ⟨v, e, hget, -, hmore, rfl⟩ | ⟨hget, hmore, rfl⟩⟩ := bindArguments_cons_cases h
      · rw [List.filterMap_cons_some (by rw [Field.argumentBinding?, hget]; rfl), ih hmore]
      · rw [ih hmore]
        by_cases hreferenced : referenced.contains name = true
        · rw [if_pos hreferenced, List.filterMap_cons_some
            (by simp only [Field.argumentBinding?, hget, if_pos hreferenced]; rfl)]
          rfl
        · rw [if_neg hreferenced, List.filterMap_cons_none
            (by simp only [Field.argumentBinding?, hget, if_neg hreferenced]; rfl)]
          rfl

-- Only the values of declared arguments are looked at.
theorem bindArguments_congr {others : Json.Members}
    (h : ∀ name ∈ declared, arguments.get? name = others.get? name) :
    Field.bindArguments referenced arguments path declared =
      Field.bindArguments referenced others path declared := by
  induction declared with
  | nil => rw [Field.bindArguments, Field.bindArguments]
  | cons name rest ih =>
      rw [Field.bindArguments, Field.bindArguments, h name List.mem_cons_self,
        ih fun other hother => h other (List.mem_cons_of_mem name hother)]

theorem withDeclared_get? (s : Selection) {name : String} (hname : name ∈ field.arguments) :
    (s.withDeclared field).arguments.get? name = s.arguments.get? name :=
  Json.Members.get?_filter (fun _ => by simpa using hname) s.arguments

-- An argument that is not declared is passed over unless arguments are read strictly.
theorem customCall_withDeclared (hstrict : setting.strictArguments = false) :
    (s.withDeclared field).customCall setting field statement node =
      s.customCall setting field statement node := by
  have hbind : Field.bindArguments (Text.references statement) (s.withDeclared field).arguments
      ((ParameterPath.below node).child s.responseKey) field.arguments =
    Field.bindArguments (Text.references statement) s.arguments
      ((ParameterPath.below node).child s.responseKey) field.arguments :=
    bindArguments_congr fun name hname => s.withDeclared_get? hname
  have hkey : (s.withDeclared field).responseKey = s.responseKey := rfl
  unfold customCall
  simp only [hstrict, Bool.false_eq_true, if_false, hkey, hbind]

-- It is refused before an argument is bound if they are.
theorem customCall_of_undeclared {name : String} (hstrict : setting.strictArguments = true)
    (h : field.undeclared? s.arguments = some name) :
    s.customCall setting field statement node d = .error (.invalidFilterField name) := by
  unfold customCall
  rw [hstrict, h]
  by_cases hreferenced : (Text.references statement).contains cypherParamsName = true
  · simp only [if_pos hreferenced]
    rfl
  · simp only [if_neg hreferenced]
    rfl

theorem mem_bindArguments_iff {bindings : List (String × Binding)}
    (h : Field.bindArguments referenced arguments path declared d = .ok (bindings, d'))
    (name : String) (binding : Binding) :
    (name, binding) ∈ bindings ↔ name ∈ declared ∧
      Field.argumentBinding? referenced arguments path name = some binding := by
  rw [bindArguments_eq h, List.mem_filterMap]
  constructor
  · rintro ⟨other, hother, heq⟩
    obtain ⟨b, hb, hpair⟩ := Option.map_eq_some_iff.mp heq
    obtain ⟨rfl, rfl⟩ := Prod.mk.inj hpair
    exact ⟨hother, hb⟩
  · rintro ⟨hname, hb⟩
    exact ⟨name, hname, by rw [hb]; rfl⟩

theorem bindArguments_keys_nodup {bindings : List (String × Binding)} (hnodup : declared.Nodup)
    (h : Field.bindArguments referenced arguments path declared d = .ok (bindings, d')) :
    (bindings.map Prod.fst).Nodup := by
  rw [bindArguments_eq h, List.map_filterMap]
  refine hnodup.filterMap fun name other key hname hother => ?_
  rw [Option.map_map, Option.mem_def, Option.map_eq_some_iff] at hname hother
  obtain ⟨_, -, rfl⟩ := hname
  obtain ⟨_, -, hkey⟩ := hother
  exact hkey.symm

theorem argumentBinding?_eq_some_iff {name : String} {binding : Binding} :
    Field.argumentBinding? (Text.references statement) s.arguments
        ((ParameterPath.below node).child s.responseKey) name = some binding ↔
      (∃ v, s.arguments.get? name = some v ∧
        binding = .parameter (s.argumentParameter node name)) ∨
      s.arguments.get? name = none ∧ RefersTo statement name ∧ binding = .null := by
  unfold Field.argumentBinding?
  cases s.arguments.get? name with
  | some v => simp [argumentParameter, eq_comm]
  | none => simp [Text.mem_references_iff, eq_comm]

-- The call of a computed field binds every name once.
theorem customCall_bindsOnce {call : CustomCall} (hnodup : field.arguments.Nodup)
    (hthis : "this" ∉ field.arguments) (hparams : cypherParamsName ∉ field.arguments)
    (h : s.customCall setting field statement node d = .ok (call, d')) :
    s.BindsOnce setting field statement node call d.parameters d'.parameters := by
  obtain ⟨ambient, arguments, e, hambient, -, hbind, rfl⟩ := customCall_cases h
  have hsupplies := bindArguments_supplies hbind
  have hmem (name : String) (binding : Binding) := mem_bindArguments_iff hbind name binding
  have hkeys : ∀ key ∈ arguments.map Prod.fst, key ∈ field.arguments :=
    List.forall_mem_map.mpr fun entry hentry => ((hmem entry.1 entry.2).mp hentry).1
  have hmemAmbient : ∀ name binding, (name, binding) ∈ ambient ↔
      RefersTo statement cypherParamsName ∧ name = cypherParamsName ∧
        binding = .parameter cypherParamsName := by
    intro name binding
    rw [← Text.mem_references_iff]
    obtain ⟨hreferenced, rfl, -⟩ | ⟨hreferenced, rfl, -⟩ := hambient
    · simp [List.contains_iff_mem.mp hreferenced]
    · simp [by simpa using hreferenced]
  refine ⟨rfl, rfl, ?_, ?_, ?_, ?_⟩
  · have hambientKeys : ambient.map Prod.fst = [] ∨ ambient.map Prod.fst = [cypherParamsName] := by
      obtain ⟨-, rfl, -⟩ | ⟨-, rfl, -⟩ := hambient
      · exact .inr rfl
      · exact .inl rfl
    have hnames : ("this" :: (ambient.map Prod.fst ++ arguments.map Prod.fst)).Nodup := by
      have hrest := bindArguments_keys_nodup hnodup hbind
      have hnotThis := mt (hkeys "this") hthis
      have hnotParams := mt (hkeys cypherParamsName) hparams
      obtain hnone | hone := hambientKeys
      · rw [hnone, List.nil_append]
        exact List.nodup_cons.mpr ⟨hnotThis, hrest⟩
      · rw [hone, List.singleton_append, List.nodup_cons, List.nodup_cons, List.mem_cons, not_or]
        exact ⟨⟨by decide, hnotThis⟩, hnotParams, hrest⟩
    have hwritten := hnames.map propertyKey_injective
    simpa [List.map_append, Function.comp_def] using hwritten
  · intro name binding
    rw [List.mem_append, List.mem_cons, hmemAmbient, hmem, argumentBinding?_eq_some_iff]
    constructor
    · rintro ((heq | ⟨hrefers, rfl, rfl⟩) | ⟨hname, ⟨v, hv, rfl⟩ | ⟨hnone, hrefers, rfl⟩⟩)
      · obtain ⟨rfl, rfl⟩ := Prod.mk.inj heq
        exact .this
      · exact .cypherParams hrefers
      · exact .supplied hname hv
      · exact .leftOut hname hnone hrefers
    · rintro (_ | hrefers | ⟨hname, hv⟩ | ⟨hname, hnone, hrefers⟩)
      · exact .inl (.inl rfl)
      · exact .inl (.inr ⟨hrefers, rfl, rfl⟩)
      · exact .inr ⟨hname, .inl ⟨_, hv, rfl⟩⟩
      · exact .inr ⟨hname, .inr ⟨hnone, hrefers, rfl⟩⟩
  · intro hrefers
    obtain ⟨-, -, rfl⟩ | ⟨hunreferenced, -⟩ := hambient
    · exact hsupplies.toExtends _ _ (get?_share _ _ _)
    · have hmemReferences := Text.mem_references_iff.mpr hrefers
      simp [hmemReferences] at hunreferenced
  · intro name hname v hv
    exact hsupplies.get? (List.mem_filterMap.mpr ⟨name, hname, by rw [hv]; rfl⟩)

theorem BindsOnce.mono {call : CustomCall} {ps qs rs : Parameters}
    (h : s.BindsOnce setting field statement node call ps qs) (hextends : qs.Extends rs) :
    s.BindsOnce setting field statement node call ps rs :=
  ⟨h.template, h.head, h.keys, h.mem_iff,
    fun hrefers => hextends _ _ (h.cypherParams hrefers),
    fun name hname v hv => hextends _ _ (h.supplied name hname v hv)⟩

theorem BindsOnce.exists_binding {call : CustomCall} {ps qs : Parameters}
    (h : s.BindsOnce setting field statement node call ps qs) {name : String}
    (hrefers : RefersTo statement name)
    (hname : name = "this" ∨ name = cypherParamsName ∨ name ∈ field.arguments) :
    ∃ binding, (name, binding) ∈ call.bindings := by
  obtain rfl | rfl | hname := hname
  · exact ⟨_, (h.mem_iff _ _).mpr .this⟩
  · exact ⟨_, (h.mem_iff _ _).mpr (.cypherParams hrefers)⟩
  · cases hget : s.arguments.get? name with
    | some v => exact ⟨_, (h.mem_iff _ _).mpr (.supplied hname hget)⟩
    | none => exact ⟨_, (h.mem_iff _ _).mpr (.leftOut hname hget hrefers)⟩

-- The entry that is made of a call: nodes are shown with what is selected of them.
def callItem (s : Selection) (setting : Setting) (field : Field) (returns : ValueType)
    (node : String) (call : CustomCall) : Drafting Item :=
  match returns with
  | .object target =>
    if s.selections.isEmpty then return .computed s.responseKey field.list call
    else do
      let item ← Drafting.claim (Alias.child node s.responseKey)
      let targetType ← setting.catalog.require target
      let inner ← planSelections setting.catalog item target s.selections
      let items ← Selection.projectAll setting targetType item inner s.selections
      return .computedNodes s.responseKey field.list item call items
  | _ => return .computed s.responseKey field.list call

theorem project_computed (setting : Setting) (node : String) (plan : Plan)
    (h : s.IsOf type field) (hkind : field.kind = .computed statement returns) :
    s.project setting type node plan =
      s.customCall setting field statement node >>= s.callItem setting field returns node := by
  cases s with
  | mk name aliasName arguments selections =>
      rw [project]
      simp only [if_neg h.not_typeName, if_neg h.not_nodeId, h.field, hkind]
      rfl

theorem callItem_cases {call : CustomCall} {item : Item}
    (h : s.callItem setting field returns node call d = .ok (item, d')) :
    item.call? = some call ∧ s.ShowsCall field call.statement call.bindings item.render ∧
      d.parameters.Extends d'.parameters := by
  have hvalues : s.ShowsCall field call.statement call.bindings
      (Item.computed s.responseKey field.list call).render := by
    rw [Item.render, CustomCall.render_eq]
    exact .values
  cases returns with
  | object target =>
      rw [callItem] at h
      split at h
      · cases pure_eq_ok.mp h
        exact ⟨rfl, hvalues, .refl _⟩
      · simp only [bind_eq_ok, lift_eq_ok, pure_eq_ok, Drafting.claim_eq_ok] at h
        obtain ⟨_, _, hclaim, targetType, _, ⟨_, -, ht⟩, inner, f, hplan, items, _, hitems, hr⟩ := h
        cases hclaim
        cases ht
        cases hr
        have hextends := (projectAll_supplies s.selections hitems).toExtends
        rw [(planSelections_cases hplan).2] at hextends
        refine ⟨rfl, ?_, hextends⟩
        rw [Item.render, CustomCall.render_eq, asList_eq, renderMap_eq]
        exact .nodes _ _
  | _ =>
      cases pure_eq_ok.mp h
      exact ⟨rfl, hvalues, .refl _⟩

-- A computed field on any node, at any point of any statement. What is accepted is written as a
-- call of the statement with every name bound once. What it refers to of these names is bound. An
-- argument that is not declared is the error of a strict reading, and otherwise makes no
-- difference.
theorem project_bindsOnce (setting : Setting) (node : String) (plan : Plan)
    (hfield : s.IsOf type field)
    (hkind : field.kind = .computed statement returns) (hnodup : field.arguments.Nodup)
    (hthis : "this" ∉ field.arguments) (hparams : cypherParamsName ∉ field.arguments) :
    (∀ d item d', s.project setting type node plan d = .ok (item, d') →
      ∃ call, item.call? = some call ∧ s.ShowsCall field statement call.bindings item.render ∧
        s.BindsOnce setting field statement node call d.parameters d'.parameters ∧
        ∀ name, RefersTo statement name →
          name = "this" ∨ name = cypherParamsName ∨ name ∈ field.arguments →
          ∃ binding, (name, binding) ∈ call.bindings) ∧
    (setting.strictArguments = true → ∀ before name v after,
      s.arguments = before ++ (name, v) :: after → (∀ m ∈ before, m.1 ∈ field.arguments) →
      name ∉ field.arguments → ∀ d,
        s.project setting type node plan d = .error (.invalidFilterField name)) ∧
    (setting.strictArguments = false →
      (s.withDeclared field).project setting type node plan =
        s.project setting type node plan) := by
  have hproject := project_computed setting node plan hfield hkind
  refine ⟨?_, ?_, ?_⟩
  · intro d item d' h
    rw [hproject, bind_eq_ok] at h
    obtain ⟨call, e, hcall, hitem⟩ := h
    obtain ⟨hshown, htext, hextends⟩ := callItem_cases hitem
    have hbinds := (customCall_bindsOnce hnodup hthis hparams hcall).mono hextends
    rw [hbinds.template] at htext
    exact ⟨call, hshown, htext, hbinds, fun name => hbinds.exists_binding⟩
  · intro hstrict before name v after harguments hbefore hundeclared d
    have hfirst : field.undeclared? s.arguments = some name :=
      harguments ▸ field.undeclared?_of_first v after hbefore hundeclared
    rw [hproject]
    change (s.customCall setting field statement node d >>= _) = _
    rw [customCall_of_undeclared hstrict hfirst]
    rfl
  · intro hstrict
    have hdeclared : (s.withDeclared field).IsOf type field := { hfield with }
    rw [hproject, project_computed setting node plan hdeclared hkind,
      customCall_withDeclared hstrict]
    rfl

-- The titles of similar movies, of which the caller may ask for later ones and for some only.
def similarField : Field where
  name := "similar"
  kind := .computed
    "MATCH (this)--()--(m) WHERE m.released > $since AND m.age <= $cypherParams.age RETURN m.title"
    (.scalar .string)
  list := true
  required := false
  id := false
  unique := false
  searchIndex := none
  scopes := []
  arguments := ["limit", "since"]

def similarType : NodeType where
  name := "Movie"
  additionalLabels := []
  scopes := .unrestricted
  fields := [similarField]
  primaryKey := none
  fields_nodup := by decide
  primaryKey_scalar := by decide

-- One of the arguments is given, another is not one that the field declares.
def similarSelection : Selection :=
  ⟨"similar", none, [("limit", .ofInt 3), ("sort", .str "title")], []⟩

def similarSetting (strict : Bool) : Setting :=
  ⟨movies, strict, [("age", .ofInt 12)]⟩

theorem similarSelection_isOf : similarSelection.IsOf similarType similarField :=
  ⟨rfl, by decide, by decide⟩

theorem project_bindsOnce_similar :
    (∃ item call d', similarSelection.project (similarSetting false) similarType "movie"
        ⟨⟨"movie", "Movie", none⟩, [], none⟩ .empty = .ok (item, d') ∧ item.call? = some call ∧
      call.bindings.head? = some ("this", .node "movie") ∧
      ("since", .null) ∈ call.bindings ∧
      ("limit", .parameter "movie_similar_limit") ∈ call.bindings ∧
      item.render = "similar: apoc.cypher.runFirstColumnMany(\"MATCH (this)--()--(m) " ++
        "WHERE m.released > $since AND m.age <= $cypherParams.age RETURN m.title\", " ++
        "\x7bthis: `movie`, cypherParams: $cypherParams, limit: $movie_similar_limit, " ++
        "since: null\x7d)" ∧
      d'.parameters.get? "movie_similar_limit" = some (.ofInt 3) ∧
      d'.parameters.get? "cypherParams" = some (.obj [("age", .ofInt 12)])) ∧
    similarSelection.project (similarSetting true) similarType "movie"
      ⟨⟨"movie", "Movie", none⟩, [], none⟩ .empty = .error (.invalidFilterField "sort") := by
  have hspec (strict : Bool) := project_bindsOnce (similarSetting strict) "movie"
    ⟨⟨"movie", "Movie", none⟩, [], none⟩ similarSelection_isOf rfl (by decide) (by decide)
    (by decide)
  constructor
  · obtain ⟨item, d', hproject⟩ : ∃ item d', similarSelection.project (similarSetting false)
        similarType "movie" ⟨⟨"movie", "Movie", none⟩, [], none⟩ .empty = .ok (item, d') := by
      rw [project_computed _ _ _ similarSelection_isOf rfl]
      exact ⟨_, _, rfl⟩
    obtain ⟨call, hcall, -, hbinds, -⟩ := (hspec false).1 _ item d' hproject
    refine ⟨item, call, d', hproject, hcall, hbinds.head, ?_, ?_, ?_, ?_, ?_⟩
    · exact (hbinds.mem_iff _ _).mpr
        (.leftOut (by decide) rfl (Text.mem_references_iff.mp (by decide)))
    · exact (hbinds.mem_iff _ _).mpr (.supplied (by decide) rfl)
    · rw [project_computed _ _ _ similarSelection_isOf rfl] at hproject
      cases hproject
      decide +kernel
    · exact hbinds.supplied "limit" (by decide) _ rfl
    · exact hbinds.cypherParams (Text.mem_references_iff.mp (by decide))
  · exact (hspec true).2.1 rfl [("limit", .ofInt 3)] "sort" (.str "title") [] rfl (by decide)
      (by decide) .empty

end Selection

end CypherCompiler
