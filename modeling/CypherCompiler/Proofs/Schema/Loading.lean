import CypherCompiler.Proofs.Outcome.Sequence
import CypherCompiler.Proofs.Schema.Declared
import CypherCompiler.Proofs.Schema.Lookup
import CypherCompiler.Proofs.Text.PlainNames

namespace CypherCompiler

-- A list of names passes when no name stands in it twice.
theorem firstRepeated?_eq_none_iff {names : List String} :
    firstRepeated? [] names = none ↔ names.Nodup := by
  have hunseen : ∀ seen : List String, names.Nodup → (∀ name ∈ names, name ∉ seen) →
      firstRepeated? seen names = none := by
    induction names with
    | nil => exact fun _ _ _ => rfl
    | cons name rest ih =>
        intro seen hnodup hseen
        obtain ⟨hname, hrest⟩ := List.nodup_cons.mp hnodup
        rw [firstRepeated?, if_neg (hseen name (by simp))]
        apply ih _ hrest
        intro other hother hmem
        obtain rfl | hmem := List.mem_cons.mp hmem
        · exact hname hother
        · exact hseen other (List.mem_cons_of_mem _ hother) hmem
  constructor
  · exact fun h => (nodup_of_firstRepeated_eq_none h).1
  · exact fun h => hunseen [] h (by simp)

namespace TypeDeclaration

-- Fields well formed and told apart by their names, with a scalar field behind an explicit key.
structure WellFormed (d : TypeDeclaration) : Prop where
  field : ∀ f ∈ d.fields, f.WellFormed
  names : (d.fields.map FieldDeclaration.name).Nodup
  key : ∀ key ∈ d.primaryKey, ∃ f ∈ d.fields, f.name = key ∧ f.IsScalar

-- The type of a catalog that a declaration stands for.
structure Declares (d : TypeDeclaration) (t : NodeType) : Prop where
  name : t.name = d.name
  labels : t.additionalLabels = d.additionalLabels
  scopes : t.scopes = d.scopes
  fields : List.Forall₂ FieldDeclaration.Declares d.fields t.fields
  primaryKey : t.primaryKey = d.primaryKey.or (NodeType.defaultKey? t.fields)

variable {d : TypeDeclaration} {t : NodeType}

theorem build_eq_ok_iff {name : String} {labels : List String} {scopes : AccessScopes}
    {fields : List Field} {explicitKey : Option String} :
    NodeType.build name labels scopes fields explicitKey = .ok t ↔
      t.name = name ∧ t.additionalLabels = labels ∧ t.scopes = scopes ∧ t.fields = fields ∧
      t.primaryKey = explicitKey.or (NodeType.defaultKey? fields) := by
  constructor
  · intro h
    unfold NodeType.build at h
    split at h
    · cases h
    · split at h
      · cases h
        exact ⟨rfl, rfl, rfl, rfl, rfl⟩
      · split at h
        · cases h
          exact ⟨rfl, rfl, rfl, rfl, rfl⟩
        · cases h
  · obtain ⟨_, _, _, _, _, hnodup, hscalar⟩ := t
    dsimp only
    rintro ⟨rfl, rfl, rfl, rfl, rfl⟩
    have hrepeated := firstRepeated?_eq_none_iff.mpr hnodup
    unfold NodeType.build
    split
    · simp_all
    · cases explicitKey with
      | none => rfl
      | some key => exact dif_pos (hscalar key rfl)

theorem toNodeType_eq_ok_iff : d.toNodeType = .ok t ↔ d.Declares t := by
  have hfields : ∀ fields, d.fields.mapM (·.toField d.name) = .ok fields ↔
      List.Forall₂ FieldDeclaration.Declares d.fields fields := by
    intro fields
    simp only [except_mapM_eq_ok_iff, FieldDeclaration.toField_eq_ok_iff]
  unfold toNodeType
  simp only [except_bind_eq_ok, hfields, build_eq_ok_iff]
  constructor
  · rintro ⟨_, hdeclared, hname, hlabels, hscopes, rfl, hkey⟩
    exact ⟨hname, hlabels, hscopes, hdeclared, hkey⟩
  · intro h
    exact ⟨_, h.fields, h.name, h.labels, h.scopes, rfl, h.primaryKey⟩

-- A declared field is scalar exactly when the field that it stands for is.
theorem exists_scalar_iff {declared : List FieldDeclaration} {fields : List Field}
    (h : List.Forall₂ FieldDeclaration.Declares declared fields) (key : String) :
    (∃ f ∈ fields, f.name = key ∧ f.scalar?.isSome = true) ↔
      ∃ f ∈ declared, f.name = key ∧ f.IsScalar :=
  forall₂_exists_iff (fun _ _ hf => by rw [hf.name, hf.scalar?_isSome_iff]) h

-- A declaration stands for a type exactly when it is well formed.
theorem exists_declares_iff : (∃ t, d.Declares t) ↔ d.WellFormed := by
  constructor
  · rintro ⟨t, h⟩
    refine ⟨?_, ?_, ?_⟩
    · have hsome := exists_forall₂_iff.mp ⟨_, h.fields⟩
      exact fun f hf => FieldDeclaration.exists_declares_iff.mp (hsome f hf)
    · rw [← forall₂_map_eq (fun _ _ hf => hf.name) h.fields]
      exact t.fields_nodup
    · intro key hkey
      rw [Option.mem_def] at hkey
      have hprimary := h.primaryKey
      rw [hkey, Option.some_or] at hprimary
      exact (exists_scalar_iff h.fields key).mp (t.primaryKey_scalar key hprimary)
  · intro h
    obtain ⟨fields, hfields⟩ := exists_forall₂_iff.mpr fun f hf =>
      FieldDeclaration.exists_declares_iff.mpr (h.field f hf)
    have hnames := forall₂_map_eq (fun _ _ hf => hf.name) hfields
    have hkey : ∀ key ∈ d.primaryKey.or (NodeType.defaultKey? fields),
        ∃ f ∈ fields, f.name = key ∧ f.scalar?.isSome = true := by
      cases hexplicit : d.primaryKey with
      | none => exact NodeType.defaultKey_scalar
      | some key =>
          exact NodeType.explicitKey_scalar
            ((exists_scalar_iff hfields key).mpr (h.key key hexplicit))
    exact ⟨⟨d.name, d.additionalLabels, d.scopes, fields, _, hnames ▸ h.names, hkey⟩,
      rfl, rfl, rfl, hfields, rfl⟩

end TypeDeclaration

namespace SchemaDeclaration

-- Types well formed and told apart by their names, and no field that leads to nodes leaves the
-- schema.
structure WellFormed (d : SchemaDeclaration) : Prop where
  type : ∀ t ∈ d.types, t.WellFormed
  names : (d.types.map TypeDeclaration.name).Nodup
  closed : ∀ t ∈ d.types, ∀ f ∈ t.fields, f.LeadsToNodes →
    f.typeName ∈ d.types.map TypeDeclaration.name

-- The catalog that a schema stands for.
def Declares (d : SchemaDeclaration) (c : Catalog) : Prop :=
  List.Forall₂ TypeDeclaration.Declares d.types c.types

end SchemaDeclaration

namespace Catalog

theorem build_eq_ok_iff {types : List NodeType} {c : Catalog} :
    build types = .ok c ↔ c.types = types := by
  constructor
  · intro h
    unfold build at h
    split at h
    · cases h
    · split at h
      · cases h
      · cases h
        rfl
  · obtain ⟨types, hnodup, hclosed⟩ := c
    rintro rfl
    have hrepeated := firstRepeated?_eq_none_iff.mpr hnodup
    have hdangling : types.findSome? (dangling? (types.map NodeType.name)) = none := by
      simp only [List.findSome?_eq_none_iff, dangling?]
      intro t ht f hf
      split
      · rename_i target htarget
        exact if_pos (hclosed t ht f hf target htarget)
      · rfl
    unfold build
    split
    · simp_all
    · split
      · simp_all
      · rfl

end Catalog

namespace SchemaDeclaration

variable {d : SchemaDeclaration} {c : Catalog}

theorem toCatalog_eq_ok_iff : d.toCatalog = .ok c ↔ d.Declares c := by
  unfold toCatalog Declares
  simp only [except_bind_eq_ok, Catalog.build_eq_ok_iff, except_mapM_eq_ok_iff,
    TypeDeclaration.toNodeType_eq_ok_iff]
  constructor
  · rintro ⟨_, h, heq⟩
    exact heq ▸ h
  · intro h
    exact ⟨_, h, rfl⟩

-- The types leave no given list of names exactly when their declarations do not.
theorem closed_iff {declared : List TypeDeclaration} {types : List NodeType}
    (h : List.Forall₂ TypeDeclaration.Declares declared types) (names : List String) :
    (∀ t ∈ types, ∀ f ∈ t.fields, ∀ target ∈ f.target?, target ∈ names) ↔
      ∀ t ∈ declared, ∀ f ∈ t.fields, f.LeadsToNodes → f.typeName ∈ names := by
  refine forall₂_forall_iff (fun _ _ ht => forall₂_forall_iff (fun _ _ hf => ?_) ht.fields) h
  simp only [Option.mem_def, hf.target?_eq_some_iff, and_imp, forall_eq]

theorem exists_declares_iff : (∃ c, d.Declares c) ↔ d.WellFormed := by
  constructor
  · rintro ⟨c, h⟩
    have hnames := forall₂_map_eq (fun _ _ ht => ht.name) h
    refine ⟨?_, ?_, ?_⟩
    · have hsome := exists_forall₂_iff.mp ⟨_, h⟩
      exact fun t ht => TypeDeclaration.exists_declares_iff.mp (hsome t ht)
    · exact hnames ▸ c.types_nodup
    · exact (closed_iff h _).mp (hnames ▸ c.closed)
  · intro h
    obtain ⟨types, htypes⟩ := exists_forall₂_iff.mpr fun t ht =>
      TypeDeclaration.exists_declares_iff.mpr (h.type t ht)
    have hnames := forall₂_map_eq (fun _ _ ht => ht.name) htypes
    have hclosed := (closed_iff htypes _).mpr h.closed
    exact ⟨⟨types, hnames ▸ h.names, hnames ▸ hclosed⟩, htypes⟩

-- A schema is loaded exactly when it is well formed. Its catalog lists what is declared in the
-- order of the declarations, finds it by name, and is never left by following fields.
theorem toCatalog_accepts (d : SchemaDeclaration) :
    ((∃ c, d.toCatalog = .ok c) ↔ d.WellFormed) ∧
      ∀ c, d.toCatalog = .ok c → d.Declares c ∧
        (∀ name, c.indexedType? name = c.type? name) ∧
        ∀ t ∈ c.types,
          (∀ name, t.indexedField? name = t.field? name) ∧
          (∀ names, c.IsChain t names → ∃ u ∈ c.types, c.follow? t names = some u) ∧
          ∀ key ∈ t.primaryKey,
            (∃ f, t.field? key = some f ∧ f.scalar?.isSome = true) ∧ t.isUniqueKey key = true := by
  simp only [toCatalog_eq_ok_iff]
  refine ⟨exists_declares_iff, fun c h => ⟨h, c.indexedType?_eq, fun t ht => ⟨?_, ?_, ?_⟩⟩⟩
  · exact t.indexedField?_eq
  · exact fun names => Catalog.IsChain.follow? ht
  · exact fun key hkey => NodeType.primaryKey_isUniqueKey hkey

-- Movies and persons as a schema writes them down.
def moviesDeclaration : SchemaDeclaration where
  name := some "movies"
  types :=
    [⟨"Movie", [], some "title", .unrestricted,
        [⟨"title", "String", false, true, false, true, none, [], none, none, []⟩,
          ⟨"released", "Int", false, false, false, false, none, [], none, none, []⟩,
          ⟨"actors", "Person", true, false, false, false, none, [],
            some ⟨some "ACTED_IN", some "inbound"⟩, none, []⟩]⟩,
      ⟨"Person", [], some "name", .unrestricted,
        [⟨"name", "String", false, true, false, true, none, [], none, none, []⟩,
          ⟨"movies", "Movie", true, false, false, false, none, [],
            some ⟨some "ACTED_IN", some "Out"⟩, none, []⟩]⟩]

theorem moviesDeclaration_declares : moviesDeclaration.Declares movies := by
  have hinto : Direction.into.IsWritten "inbound" := by
    refine ⟨"INBOUND", by decide, String.toList_injective ?_⟩
    simp [String.toLower]
  have hout : Direction.out.IsWritten "Out" := by
    refine ⟨"OUT", by decide, String.toList_injective ?_⟩
    simp [String.toLower]
  refine .cons ⟨rfl, rfl, rfl, .cons ?_ (.cons ?_ (.cons ?_ .nil)), rfl⟩
    (.cons ⟨rfl, rfl, rfl, .cons ?_ (.cons ?_ .nil), rfl⟩ .nil)
  · exact ⟨rfl, .scalar rfl rfl rfl, rfl, rfl, rfl, rfl, rfl, rfl, rfl⟩
  · exact ⟨rfl, .scalar rfl rfl rfl, rfl, rfl, rfl, rfl, rfl, rfl, rfl⟩
  · exact ⟨rfl, .relationship rfl rfl (by decide) hinto (by decide), rfl, rfl, rfl, rfl, rfl, rfl,
      rfl⟩
  · exact ⟨rfl, .scalar rfl rfl rfl, rfl, rfl, rfl, rfl, rfl, rfl, rfl⟩
  · exact ⟨rfl, .relationship rfl rfl (by decide) hout (by decide), rfl, rfl, rfl, rfl, rfl, rfl,
      rfl⟩

theorem toCatalog_accepts_movies :
    moviesDeclaration.WellFormed ∧ moviesDeclaration.toCatalog = .ok movies ∧
      movies.IsChain movieType ["actors", "movies"] ∧
      ∃ u ∈ movies.types, movies.follow? movieType ["actors", "movies"] = some u := by
  have hload := toCatalog_eq_ok_iff.mpr moviesDeclaration_declares
  obtain ⟨haccepted, hloaded⟩ := toCatalog_accepts moviesDeclaration
  obtain ⟨-, -, htype⟩ := hloaded movies hload
  have hchain : movies.IsChain movieType ["actors", "movies"] := by
    refine ⟨_, rfl, _, rfl, ?_⟩
    intro u hu hname
    simp only [movies, List.mem_cons, List.not_mem_nil, or_false] at hu
    rcases hu with rfl | rfl
    · exact absurd hname (by decide)
    · exact ⟨_, rfl, _, rfl, fun _ _ _ => trivial⟩
  exact ⟨haccepted.mp ⟨_, hload⟩, hload, hchain, (htype movieType (by simp [movies])).2.1 _ hchain⟩

end SchemaDeclaration

end CypherCompiler
