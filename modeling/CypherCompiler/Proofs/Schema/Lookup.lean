import Mathlib
import CypherCompiler.Error

namespace CypherCompiler

-- The places of names in a list, as an index keeps them.
def placesOf (names : List String) : Std.HashMap String Nat := .ofList names.zipIdx

-- The entry that an index of the names finds.
def findIndexed? {α : Type} (key : α → String) (entries : List α) (name : String) : Option α :=
  (placesOf (entries.map key))[name]?.bind fun place => entries[place]?

-- Where names are distinct, an index finds what a linear search finds.
theorem findIndexed?_eq_find? {α : Type} {key : α → String} {entries : List α}
    (h : (entries.map key).Nodup) (name : String) :
    findIndexed? key entries name = entries.find? (key · == name) := by
  unfold findIndexed? placesOf
  cases hfind : entries.find? (key · == name) with
  | none =>
      have hmissing : name ∉ entries.map key := by
        intro hmem
        obtain ⟨entry, hentry, rfl⟩ := List.mem_map.mp hmem
        simpa using List.find?_eq_none.mp hfind entry hentry
      have hcontains : ((entries.map key).zipIdx.map Prod.fst).contains name = false := by
        rw [List.zipIdx_map_fst, ← Bool.not_eq_true, List.contains_iff_mem]
        exact hmissing
      rw [Std.HashMap.getElem?_ofList_of_contains_eq_false hcontains, Option.bind_none]
  | some entry =>
      obtain ⟨hkey, place, hplace, hentry, -⟩ := List.find?_eq_some_iff_getElem.mp hfind
      have hat : entries[place]? = some entry := by
        rw [List.getElem?_eq_getElem hplace, hentry]
      have hmem : (name, place) ∈ (entries.map key).zipIdx := by
        rw [List.mem_zipIdx_iff_getElem?, List.getElem?_map, hat, Option.map_some]
        exact congrArg some (beq_iff_eq.mp hkey)
      have hdistinct : (entries.map key).zipIdx.Pairwise fun a b => (a.1 == b.1) = false := by
        rw [← List.zipIdx_map_fst 0 (entries.map key), List.Nodup, List.pairwise_map] at h
        exact h.imp fun hne => beq_false_of_ne hne
      rw [Std.HashMap.getElem?_ofList_of_mem (beq_self_eq_true name) hdistinct hmem,
        Option.bind_some, hat]

namespace NodeType

variable {t : NodeType}

def indexedField? (t : NodeType) (name : String) : Option Field :=
  findIndexed? Field.name t.fields name

theorem indexedField?_eq (t : NodeType) (name : String) : t.indexedField? name = t.field? name :=
  findIndexed?_eq_find? t.fields_nodup name

theorem field?_eq_some_of_mem {f : Field} (hf : f ∈ t.fields) : t.field? f.name = some f := by
  cases hfind : t.field? f.name with
  | none => simpa using List.find?_eq_none.mp hfind f hf
  | some g =>
      have hg := List.mem_of_find?_eq_some hfind
      have hname : g.name = f.name := by simpa using List.find?_some hfind
      rw [List.inj_on_of_nodup_map t.fields_nodup hg hf hname]

-- The primary key of a type tells its nodes from each other.
theorem primaryKey_isUniqueKey {key : String} (hkey : key ∈ t.primaryKey) :
    (∃ f, t.field? key = some f ∧ f.scalar?.isSome = true) ∧ t.isUniqueKey key = true := by
  obtain ⟨f, hf, rfl, hscalar⟩ := t.primaryKey_scalar key hkey
  have hfield := field?_eq_some_of_mem hf
  refine ⟨⟨f, hfield, hscalar⟩, ?_⟩
  have hprimary : t.primaryKey = some f.name := hkey
  simp [isUniqueKey, hfield, hscalar, hprimary]

end NodeType

theorem Field.target?_of_relation? {f : Field} {r : Relation} (h : f.relation? = some r) :
    f.target? = some r.target := by
  unfold relation? at h
  unfold target?
  split at h
  · rename_i hkind
    rw [hkind, Option.some.inj h]
  · cases h

namespace Catalog

variable {c : Catalog}

def indexedType? (c : Catalog) (name : String) : Option NodeType :=
  findIndexed? NodeType.name c.types name

theorem indexedType?_eq (c : Catalog) (name : String) : c.indexedType? name = c.type? name :=
  findIndexed?_eq_find? c.types_nodup name

theorem type?_eq_some_of_mem {t : NodeType} (ht : t ∈ c.types) : c.type? t.name = some t := by
  cases hfind : c.type? t.name with
  | none => simpa using List.find?_eq_none.mp hfind t ht
  | some u =>
      have hu := List.mem_of_find?_eq_some hfind
      have hname : u.name = t.name := by simpa using List.find?_some hfind
      rw [List.inj_on_of_nodup_map c.types_nodup hu ht hname]

-- Where a field of a type leads, a type is found.
theorem exists_target {t : NodeType} (ht : t ∈ c.types) {f : Field} (hf : f ∈ t.fields)
    {target : String} (htarget : f.target? = some target) :
    ∃ u ∈ c.types, c.type? target = some u := by
  obtain ⟨u, hu, rfl⟩ := List.mem_map.mp (c.closed t ht f hf target htarget)
  exact ⟨u, hu, type?_eq_some_of_mem hu⟩

theorem require_target {t : NodeType} (ht : t ∈ c.types) {f : Field} (hf : f ∈ t.fields)
    {target : String} (htarget : f.target? = some target) :
    ∃ u ∈ c.types, c.require target = .ok u := by
  obtain ⟨u, hu, hfound⟩ := exists_target ht hf htarget
  refine ⟨u, hu, ?_⟩
  unfold require
  rw [hfound]

-- The type at the end of a chain of fields, if every field and every type on the way is found.
def follow? (c : Catalog) (t : NodeType) : List String → Option NodeType
  | [] => some t
  | name :: rest => do
    let field ← t.field? name
    let target ← c.type? (← field.target?)
    follow? c target rest

-- A chain of names of fields, each a field of whatever type the one before it leads to, that
-- lead to nodes by an edge or by a statement.
def IsChain (c : Catalog) (t : NodeType) : List String → Prop
  | [] => True
  | name :: rest => ∃ field, t.field? name = some field ∧ ∃ target, field.target? = some target ∧
      ∀ u ∈ c.types, u.name = target → IsChain c u rest

-- A chain never leaves the catalog.
theorem IsChain.follow? {t : NodeType} (ht : t ∈ c.types) {names : List String}
    (h : c.IsChain t names) : ∃ u ∈ c.types, c.follow? t names = some u := by
  induction names generalizing t with
  | nil => exact ⟨t, ht, rfl⟩
  | cons name rest ih =>
      obtain ⟨field, hfield, target, htarget, hrest⟩ := h
      obtain ⟨u, hu, hfound⟩ := exists_target ht (List.mem_of_find?_eq_some hfield) htarget
      have hname : u.name = target := by simpa using List.find?_some hfound
      obtain ⟨last, hlast, hfollow⟩ := ih hu (hrest u hu hname)
      refine ⟨last, hlast, ?_⟩
      rw [Catalog.follow?, hfield, Option.bind_eq_bind, Option.bind_some, htarget]
      simpa [hfound] using hfollow

end Catalog

end CypherCompiler
