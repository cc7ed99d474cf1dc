import Mathlib
import CypherCompiler.Schema.Declaration
import CypherCompiler.Proofs.Outcome.Step

namespace CypherCompiler

-- The names of the types of values. Any other name is that of a type of nodes.
def valueTypeNames : List String := Scalar.all.map Scalar.name ++ Compound.all.map Compound.name

theorem Scalar.ofName?_eq_some_iff {s : String} {scalar : Scalar} :
    ofName? s = some scalar ↔ scalar.name = s := by
  constructor
  · intro h
    simpa using List.find?_some h
  · rintro rfl
    cases scalar <;> rfl

theorem Compound.ofName?_eq_some_iff {s : String} {compound : Compound} :
    ofName? s = some compound ↔ compound.name = s := by
  constructor
  · intro h
    simpa using List.find?_some h
  · rintro rfl
    cases compound <;> rfl

namespace ValueType

variable {s : String}

theorem ofName_eq_scalar_iff {scalar : Scalar} : ofName s = .scalar scalar ↔ scalar.name = s := by
  rw [← Scalar.ofName?_eq_some_iff]
  unfold ofName
  cases Scalar.ofName? s <;> cases Compound.ofName? s <;> simp

theorem ofName_eq_compound_iff {compound : Compound} :
    ofName s = .compound compound ↔ compound.name = s := by
  rw [← Compound.ofName?_eq_some_iff]
  constructor
  · intro h
    unfold ofName at h
    cases hscalar : Scalar.ofName? s <;> cases hcompound : Compound.ofName? s <;> simp_all
  · intro h
    -- no type of values is called like one of another kind
    obtain rfl := Compound.ofName?_eq_some_iff.mp h
    cases compound <;> rfl

theorem ofName_eq_object_iff {target : String} :
    ofName s = .object target ↔ target = s ∧ s ∉ valueTypeNames := by
  have hscalar : Scalar.ofName? s = none ↔ s ∉ Scalar.all.map Scalar.name := by
    simp [Scalar.ofName?, List.find?_eq_none]
  have hcompound : Compound.ofName? s = none ↔ s ∉ Compound.all.map Compound.name := by
    simp [Compound.ofName?, List.find?_eq_none]
  rw [valueTypeNames, List.mem_append, not_or, ← hscalar, ← hcompound]
  unfold ofName
  cases Scalar.ofName? s <;> cases Compound.ofName? s <;> simp [eq_comm]

end ValueType

namespace Direction

def spellings : Direction → List String
  | .out => ["OUT", "OUTBOUND"]
  | .into => ["IN", "INBOUND"]

-- Written in one of its spellings, in any case of the ASCII letters.
def IsWritten (direction : Direction) (s : String) : Prop :=
  ∃ spelling ∈ direction.spellings, s.toLower = spelling.toLower

theorem toUpper_eq_iff {s spelling : String} (h : spelling.toUpper = spelling) :
    s.toUpper = spelling ↔ s.toLower = spelling.toLower := by
  have hlower : ∀ t : String, t.toUpper.toLower = t.toLower := by
    intro t
    apply String.toList_injective
    simp [String.toUpper, String.toLower, Function.comp_def]
  have hupper : ∀ t : String, t.toLower.toUpper = t.toUpper := by
    intro t
    apply String.toList_injective
    simp [String.toUpper, String.toLower, Function.comp_def]
  constructor
  · intro hs
    rw [← hs, hlower]
  · intro hs
    rw [← h, ← hupper s, hs, hupper]

theorem ofName?_eq_some_iff {s : String} {direction : Direction} :
    ofName? s = some direction ↔ direction.IsWritten s := by
  have hwritten : direction.IsWritten s ↔ s.toUpper ∈ direction.spellings := by
    have hcapital : ∀ spelling ∈ direction.spellings, spelling.toUpper = spelling := by
      intro spelling hspelling
      apply String.toList_injective
      rw [String.toUpper, String.toList_map]
      revert spelling
      cases direction <;> decide
    constructor
    · rintro ⟨spelling, hspelling, h⟩
      rwa [(toUpper_eq_iff (hcapital spelling hspelling)).mpr h]
    · intro h
      exact ⟨_, h, (toUpper_eq_iff (hcapital _ h)).mp rfl⟩
  rw [hwritten]
  unfold ofName?
  cases direction <;> split <;> simp_all [spellings]

end Direction

namespace FieldDeclaration

-- Exactly one of an edge, a statement and the name of a value says what the field stands for.
structure WellFormed (d : FieldDeclaration) : Prop where
  one_source : ¬(d.relation.isSome = true ∧ d.statement.isSome = true)
  relation : ∀ r ∈ d.relation, d.typeName ∉ valueTypeNames ∧ (∃ name ∈ r.name, name ≠ "") ∧
    ∃ written ∈ r.direction, ∃ direction : Direction, direction.IsWritten written
  value : d.relation = none → d.statement = none → d.typeName ∈ valueTypeNames

-- What a declared field stands for.
inductive HasKind (d : FieldDeclaration) : FieldKind → Prop
  | scalar {scalar : Scalar} (hrelation : d.relation = none) (hstatement : d.statement = none)
      (hname : scalar.name = d.typeName) : HasKind d (.scalar scalar)
  | compound {compound : Compound} (hrelation : d.relation = none)
      (hstatement : d.statement = none) (hname : compound.name = d.typeName) :
      HasKind d (.compound compound)
  | relationship {name written : String} {direction : Direction}
      (hrelation : d.relation = some ⟨some name, some written⟩) (hstatement : d.statement = none)
      (hname : name ≠ "") (hdirection : direction.IsWritten written)
      (htarget : d.typeName ∉ valueTypeNames) :
      HasKind d (.relationship ⟨name, direction, d.typeName⟩)
  | computed {statement : String} (hrelation : d.relation = none)
      (hstatement : d.statement = some statement) :
      HasKind d (.computed statement (.ofName d.typeName))

variable {d : FieldDeclaration} {type : String}

theorem relationship_eq_ok_iff {r : RelationDeclaration} {kind : FieldKind} :
    d.relationship type r = .ok kind ↔ ∃ name written direction,
      r = ⟨some name, some written⟩ ∧ name ≠ "" ∧ Direction.IsWritten direction written ∧
      d.typeName ∉ valueTypeNames ∧ kind = .relationship ⟨name, direction, d.typeName⟩ := by
  obtain ⟨name, written⟩ := r
  unfold relationship
  cases htype : ValueType.ofName d.typeName with
  | object target =>
      obtain ⟨rfl, htarget⟩ := ValueType.ofName_eq_object_iff.mp htype
      cases name with
      | none => simp
      | some name =>
          by_cases hname : name = ""
          · subst hname
            have hdropped : (some "").filter (!·.isEmpty) = none := rfl
            simp [hdropped]
          · have hkept : (some name).filter (!·.isEmpty) = some name := by simp [hname]
            simp only [hkept]
            cases written with
            | none => simp
            | some written =>
                simp only
                cases hdirection : Direction.ofName? written with
                | none =>
                    have hnone : ∀ direction : Direction, ¬direction.IsWritten written := by
                      intro direction h
                      cases hdirection.symm.trans (Direction.ofName?_eq_some_iff.mpr h)
                    simp [hnone]
                | some direction =>
                    have honly : ∀ other : Direction, other.IsWritten written ↔ direction = other :=
                      fun other => by
                        rw [← Direction.ofName?_eq_some_iff, hdirection, Option.some.injEq]
                    simp [honly, hname, htarget, eq_comm]
  | _ =>
      have hvalue : d.typeName ∈ valueTypeNames := by
        by_contra h
        cases htype.symm.trans (ValueType.ofName_eq_object_iff.mpr ⟨rfl, h⟩)
      simp [hvalue]

theorem kind_eq_ok_iff {kind : FieldKind} : d.kind type = .ok kind ↔ d.HasKind kind := by
  unfold FieldDeclaration.kind
  constructor
  · intro h
    split at h
    · cases h
    · rename_i r hrelation hstatement
      obtain ⟨name, written, direction, rfl, hname, hdirection, htarget, rfl⟩ :=
        relationship_eq_ok_iff.mp h
      exact .relationship hrelation hstatement hname hdirection htarget
    · rename_i hrelation hstatement
      cases h
      exact .computed hrelation hstatement
    · rename_i hrelation hstatement
      split at h
      · rename_i htype
        cases h
        exact .scalar hrelation hstatement (ValueType.ofName_eq_scalar_iff.mp htype)
      · rename_i htype
        cases h
        exact .compound hrelation hstatement (ValueType.ofName_eq_compound_iff.mp htype)
      · cases h
  · rintro (⟨hrelation, hstatement, hname⟩ | ⟨hrelation, hstatement, hname⟩ |
      ⟨hrelation, hstatement, hname, hdirection, htarget⟩ | ⟨hrelation, hstatement⟩)
    · simp [hrelation, hstatement, ValueType.ofName_eq_scalar_iff.mpr hname]
    · simp [hrelation, hstatement, ValueType.ofName_eq_compound_iff.mpr hname]
    · simp only [hrelation, hstatement]
      exact relationship_eq_ok_iff.mpr ⟨_, _, _, rfl, hname, hdirection, htarget, rfl⟩
    · simp [hrelation, hstatement]

-- A declared field stands for something exactly when it is well formed.
theorem exists_hasKind_iff : (∃ kind, d.HasKind kind) ↔ d.WellFormed := by
  constructor
  · rintro ⟨kind, h⟩
    cases h with
    | @scalar value hrelation hstatement hname | @compound value hrelation hstatement hname =>
        refine ⟨by simp [hrelation], by simp [hrelation], fun _ _ => ?_⟩
        rw [← hname]
        cases value <;> decide
    | relationship hrelation hstatement hname hdirection htarget =>
        refine ⟨by simp [hstatement], ?_, by simp [hrelation]⟩
        intro r hr
        obtain rfl := Option.some.inj (hrelation.symm.trans hr)
        exact ⟨htarget, ⟨_, rfl, hname⟩, _, rfl, _, hdirection⟩
    | computed hrelation hstatement =>
        exact ⟨by simp [hrelation], by simp [hrelation], by simp [hstatement]⟩
  · intro h
    cases hrelation : d.relation with
    | some r =>
        obtain ⟨htarget, ⟨name, hname, hne⟩, written, hwritten, direction, hdirection⟩ :=
          h.relation r hrelation
        have hstatement : d.statement = none := by
          have hone := h.one_source
          simpa [hrelation] using hone
        obtain ⟨_, _⟩ := r
        cases hname
        cases hwritten
        exact ⟨_, .relationship hrelation hstatement hne hdirection htarget⟩
    | none =>
        cases hstatement : d.statement with
        | some statement => exact ⟨_, .computed hrelation hstatement⟩
        | none =>
            have hvalue := h.value hrelation hstatement
            rw [valueTypeNames, List.mem_append, List.mem_map, List.mem_map] at hvalue
            obtain ⟨scalar, -, hname⟩ | ⟨compound, -, hname⟩ := hvalue
            · exact ⟨_, .scalar hrelation hstatement hname⟩
            · exact ⟨_, .compound hrelation hstatement hname⟩

-- The field of a catalog that a declaration stands for.
structure Declares (d : FieldDeclaration) (f : Field) : Prop where
  name : f.name = d.name
  kind : d.HasKind f.kind
  list : f.list = d.list
  required : f.required = d.required
  id : f.id = d.id
  unique : f.unique = d.unique
  searchIndex : f.searchIndex = d.search
  scopes : f.scopes = d.scopes
  arguments : f.arguments = d.arguments

theorem toField_eq_ok_iff {f : Field} : d.toField type = .ok f ↔ d.Declares f := by
  unfold toField
  simp only [except_bind_eq_ok, except_pure_eq_ok, kind_eq_ok_iff]
  constructor
  · rintro ⟨kind, hkind, rfl⟩
    exact ⟨rfl, hkind, rfl, rfl, rfl, rfl, rfl, rfl, rfl⟩
  · rintro ⟨hname, hkind, hlist, hrequired, hid, hunique, hsearch, hscopes, harguments⟩
    refine ⟨f.kind, hkind, ?_⟩
    rw [← hname, ← hlist, ← hrequired, ← hid, ← hunique, ← hsearch, ← hscopes, ← harguments]

theorem exists_declares_iff : (∃ f, d.Declares f) ↔ d.WellFormed := by
  rw [← exists_hasKind_iff]
  constructor
  · rintro ⟨f, hf⟩
    exact ⟨f.kind, hf.kind⟩
  · rintro ⟨kind, hkind⟩
    exact ⟨⟨d.name, kind, d.list, d.required, d.id, d.unique, d.search, d.scopes, d.arguments⟩,
      rfl, hkind, rfl, rfl, rfl, rfl, rfl, rfl, rfl⟩

-- A field of one scalar value.
def IsScalar (d : FieldDeclaration) : Prop :=
  d.relation = none ∧ d.statement = none ∧ d.typeName ∈ Scalar.all.map Scalar.name

-- A field that leads to a type of nodes, by an edge or by a statement.
def LeadsToNodes (d : FieldDeclaration) : Prop :=
  (d.relation.isSome = true ∨ d.statement.isSome = true) ∧ d.typeName ∉ valueTypeNames

namespace Declares

variable {f : Field}

theorem scalar?_isSome_iff (h : d.Declares f) : f.scalar?.isSome = true ↔ d.IsScalar := by
  have hkind := h.kind
  unfold Field.scalar? IsScalar
  generalize f.kind = kind at hkind
  cases hkind with
  | @scalar scalar hrelation hstatement hname =>
      have hmem : d.typeName ∈ Scalar.all.map Scalar.name := by
        rw [← hname]
        cases scalar <;> decide
      simp [hrelation, hstatement, hmem]
  | @compound compound hrelation hstatement hname =>
      have hother : d.typeName ∉ Scalar.all.map Scalar.name := by
        rw [← hname]
        cases compound <;> decide
      simp [hother]
  | relationship hrelation => simp [hrelation]
  | computed hrelation hstatement => simp [hstatement]

theorem target?_eq_some_iff (h : d.Declares f) {target : String} :
    f.target? = some target ↔ target = d.typeName ∧ d.LeadsToNodes := by
  have hkind := h.kind
  unfold Field.target? LeadsToNodes
  generalize f.kind = kind at hkind
  cases hkind with
  | scalar hrelation hstatement | compound hrelation hstatement => simp [hrelation, hstatement]
  | relationship hrelation hstatement hname hdirection htarget =>
      simp only [hrelation, Option.isSome_some, true_or, htarget, not_false_eq_true, and_true,
        Option.some.injEq]
      exact eq_comm
  | computed hrelation hstatement =>
      simp only [hstatement, Option.isSome_some, or_true, true_and]
      rw [← ValueType.ofName_eq_object_iff]
      cases ValueType.ofName d.typeName <;> simp

end Declares

end FieldDeclaration

end CypherCompiler
