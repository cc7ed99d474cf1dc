import CypherCompiler.Proofs.Filter.KeyReading

namespace CypherCompiler

-- A stored property for which membership in a list is not defined.
def Field.LacksMembership (f : Field) : Prop :=
  f.kind = .scalar .boolean ∨ f.kind = .compound .point

theorem Field.isIn_appliesTo_iff {f : Field} (hstored : f.isProperty = true) :
    Comparator.appliesTo .isIn f = true ↔ ¬ f.LacksMembership := by
  unfold isProperty at hstored
  unfold Comparator.appliesTo LacksMembership
  cases hkind : f.kind with
  | scalar s => simp
  | compound c => cases c <;> simp
  | relationship | computed =>
      rw [hkind] at hstored
      cases hstored

namespace FilterKey

-- Some key of a filter makes this comparison.
def Defines (field : Field) (op : Comparator) : Prop :=
  ∃ ending, classify? field ending = some (.comparison field op)

-- Every comparator but equality has an ending of its own.
theorem exists_comparatorOf? (op : Comparator) : ∃ ending, comparatorOf? ending = some op := by
  have hending : op = .eq ∨ ∃ e, (e, op) ∈ comparators := by
    cases op with
    | distance test => cases test <;> simp [comparators]
    | _ => simp [comparators]
  obtain rfl | ⟨e, he⟩ := hending
  · exact ⟨none, rfl⟩
  · exact ⟨some e, (lookup_eq_some_iff comparators_nodup).mpr he⟩

theorem defines_iff {field : Field} {op : Comparator} :
    Defines field op ↔ op.appliesTo field = true := by
  constructor
  · rintro ⟨ending, hclassify⟩
    cases classify?_eq_some_iff.mp hclassify with
    | equals hstored => exact appliesTo_eq_of_isProperty hstored
    | compared _ happlies => exact happlies
  · intro happlies
    obtain ⟨ending, hending⟩ := exists_comparatorOf? op
    exact ⟨ending, (classify?_comparison_iff (isProperty_of_appliesTo happlies)).mpr
      ⟨op, rfl, hending, happlies⟩⟩

end FilterKey

namespace Predicate

variable {type : NodeType} {path : ParameterPath} {name : String} {v : Json} {ps qs : Parameters}
  {p : Predicate}

theorem argumentComparator_appliesTo_iff {field : Field} (hstored : field.isProperty = true) :
    (argumentComparator field v).appliesTo field = true ↔
      ¬ (v.isArray = true ∧ field.list = false ∧ field.LacksMembership) := by
  unfold argumentComparator
  by_cases hlist : v.isArray = true ∧ field.list = false
  · obtain ⟨harray, hsingle⟩ := hlist
    simp [harray, hsingle, Field.isIn_appliesTo_iff hstored]
  · have heq : (v.isArray && !field.list) = false := by simpa using hlist
    have happlies := FilterKey.appliesTo_eq_of_isProperty hstored
    simp only [heq, Bool.false_eq_true, if_false, happlies, true_iff]
    exact fun hlacks => hlist ⟨hlacks.1, hlacks.2.1⟩

-- An argument makes a comparison of the filter, unless it gives a list for a single-valued field
-- for which membership is not defined.
theorem ofArgument_applies_iff (hname : name ≠ Argument.nodeId)
    (h : ofArgument type path name v ps = .ok (p, qs)) :
    ∃ field op operand, type.field? name = some field ∧
      p = .compare ⟨[], .property field.name field.compound?, op, operand⟩ ∧
      comparison field op name v [] (path.child name) ps = .ok (p, qs) ∧
      (FilterKey.Defines field op ↔ op.appliesTo field = true) ∧
      (op.appliesTo field = true ↔
        ¬ (v.isArray = true ∧ field.list = false ∧ field.LacksMembership)) := by
  obtain ⟨field, hfield, hstored, hcompare⟩ := ofArgument_comparison hname h
  have happlies := argumentComparator_appliesTo_iff (v := v) hstored
  obtain ⟨-, -, hp, -⟩ | ⟨-, _, -, hp, -⟩ := comparison_cases hcompare <;>
    exact ⟨field, _, _, hfield, hp, hcompare, FilterKey.defines_iff, happlies⟩

-- Members of a club, who are active or not.
def memberType : NodeType where
  name := "Person"
  additionalLabels := []
  scopes := .unrestricted
  fields :=
    [⟨"name", .scalar .string, false, true, false, true, none, [], []⟩,
      ⟨"active", .scalar .boolean, false, false, false, false, none, [], []⟩]
  primaryKey := some "name"
  fields_nodup := by decide
  primaryKey_scalar := by decide

theorem ofArgument_applies_iff_names :
    ∃ p qs, ofArgument memberType .root "name" (.arr [.str "Ann", .str "Bob"]) .empty =
        .ok (p, qs) ∧
      p = .compare ⟨[], .property "name" none, .isIn, .parameter "name"⟩ ∧
      ∃ field, memberType.field? "name" = some field ∧ FilterKey.Defines field .isIn ∧
        Comparator.appliesTo .isIn field = true := by
  obtain ⟨p, qs, hread, hp⟩ : ∃ p qs,
      ofArgument memberType .root "name" (.arr [.str "Ann", .str "Bob"]) .empty = .ok (p, qs) ∧
      p = .compare ⟨[], .property "name" none, .isIn, .parameter "name"⟩ := ⟨_, _, rfl, rfl⟩
  obtain ⟨field, op, operand, hfield, hmade, -, hdefines, happlies⟩ :=
    ofArgument_applies_iff (by decide) hread
  cases hfield
  cases hp.symm.trans hmade
  have hmember := happlies.mpr (by simp [Field.LacksMembership])
  exact ⟨p, qs, hread, hp, _, rfl, hdefines.mpr hmember, hmember⟩

-- A list of truth values is accepted for the field that no filter tests for membership.
theorem ofArgument_isIn_boolean :
    ∃ p qs field,
      ofArgument memberType .root "active" (.arr [.bool true, .bool false]) .empty =
        .ok (p, qs) ∧
      p = .compare ⟨[], .property "active" none, .isIn, .parameter "active"⟩ ∧
      memberType.field? "active" = some field ∧ Comparator.appliesTo .isIn field = false ∧
      FilterKey.read? memberType "active_in" = none :=
  ⟨_, _, _, rfl, rfl, rfl, rfl, rfl⟩

end Predicate

end CypherCompiler
