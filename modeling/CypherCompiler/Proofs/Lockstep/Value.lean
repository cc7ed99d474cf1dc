import CypherCompiler.Filter.Value
import CypherCompiler.Request.Basic

namespace CypherCompiler

namespace Json

mutual

-- Values of the same shape: the same kind at every node, with the same keys in the same order.
inductive Alike : Json → Json → Prop
  | null : Alike .null .null
  | bool (a b : Bool) : Alike (.bool a) (.bool b)
  | number (a b : Number) : Alike (.number a) (.number b)
  | str (a b : String) : Alike (.str a) (.str b)
  | arr {as bs : List Json} (h : AlikeItems as bs) : Alike (.arr as) (.arr bs)
  | obj {as bs : List (String × Json)} (h : AlikeMembers as bs) : Alike (.obj as) (.obj bs)

inductive AlikeItems : List Json → List Json → Prop
  | nil : AlikeItems [] []
  | cons {a b : Json} {as bs : List Json} (h : Alike a b) (hrest : AlikeItems as bs) :
      AlikeItems (a :: as) (b :: bs)

inductive AlikeMembers : List (String × Json) → List (String × Json) → Prop
  | nil : AlikeMembers [] []
  | cons {key : String} {a b : Json} {as bs : List (String × Json)} (h : Alike a b)
      (hrest : AlikeMembers as bs) : AlikeMembers ((key, a) :: as) ((key, b) :: bs)

end

namespace Alike

variable {v w : Json}

theorem isNull_eq (h : Alike v w) : v.isNull = w.isNull := by
  cases h <;> rfl

theorem isArray_eq (h : Alike v w) : v.isArray = w.isArray := by
  cases h <;> rfl

theorem isObject_eq (h : Alike v w) : v.isObject = w.isObject := by
  cases h <;> rfl

theorem isString_eq (h : Alike v w) : v.isString = w.isString := by
  cases h <;> rfl

theorem isNumber_eq (h : Alike v w) : v.isNumber = w.isNumber := by
  cases h <;> rfl

end Alike

namespace AlikeMembers

variable {as bs : List (String × Json)}

theorem keys_eq (h : AlikeMembers as bs) : Members.keys as = Members.keys bs := by
  induction as generalizing bs with
  | nil =>
      cases h
      rfl
  | cons a rest ih =>
      cases h with
      | cons _ hrest => simpa [Members.keys] using ih hrest

theorem isEmpty_eq (h : AlikeMembers as bs) : as.isEmpty = bs.isEmpty := by
  cases h <;> rfl

theorem get?_cases (h : AlikeMembers as bs) (key : String) :
    (Members.get? as key = none ∧ Members.get? bs key = none) ∨
      ∃ v w, Members.get? as key = some v ∧ Members.get? bs key = some w ∧ Alike v w := by
  unfold Members.get?
  induction as generalizing bs with
  | nil =>
      cases h
      exact .inl ⟨rfl, rfl⟩
  | cons a rest ih =>
      cases h with
      | @cons k a b _ _ ha hrest =>
          rw [List.lookup_cons, List.lookup_cons]
          cases key == k with
          | true => exact .inr ⟨a, b, rfl, rfl, ha⟩
          | false => exact ih hrest

-- A test that looks at keys and kinds only has the same outcome.
theorem all_eq (h : AlikeMembers as bs) {test : String × Json → Bool}
    (htest : ∀ key {a b : Json}, Alike a b → test (key, a) = test (key, b)) :
    as.all test = bs.all test := by
  induction as generalizing bs with
  | nil =>
      cases h
      rfl
  | cons a rest ih =>
      cases h with
      | cons ha hrest => rw [List.all_cons, List.all_cons, htest _ ha, ih hrest]

end AlikeMembers

end Json

open Json

theorem Compound.temporalValue?_alike (compound : Compound) {v w : Json} (h : Alike v w) :
    (compound.temporalValue? v).isSome = (compound.temporalValue? w).isSome := by
  cases h with
  | obj h =>
      rename_i as bs
      have hall : as.all (fun m => compound.constituents.contains m.1 && !m.2.isNull) =
          bs.all (fun m => compound.constituents.contains m.1 && !m.2.isNull) :=
        h.all_eq fun key _ _ ha => by simp only [ha.isNull_eq]
      simp only [temporalValue?]
      obtain ⟨ha, hb⟩ | ⟨v, w, ha, hb, hvw⟩ := h.get?_cases formatted
      · simp only [ha, hb, hall, h.isEmpty_eq]
        split <;> rfl
      · simp only [ha, hb, hvw.isString_eq]
        split <;> rfl
  | _ => rfl

namespace Field

theorem singleValue?_alike (f : Field) {v w : Json} (h : Alike v w) :
    (f.singleValue? v).isSome = (f.singleValue? w).isSome := by
  unfold singleValue?
  cases f.kind with
  | scalar scalar =>
      simp only [h.isObject_eq]
      split <;> rfl
  | compound compound =>
      cases compound with
      | point =>
          simp only [h.isObject_eq]
          split <;> rfl
      | _ => exact Compound.temporalValue?_alike _ h
  | relationship => rfl
  | computed => rfl

theorem distanceValue?_alike {v w : Json} (h : Alike v w) :
    (distanceValue? v).isSome = (distanceValue? w).isSome := by
  cases h with
  | obj h =>
      simp only [distanceValue?, asObject?, Option.bind_eq_bind, Option.bind_some]
      obtain ⟨ha, hb⟩ | ⟨p, q, ha, hb, hpoint⟩ := h.get?_cases "point"
      · simp only [ha, hb, Option.bind_none]
      · obtain ⟨ha', hb'⟩ | ⟨m, n, ha', hb', hdistance⟩ := h.get?_cases "distance"
        · simp only [ha, hb, ha', hb', Option.bind_some, Option.bind_none]
        · simp only [ha, hb, ha', hb', Option.bind_some, hpoint.isObject_eq,
            hdistance.isNumber_eq]
          split <;> rfl
  | _ => rfl

theorem mapM_singleValue?_alike (f : Field) {as bs : List Json} (h : AlikeItems as bs) :
    (as.mapM f.singleValue?).isSome = (bs.mapM f.singleValue?).isSome := by
  induction as generalizing bs with
  | nil =>
      cases h
      rfl
  | cons a rest ih =>
      cases h with
      | @cons _ b _ bs ha hrest =>
          have hfirst := f.singleValue?_alike ha
          have hothers := ih hrest
          rw [List.mapM_cons, List.mapM_cons]
          cases h₁ : f.singleValue? a <;> cases h₂ : f.singleValue? b <;>
            cases h₃ : rest.mapM f.singleValue? <;> cases h₄ : bs.mapM f.singleValue? <;>
            simp_all

-- Whether a value fits a comparison is a question of its shape.
theorem comparedValue?_alike (f : Field) (op : Comparator) {v w : Json} (h : Alike v w) :
    (f.comparedValue? op v).isSome = (f.comparedValue? op w).isSome := by
  have hlist : (f.comparedValue? .isIn v).isSome = (f.comparedValue? .isIn w).isSome := by
    cases h with
    | arr h => simpa [comparedValue?, Json.asArray?] using f.mapM_singleValue?_alike h
    | _ => rfl
  have hsingle : (if v.isArray && !f.list then none else f.singleValue? v).isSome =
      (if w.isArray && !f.list then none else f.singleValue? w).isSome := by
    rw [h.isArray_eq]
    split
    · rfl
    · exact f.singleValue?_alike h
  cases op with
  | distance test => exact distanceValue?_alike h
  | isIn => exact hlist
  | notIn => exact hlist
  | _ => exact hsingle

end Field

end CypherCompiler
