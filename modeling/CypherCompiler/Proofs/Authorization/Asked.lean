import CypherCompiler.Authorization
import CypherCompiler.Proofs.Outcome.Failure
import CypherCompiler.Proofs.Outcome.Filter
import CypherCompiler.Proofs.Schema.Lookup

namespace CypherCompiler.Selection

variable {catalog : Catalog} {grants : Grants} {type : NodeType} {s : Selection} {field : Field}

-- A selection asks for the field that it names, and for those that the selections below it ask
-- for on the type that the field leads to.
inductive Asks (catalog : Catalog) : NodeType → Selection → Field → Prop
  | own {type : NodeType} {s : Selection} {field : Field}
      (hfield : type.field? s.name = some field) : Asks catalog type s field
  | nested {type target : NodeType} {s t : Selection} {owner field : Field} {name : String}
      (howner : type.field? s.name = some owner) (htarget : owner.target? = some name)
      (hfound : catalog.type? name = some target) (ht : t ∈ s.selections)
      (h : Asks catalog target t field) : Asks catalog type s field

mutual

-- The fields that a selection asks for, in pre-order.
def asked (catalog : Catalog) (type : NodeType) : Selection → List Field
  | ⟨name, _, _, selections⟩ =>
    match type.field? name with
    | none => []
    | some field =>
      field :: match field.target?.bind catalog.type? with
        | none => []
        | some target => askedOfAll catalog target selections

def askedOfAll (catalog : Catalog) (type : NodeType) : List Selection → List Field
  | [] => []
  | s :: rest => asked catalog type s ++ askedOfAll catalog type rest

end

theorem mem_askedOfAll {selections : List Selection} :
    field ∈ askedOfAll catalog type selections ↔
      ∃ s ∈ selections, field ∈ asked catalog type s := by
  induction selections with
  | nil => simp [askedOfAll]
  | cons s rest ih => rw [askedOfAll, List.mem_append, ih, List.exists_mem_cons_iff]

theorem Asks.mem_asked (h : Asks catalog type s field) : field ∈ asked catalog type s := by
  induction h with
  | @own type s field hfield =>
      cases s
      simp [asked, hfield]
  | @nested type target s t owner field name howner htarget hfound ht _ ih =>
      cases s
      have hmem := mem_askedOfAll.mpr ⟨t, ht, ih⟩
      simp [asked, howner, htarget, hfound, hmem]

mutual

theorem asks_of_mem_asked {type : NodeType} (s : Selection) (h : field ∈ asked catalog type s) :
    Asks catalog type s field := by
  cases s with
  | mk name aliasName arguments selections =>
      rw [asked] at h
      split at h
      · cases h
      · rename_i owner howner
        obtain rfl | h := List.mem_cons.mp h
        · exact .own howner
        · split at h
          · cases h
          · rename_i target hbind
            obtain ⟨_, htarget, hfound⟩ := Option.bind_eq_some_iff.mp hbind
            obtain ⟨t, ht, hasks⟩ := asks_of_mem_askedOfAll selections h
            exact .nested howner htarget hfound ht hasks

theorem asks_of_mem_askedOfAll {type : NodeType} (selections : List Selection)
    (h : field ∈ askedOfAll catalog type selections) :
    ∃ s ∈ selections, Asks catalog type s field := by
  cases selections with
  | nil => cases h
  | cons s rest =>
      rw [askedOfAll, List.mem_append] at h
      obtain h | h := h
      · exact ⟨s, List.mem_cons_self, asks_of_mem_asked s h⟩
      · obtain ⟨t, ht, hasks⟩ := asks_of_mem_askedOfAll rest h
        exact ⟨t, List.mem_cons_of_mem s ht, hasks⟩

end

theorem mem_askedOfAll_iff_asks {selections : List Selection} :
    field ∈ askedOfAll catalog type selections ↔
      ∃ s ∈ selections, Asks catalog type s field := by
  constructor
  · exact asks_of_mem_askedOfAll selections
  · rintro ⟨s, hs, hasks⟩
    exact mem_askedOfAll.mpr ⟨s, hs, hasks.mem_asked⟩

-- The name of the first field whose scopes were not granted.
def firstDenied? (grants : Grants) (fields : List Field) : Option String :=
  (fields.find? fun f => !grants.permits f.scopes).map Field.name

-- What a check says when it denies that name, or none.
def verdict : Option String → Except RequestError Unit
  | none => .ok ()
  | some name => .error (.forbidden name)

theorem firstDenied?_isSome_iff {fields : List Field} :
    (firstDenied? grants fields).isSome = true ↔
      ∃ field ∈ fields, grants.permits field.scopes = false := by
  simp [firstDenied?]

theorem verdict_forbids (denied : Option String) :
    FailsOnly (fun e => ∃ name, e = .forbidden name) (verdict denied) := by
  cases denied with
  | none => exact .ok _
  | some name => exact .error ⟨name, rfl⟩

-- One check after another denies the first field that either of them does.
theorem verdict_bind_verdict (first second : List Field) :
    (do
      verdict (firstDenied? grants first)
      verdict (firstDenied? grants second)) = verdict (firstDenied? grants (first ++ second)) := by
  unfold firstDenied?
  rw [List.find?_append]
  cases first.find? _ <;> rfl

mutual

-- The check of a selection denies the first field that it asks for without a grant, and can fail
-- in no other way, as every field leads to a type that there is.
theorem authorize_eq_verdict {type : NodeType} (htype : type ∈ catalog.types) (s : Selection) :
    s.authorize catalog grants type = verdict (firstDenied? grants (asked catalog type s)) := by
  cases s with
  | mk name aliasName arguments selections =>
      rw [authorize, asked]
      cases hfield : type.field? name with
      | none => rfl
      | some field =>
          simp only [firstDenied?, List.find?_cons]
          cases hpermits : grants.permits field.scopes with
          | false => rfl
          | true =>
              simp only [Bool.not_true, Bool.false_eq_true, if_false]
              cases htarget : field.target? with
              | none => rfl
              | some target =>
                  obtain ⟨u, hu, hfound⟩ :=
                    Catalog.exists_target htype (NodeType.field?_eq_some hfield).1 htarget
                  simp only [Catalog.require, hfound, Option.bind_some]
                  exact authorizeAll_eq_verdict hu selections

theorem authorizeAll_eq_verdict {type : NodeType} (htype : type ∈ catalog.types)
    (selections : List Selection) :
    authorizeAll catalog grants type selections =
      verdict (firstDenied? grants (askedOfAll catalog type selections)) := by
  cases selections with
  | nil => rfl
  | cons s rest =>
      rw [authorizeAll, askedOfAll, authorize_eq_verdict htype s,
        authorizeAll_eq_verdict htype rest, verdict_bind_verdict]

end

end CypherCompiler.Selection
