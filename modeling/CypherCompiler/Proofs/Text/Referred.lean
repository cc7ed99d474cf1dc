import CypherCompiler.Proofs.Text.Word

namespace CypherCompiler.Text

-- An identifier that goes on for as long as it can stands first.
def BeginsWith (text : List Char) (name : String) : Prop :=
  isPlainIdentifier name = true ∧
    ∃ after, text = name.toList ++ after ∧ ∀ c ∈ after.head?, isIdentifierRest c = false

-- The text refers to a name: behind a dollar sign somewhere in it, the name stands first.
def RefersTo (statement name : String) : Prop :=
  ∃ before rest, statement.toList = before ++ '$' :: rest ∧ BeginsWith rest name

theorem beginsWith_iff {text : List Char} {name : String} :
    BeginsWith text name ↔
      isPlainIdentifier name = true ∧ text.takeWhile isIdentifierRest = name.toList := by
  refine and_congr_right fun hplain => ⟨?_, ?_⟩
  · rintro ⟨after, rfl, hafter⟩
    have hnone : after.takeWhile isIdentifierRest = [] := by
      cases after with
      | nil => rfl
      | cons c rest => rw [List.takeWhile_cons_of_neg (by simp [hafter c rfl])]
    rw [List.takeWhile_append_of_pos (isWord_of_isPlainIdentifier hplain), hnone, List.append_nil]
  · intro h
    refine ⟨text.dropWhile isIdentifierRest, ?_, ?_⟩
    · rw [← h, List.takeWhile_append_dropWhile]
    · intro c hc
      have hhead := List.head?_dropWhile_not isIdentifierRest text
      rw [Option.mem_def.mp hc] at hhead
      simpa using hhead

-- What stands behind a dollar sign counts if it begins as an identifier does.
theorem mem_referencesIn_cons {c : Char} {rest : List Char} {name : String} :
    name ∈ referencesIn (c :: rest) ↔
      (c = '$' ∧ BeginsWith rest name) ∨ name ∈ referencesIn rest := by
  by_cases hc : c = '$'
  · subst hc
    rw [beginsWith_iff, referencesIn]
    cases hword : rest.takeWhile isIdentifierRest with
    | nil =>
        have hempty : ¬ (isPlainIdentifier name = true ∧ [] = name.toList) := by
          rintro ⟨hplain, hnil⟩
          simp [isPlainIdentifier, ← hnil] at hplain
        simp only [hempty, and_false, false_or]
    | cons d more =>
        have hall := List.all_takeWhile (p := isIdentifierRest) (l := rest)
        rw [hword, List.all_cons, Bool.and_eq_true] at hall
        have hplain : d :: more = name.toList →
            isPlainIdentifier name = isIdentifierStart d := by
          intro h
          simp [isPlainIdentifier, ← h, hall.2]
        have hname : name = String.ofList (d :: more) ↔ d :: more = name.toList := by
          rw [eq_comm, ← String.toList_inj, String.toList_ofList]
        by_cases hstart : isIdentifierStart d = true
        · simp only [if_pos hstart, List.mem_cons, hname, true_and]
          refine or_congr_left ⟨fun h => ⟨(hplain h).trans hstart, h⟩, And.right⟩
        · have hnot : ¬ (isPlainIdentifier name = true ∧ d :: more = name.toList) := by
            rintro ⟨hp, h⟩
            exact hstart ((hplain h).symm.trans hp)
          simp [if_neg hstart, hnot]
  · rw [referencesIn]
    · simp [hc]
    · exact hc

-- The scan finds the names that the text refers to, and no others.
theorem mem_references_iff {statement name : String} :
    name ∈ references statement ↔ RefersTo statement name := by
  unfold references RefersTo
  induction statement.toList with
  | nil => simp [referencesIn]
  | cons c rest ih =>
      rw [mem_referencesIn_cons, ih]
      constructor
      · rintro (⟨rfl, hbegins⟩ | ⟨before, after, rfl, hbegins⟩)
        · exact ⟨[], rest, rfl, hbegins⟩
        · exact ⟨c :: before, after, rfl, hbegins⟩
      · rintro ⟨before, after, heq, hbegins⟩
        cases before with
        | nil =>
            obtain ⟨rfl, rfl⟩ := List.cons.inj heq
            exact .inl ⟨rfl, hbegins⟩
        | cons d more =>
            obtain ⟨rfl, rfl⟩ := List.cons.inj heq
            exact .inr ⟨more, after, rfl, hbegins⟩

end CypherCompiler.Text
