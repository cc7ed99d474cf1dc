import Mathlib.Logic.Function.Basic
import CypherCompiler.Cypher.Quoting
import CypherCompiler.Proofs.Text.Referred

namespace CypherCompiler.Cypher

open Text

-- A name behind its opening backtick, and the text after it. Two backticks stand for one, and a
-- single one ends the name.
def readQuotedRest? : List Char → Option (List Char × List Char)
  | [] => none
  | '`' :: '`' :: rest => (readQuotedRest? rest).map fun (name, after) => ('`' :: name, after)
  | '`' :: after => some ([], after)
  | c :: rest => (readQuotedRest? rest).map fun (name, after) => (c :: name, after)

-- The quoted identifier at the start of a text, and what follows it.
def readQuoted? : List Char → Option (List Char × List Char)
  | '`' :: rest => readQuotedRest? rest
  | _ => none

-- What a character behind a backslash stands for.
def unescape? : Char → Option Char
  | '\\' => some '\\'
  | '"' => some '"'
  | 'n' => some '\n'
  | 'r' => some '\r'
  | 't' => some '\t'
  | _ => none

-- A literal behind its opening quote, and the text after it.
def readLiteralRest? : List Char → Option (List Char × List Char)
  | [] => none
  | '"' :: after => some ([], after)
  | '\\' :: rest =>
    match rest with
    | [] => none
    | c :: rest => do
      let escaped ← unescape? c
      let (value, after) ← readLiteralRest? rest
      return (escaped :: value, after)
  | c :: rest => do
    let (value, after) ← readLiteralRest? rest
    return (c :: value, after)

-- The literal at the start of a text, and what follows it.
def readLiteral? : List Char → Option (List Char × List Char)
  | '"' :: rest => readLiteralRest? rest
  | _ => none

-- The key at the start of a text, and what follows it. A key without quotes is taken as long as it
-- can be.
def readKey? (text : List Char) : Option (List Char × List Char) :=
  if text.head? = some '`' then readQuoted? text
  else
    let name := text.takeWhile isIdentifierRest
    if isPlainIdentifier (String.ofList name) then some (name, text.dropWhile isIdentifierRest)
    else none

variable {name after : List Char}

-- A name is read to its end exactly if no backtick follows, which would be taken for a part of it.
theorem readQuotedRest?_escapeBackticks_iff :
    readQuotedRest? (escapeBackticks name ++ '`' :: after) = some (name, after) ↔
      after.head? ≠ some '`' := by
  induction name with
  | nil =>
      cases after with
      | nil => simp [escapeBackticks, readQuotedRest?]
      | cons c rest =>
          by_cases hc : c = '`'
          · subst hc
            simp [escapeBackticks, readQuotedRest?]
          · simp [escapeBackticks, readQuotedRest?, hc]
  | cons c rest ih =>
      by_cases hc : c = '`'
      · subst hc
        simp [escapeBackticks, readQuotedRest?, ← ih]
      · simp [escapeBackticks, readQuotedRest?, hc, ← ih]

theorem readLiteralRest?_escapeLiteral (value after : List Char) :
    readLiteralRest? (escapeLiteral value ++ '"' :: after) = some (value, after) := by
  induction value with
  | nil => simp [escapeLiteral, readLiteralRest?]
  | cons c rest ih =>
      by_cases hbackslash : c = '\\'
      · subst hbackslash
        simp [escapeLiteral, readLiteralRest?, unescape?, ih]
      by_cases hquote : c = '"'
      · subst hquote
        simp [escapeLiteral, readLiteralRest?, unescape?, ih]
      by_cases hnewline : c = '\n'
      · subst hnewline
        simp [escapeLiteral, readLiteralRest?, unescape?, ih]
      by_cases hreturn : c = '\r'
      · subst hreturn
        simp [escapeLiteral, readLiteralRest?, unescape?, ih]
      by_cases htab : c = '\t'
      · subst htab
        simp [escapeLiteral, readLiteralRest?, unescape?, ih]
      simp [escapeLiteral, readLiteralRest?, ih]

theorem readQuoted?_quoteIdentifier_iff {s t : String} :
    readQuoted? (quoteIdentifier s ++ t).toList = some (s.toList, t.toList) ↔
      t.toList.head? ≠ some '`' := by
  rw [← @readQuotedRest?_escapeBackticks_iff s.toList]
  simp [quoteIdentifier, readQuoted?]

theorem readLiteral?_stringLiteral (s t : String) :
    readLiteral? (stringLiteral s ++ t).toList = some (s.toList, t.toList) := by
  simp [stringLiteral, readLiteral?, readLiteralRest?_escapeLiteral]

theorem head?_ne_backtick {s : String} (h : isPlainIdentifier s = true) (after : List Char) :
    (s.toList ++ after).head? ≠ some '`' := by
  unfold isPlainIdentifier at h
  cases hs : s.toList with
  | nil => simp [hs] at h
  | cons c rest =>
      simp only [hs, Bool.and_eq_true] at h
      rintro hhead
      cases hhead
      exact absurd h.1 (by decide)

-- Neither way of writing a key runs into text that begins with another character.
theorem readKey?_propertyKey {s t : String}
    (ht : ∀ c ∈ t.toList.head?, isIdentifierRest c = false ∧ c ≠ '`') :
    readKey? (propertyKey s ++ t).toList = some (s.toList, t.toList) := by
  by_cases hplain : isPlainIdentifier s = true
  · rw [propertyKey, if_pos hplain, String.toList_append]
    have hbegins : BeginsWith (s.toList ++ t.toList) s :=
      ⟨hplain, t.toList, rfl, fun c hc => (ht c hc).1⟩
    have htake := (beginsWith_iff.mp hbegins).2
    have hdrop : (s.toList ++ t.toList).dropWhile isIdentifierRest = t.toList := by
      have hparts := List.takeWhile_append_dropWhile (p := isIdentifierRest)
        (l := s.toList ++ t.toList)
      rwa [htake, List.append_cancel_left_eq] at hparts
    rw [readKey?, if_neg (head?_ne_backtick hplain t.toList)]
    simp [htake, hdrop, hplain]
  · have hhead : (quoteIdentifier s ++ t).toList.head? = some '`' := by
      simp [quoteIdentifier]
    rw [propertyKey, if_neg hplain, readKey?, if_pos hhead, readQuoted?_quoteIdentifier_iff]
    exact fun htick => (ht '`' htick).2 rfl

theorem propertyKey_injective : Function.Injective propertyKey := by
  intro name other h
  have hend : ∀ c ∈ (" " : String).toList.head?, isIdentifierRest c = false ∧ c ≠ '`' := by
    rintro c ⟨⟩
    decide
  have hread := readKey?_propertyKey (s := name) hend
  rw [h, readKey?_propertyKey hend] at hread
  simpa [String.toList_inj, eq_comm] using hread

-- What is written between quotes is read back to the end and no further, whatever it holds: an
-- identifier unless a backtick follows, a literal in any case, and a key before all text that could
-- not go on with it. So two keys are never written alike.
theorem quoted_reads_back (s t : String) :
    (readQuoted? (quoteIdentifier s ++ t).toList = some (s.toList, t.toList) ↔
      t.toList.head? ≠ some '`') ∧
    readLiteral? (stringLiteral s ++ t).toList = some (s.toList, t.toList) ∧
    ((∀ c ∈ t.toList.head?, isIdentifierRest c = false ∧ c ≠ '`') →
      readKey? (propertyKey s ++ t).toList = some (s.toList, t.toList)) ∧
    Function.Injective propertyKey :=
  ⟨readQuoted?_quoteIdentifier_iff, readLiteral?_stringLiteral s t, readKey?_propertyKey,
    propertyKey_injective⟩

-- A text that holds every character with a meaning of its own, and ends in two of them.
theorem quoted_reads_back_everySign :
    let s := "``a\"b\nc\\`"
    let t := "\"$"
    t.toList.head? ≠ some '`' ∧
    readQuoted? (quoteIdentifier s ++ t).toList = some (s.toList, t.toList) ∧
    readLiteral? (stringLiteral s ++ t).toList = some (s.toList, t.toList) ∧
    (∀ c ∈ t.toList.head?, isIdentifierRest c = false ∧ c ≠ '`') ∧
    readKey? (propertyKey s ++ t).toList = some (s.toList, t.toList) := by
  intro s t
  have htick : t.toList.head? ≠ some '`' := by decide
  have hend : ∀ c ∈ t.toList.head?, isIdentifierRest c = false ∧ c ≠ '`' := by
    have hhead : t.toList.head? = some '"' := by simp [t]
    rw [hhead]
    rintro c ⟨⟩
    decide
  obtain ⟨hidentifier, hliteral, hkey, -⟩ := quoted_reads_back s t
  exact ⟨htick, hidentifier.mpr htick, hliteral, hend, hkey hend⟩

end CypherCompiler.Cypher
