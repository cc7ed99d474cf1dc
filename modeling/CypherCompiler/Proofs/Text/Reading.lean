import CypherCompiler.Cypher.Quoting
import CypherCompiler.Proofs.Text.Word

namespace CypherCompiler.Text

-- Where a reader of a statement stands: in plain text, in a quoted identifier, in a literal,
-- or behind a backslash in a literal.
inductive Place where
  | bare
  | quoted
  | literal
  | escaped
  deriving DecidableEq, Repr

-- A backtick that is written twice leaves the identifier and enters it again at once.
def Place.after (place : Place) (c : Char) : Place :=
  match place with
  | .bare => if c = '`' then .quoted else if c = '"' then .literal else .bare
  | .quoted => if c = '`' then .bare else .quoted
  | .literal => if c = '\\' then .escaped else if c = '"' then .bare else .literal
  | .escaped => .literal

-- The names that follow a dollar sign outside of quoted identifiers and literals, each taken
-- as long as it can be.
def referencesFrom : Place → List Char → List String
  | _, [] => []
  | place, c :: rest =>
    if place = .bare ∧ c = '$' then
      String.ofList (rest.takeWhile isIdentifierRest) :: referencesFrom (place.after c) rest
    else referencesFrom (place.after c) rest

def bareReferences (statement : String) : List String :=
  referencesFrom .bare statement.toList

-- Text after which no name goes on.
def Breaks (rest : List Char) : Prop := ∀ c ∈ rest.head?, isIdentifierRest c = false

-- Text that is complete in itself and holds these references, whatever follows it.
def Sealed (s : String) (names : List String) : Prop :=
  ∀ rest n, n ∈ referencesFrom .bare (s.toList ++ rest) ↔
    n ∈ names ∨ n ∈ referencesFrom .bare rest

-- Text that holds these references if no name goes on after it.
def Reads (s : String) (names : List String) : Prop :=
  ∀ rest, Breaks rest → ∀ n, n ∈ referencesFrom .bare (s.toList ++ rest) ↔
    n ∈ names ∨ n ∈ referencesFrom .bare rest

-- Text without dollar signs and quotes.
def isFixed (s : String) : Bool :=
  s.toList.all fun c => c != '$' && c != '`' && c != '"'

-- Text that ends the name before it.
def isBreak (s : String) : Bool :=
  match s.toList with
  | [] => false
  | c :: _ => !isIdentifierRest c

theorem mem_bareReferences {s : String} {names : List String} (h : Reads s names) (n : String) :
    n ∈ bareReferences s ↔ n ∈ names := by
  have hs := h [] (by simp [Breaks]) n
  simpa [bareReferences, referencesFrom] using hs

theorem Sealed.reads {s : String} {names : List String} (h : Sealed s names) : Reads s names :=
  fun rest _ n => h rest n

theorem Reads.congr {s : String} {names more : List String} (h : Reads s names)
    (hmore : ∀ n, n ∈ names ↔ n ∈ more) : Reads s more :=
  fun rest hrest n => by rw [h rest hrest, hmore]

theorem Sealed.congr {s : String} {names more : List String} (h : Sealed s names)
    (hmore : ∀ n, n ∈ names ↔ n ∈ more) : Sealed s more :=
  fun rest n => by rw [h rest, hmore]

theorem breaks_append {s : String} (h : isBreak s = true) (rest : List Char) :
    Breaks (s.toList ++ rest) := by
  unfold isBreak at h
  intro c hc
  cases hs : s.toList with
  | nil => simp [hs] at h
  | cons a tail =>
      simp only [hs, List.cons_append, List.head?_cons, Option.mem_def, Option.some.injEq] at h hc
      subst hc
      simpa using h

theorem Sealed.append {s t : String} {names more : List String} (hs : Sealed s names)
    (ht : Sealed t more) : Sealed (s ++ t) (names ++ more) := by
  intro rest n
  rw [String.toList_append, List.append_assoc, hs, ht, List.mem_append, or_assoc]

theorem Sealed.append_reads {s t : String} {names more : List String} (hs : Sealed s names)
    (ht : Reads t more) : Reads (s ++ t) (names ++ more) := by
  intro rest hrest n
  rw [String.toList_append, List.append_assoc, hs, ht rest hrest, List.mem_append, or_assoc]

-- A text in which a name may still go on is closed by a text that breaks it.
theorem Reads.append_sealed {s t : String} {names more : List String} (hs : Reads s names)
    (hbreak : isBreak t = true) (ht : Sealed t more) : Sealed (s ++ t) (names ++ more) := by
  intro rest n
  rw [String.toList_append, List.append_assoc, hs _ (breaks_append hbreak rest), ht,
    List.mem_append, or_assoc]

theorem sealed_of_isFixed {s : String} (h : isFixed s = true) : Sealed s [] := by
  intro rest n
  unfold isFixed at h
  generalize s.toList = cs at h ⊢
  induction cs with
  | nil => simp
  | cons c tail ih =>
      simp only [List.all_cons, Bool.and_eq_true, bne_iff_ne, ne_eq] at h
      obtain ⟨⟨⟨hd, hq⟩, hl⟩, htail⟩ := h
      have hplace : Place.bare.after c = .bare := by simp [Place.after, hq, hl]
      rw [List.cons_append, referencesFrom, if_neg (by simp [hd]), hplace]
      exact ih htail

theorem isFixed_of_isWord {s : String} (h : IsWord s) : isFixed s = true := by
  rw [isFixed, List.all_eq_true]
  intro c hc
  have hword := h c hc
  simp only [Bool.and_eq_true, bne_iff_ne, ne_eq]
  refine ⟨⟨?_, ?_⟩, ?_⟩ <;> rintro rfl <;> exact absurd hword (by decide)

theorem Sealed.fixed_append {s t : String} {names : List String} (hs : isFixed s = true)
    (ht : Sealed t names) : Sealed (s ++ t) names := by
  simpa using (sealed_of_isFixed hs).append ht

theorem Sealed.append_fixed {s t : String} {names : List String} (hs : Sealed s names)
    (ht : isFixed t = true) : Sealed (s ++ t) names := by
  simpa using hs.append (sealed_of_isFixed ht)

theorem Reads.fixed_append {s t : String} {names : List String} (hs : isFixed s = true)
    (ht : Reads t names) : Reads (s ++ t) names := by
  simpa using (sealed_of_isFixed hs).append_reads ht

theorem Reads.append_fixed {s t : String} {names : List String} (hs : Reads s names)
    (ht : isFixed t = true) (hbreak : isBreak t = true) : Sealed (s ++ t) names := by
  simpa using hs.append_sealed hbreak (sealed_of_isFixed ht)

theorem sealed_empty : Sealed "" [] :=
  sealed_of_isFixed (by decide)

theorem Sealed.join {items : List String} (h : ∀ s ∈ items, Sealed s []) :
    Sealed (String.join items) [] := by
  induction items with
  | nil => exact sealed_empty
  | cons s rest ih =>
      rw [String.join_cons]
      exact (h s List.mem_cons_self).append (ih fun t ht => h t (List.mem_cons_of_mem s ht))

-- One more item in front of a list with separators that end every name.
theorem Reads.intercalate_cons {separator s : String} {rest : List String}
    {names more : List String} (hfixed : isFixed separator = true)
    (hbreak : isBreak separator = true) (hs : Reads s names)
    (hrest : Reads (String.intercalate separator rest) more) :
    Reads (String.intercalate separator (s :: rest)) (names ++ more) := by
  cases rest with
  | nil =>
      rw [String.intercalate_singleton]
      intro tail htail n
      have hnone := hrest [] (by simp [Breaks]) n
      simp only [String.intercalate_nil, String.toList_empty, List.append_nil, referencesFrom,
        List.not_mem_nil, or_false, false_iff] at hnone
      rw [hs tail htail, List.mem_append]
      simp [hnone]
  | cons t more =>
      rw [String.intercalate_cons_cons]
      exact (hs.append_fixed hfixed hbreak).append_reads hrest

theorem Reads.intercalate_map {α : Type} {f : α → String} {names : α → List String}
    {separator : String} (hfixed : isFixed separator = true) (hbreak : isBreak separator = true)
    {as : List α} (h : ∀ a ∈ as, Reads (f a) (names a)) :
    Reads (String.intercalate separator (as.map f)) (as.flatMap names) := by
  induction as with
  | nil => simpa using sealed_empty.reads
  | cons a rest ih =>
      rw [List.map_cons, List.flatMap_cons]
      exact Reads.intercalate_cons hfixed hbreak (h a List.mem_cons_self)
        (ih fun b hb => h b (List.mem_cons_of_mem a hb))

theorem Reads.intercalate_option {separator : String} {o : Option String} {rest : List String}
    {names more : List String} (hfixed : isFixed separator = true)
    (hbreak : isBreak separator = true) (ho : ∀ text ∈ o, Reads text names)
    (hnames : o = none → names = []) (hrest : Reads (String.intercalate separator rest) more) :
    Reads (String.intercalate separator (o.toList ++ rest)) (names ++ more) := by
  cases o with
  | none => simpa [hnames] using hrest
  | some text => exact Reads.intercalate_cons hfixed hbreak (ho text rfl) hrest

-- A name of identifier characters is read as it stands.
theorem reads_reference {name : String} (h : IsWord name) :
    Reads (Cypher.reference name) [name] := by
  intro rest hrest n
  have htake : (name.toList ++ rest).takeWhile isIdentifierRest = name.toList := by
    rw [List.takeWhile_append_of_pos h]
    cases rest with
    | nil => simp
    | cons c tail =>
        have hc := hrest c rfl
        simp [hc]
  have hfixed : Sealed name [] := sealed_of_isFixed (isFixed_of_isWord h)
  have htext : (Cypher.reference name).toList = '$' :: name.toList := by
    simp [Cypher.reference, String.toList_append]
  rw [htext, List.cons_append, referencesFrom, if_pos ⟨rfl, rfl⟩, htake, String.ofList_toList]
  have hplace : Place.bare.after '$' = .bare := by decide
  rw [hplace, List.mem_cons, hfixed, List.mem_singleton]
  simp

private theorem referencesFrom_escapeBackticks (s rest : List Char) :
    referencesFrom .quoted (Cypher.escapeBackticks s ++ '`' :: rest) =
      referencesFrom .bare rest := by
  induction s with
  | nil => simp [Cypher.escapeBackticks, referencesFrom, Place.after]
  | cons c tail ih =>
      by_cases hc : c = '`'
      · subst hc
        simp [Cypher.escapeBackticks, referencesFrom, Place.after, ih]
      · simp [Cypher.escapeBackticks, referencesFrom, Place.after, hc, ih]

theorem sealed_quoteIdentifier (name : String) : Sealed (Cypher.quoteIdentifier name) [] := by
  intro rest n
  simp [Cypher.quoteIdentifier, referencesFrom, Place.after, referencesFrom_escapeBackticks]

private theorem referencesFrom_escapeLiteral (s rest : List Char) :
    referencesFrom .literal (Cypher.escapeLiteral s ++ '"' :: rest) =
      referencesFrom .bare rest := by
  induction s with
  | nil => simp [Cypher.escapeLiteral, referencesFrom, Place.after]
  | cons c tail ih =>
      by_cases h₁ : c = '\\'
      · subst h₁
        simp [Cypher.escapeLiteral, referencesFrom, Place.after, ih]
      by_cases h₂ : c = '"'
      · subst h₂
        simp [Cypher.escapeLiteral, referencesFrom, Place.after, ih]
      by_cases h₃ : c = '\n'
      · subst h₃
        simp [Cypher.escapeLiteral, referencesFrom, Place.after, ih]
      by_cases h₄ : c = '\r'
      · subst h₄
        simp [Cypher.escapeLiteral, referencesFrom, Place.after, ih]
      by_cases h₅ : c = '\t'
      · subst h₅
        simp [Cypher.escapeLiteral, referencesFrom, Place.after, ih]
      simp [Cypher.escapeLiteral, referencesFrom, Place.after, h₁, h₂, ih]

theorem sealed_stringLiteral (text : String) : Sealed (Cypher.stringLiteral text) [] := by
  intro rest n
  simp [Cypher.stringLiteral, referencesFrom, Place.after, referencesFrom_escapeLiteral]

end CypherCompiler.Text
