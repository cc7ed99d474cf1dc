import CypherCompiler.Cypher.Quoting
import CypherCompiler.Proofs.Text.Word

namespace CypherCompiler.Syntax

open Text

-- What the text of a condition is made of. A name behind a dot is a key, whatever word it is.
inductive Token where
  | word (text : String)
  | sign (text : String)
  | quoted (name : String)
  | parameter (name : String)
  | key (name : String)
  deriving DecidableEq, Repr

inductive Bracket where
  | round
  | square
  | curly
  deriving DecidableEq, Repr

inductive Lexeme where
  | token (token : Token)
  | opens (bracket : Bracket)
  | closes (bracket : Bracket)
  deriving DecidableEq, Repr

-- The signs of which several together make one token.
def isSign (c : Char) : Bool :=
  c == '=' || c == '~' || c == '<' || c == '>' || c == '-'

-- Where a reader stands, with the characters of the token that it is in. After a backtick the
-- name may go on, if the next character is a backtick as well.
inductive Mode where
  | between
  | word (text : List Char)
  | sign (text : List Char)
  | parameter (name : List Char)
  | dot
  | key (name : List Char)
  | quoted (make : String → Token) (name : List Char)
  | closing (make : String → Token) (name : List Char)

namespace Mode

-- The token that ends where the reader stands.
def finish? : Mode → Option (List Lexeme)
  | between => some []
  | word text => some [.token (.word (String.ofList text))]
  | sign text => some [.token (.sign (String.ofList text))]
  | parameter name => some [.token (.parameter (String.ofList name))]
  | key name => some [.token (.key (String.ofList name))]
  | closing make name => some [.token (make (String.ofList name))]
  | dot | quoted .. => none

-- How the token goes on with a character, if it does.
def continue? : Mode → Char → Option Mode
  | between, _ => none
  | word text, c => if isIdentifierRest c then some (word (text ++ [c])) else none
  | sign text, c => if isSign c then some (sign (text ++ [c])) else none
  | parameter name, c => if isIdentifierRest c then some (parameter (name ++ [c])) else none
  | dot, c =>
    if c = '`' then some (quoted .key [])
    else if isIdentifierRest c then some (key [c]) else none
  | key name, c => if isIdentifierRest c then some (key (name ++ [c])) else none
  | quoted make name, c =>
    some (if c = '`' then closing make name else quoted make (name ++ [c]))
  | closing make name, c => if c = '`' then some (quoted make (name ++ ['`'])) else none

-- What a character stands for in front of a new token.
def start? (c : Char) : Option (List Lexeme × Mode) :=
  if isIdentifierRest c then some ([], word [c])
  else if isSign c then some ([], sign [c])
  else match c with
    | ' ' => some ([], between)
    | '`' => some ([], quoted .quoted [])
    | '$' => some ([], parameter [])
    | '.' => some ([], dot)
    | ':' | ',' | '|' => some ([.token (.sign (String.singleton c))], between)
    | '(' => some ([.opens .round], between)
    | ')' => some ([.closes .round], between)
    | '[' => some ([.opens .square], between)
    | ']' => some ([.closes .square], between)
    | '\x7b' => some ([.opens .curly], between)
    | '\x7d' => some ([.closes .curly], between)
    | _ => none

def step? (mode : Mode) (c : Char) : Option (List Lexeme × Mode) :=
  match mode.continue? c with
  | some next => some ([], next)
  | none => mode.finish?.bind fun before => (start? c).map fun p => (before ++ p.1, p.2)

def run? : Mode → List Char → Option (List Lexeme × Mode)
  | mode, [] => some ([], mode)
  | mode, c :: rest => do
    let (here, next) ← mode.step? c
    let (there, last) ← run? next rest
    return (here ++ there, last)

end Mode

def lexemes? (s : String) : Option (List Lexeme) := do
  let (before, last) ← Mode.run? .between s.toList
  return before ++ (← last.finish?)

-- Text that is complete in itself, whatever follows it.
def Sealed (s : String) (lexemes : List Lexeme) : Prop :=
  Mode.run? .between s.toList = some (lexemes, .between)

-- Text that consists of these lexemes if no token goes on after it.
def Reads (s : String) (lexemes : List Lexeme) : Prop :=
  ∃ before last after, Mode.run? .between s.toList = some (before, last) ∧
    last.finish? = some after ∧ lexemes = before ++ after

-- Text that ends the token before it.
def isBreak (s : String) : Bool :=
  match s.toList with
  | [] => false
  | c :: _ => !isIdentifierRest c && !isSign c && c != '`'

variable {s t : String} {lexemes more : List Lexeme}

theorem Reads.lexemes?_eq (h : Reads s lexemes) : lexemes? s = some lexemes := by
  obtain ⟨before, last, after, hrun, hfinish, rfl⟩ := h
  simp [lexemes?, hrun, hfinish]

theorem Sealed.reads (h : Sealed s lexemes) : Reads s lexemes :=
  ⟨lexemes, .between, [], h, rfl, (List.append_nil lexemes).symm⟩

namespace Mode

variable {mode next last : Mode} {here there after : List Lexeme} {c : Char} {cs ds : List Char}

theorem run?_cons_eq_some_iff :
    mode.run? (c :: cs) = some (lexemes, last) ↔ ∃ here next there,
      mode.step? c = some (here, next) ∧ next.run? cs = some (there, last) ∧
        lexemes = here ++ there := by
  simp only [run?, Option.bind_eq_bind, Option.pure_def, Option.bind_eq_some_iff,
    Option.some.injEq, Prod.mk.injEq]
  constructor
  · rintro ⟨⟨here, next⟩, hstep, ⟨there, _⟩, hrun, rfl, rfl⟩
    exact ⟨here, next, there, hstep, hrun, rfl⟩
  · rintro ⟨here, next, there, hstep, hrun, rfl⟩
    exact ⟨(here, next), hstep, (there, last), hrun, rfl, rfl⟩

theorem run?_append (h : mode.run? cs = some (here, next))
    (hrest : next.run? ds = some (there, last)) :
    mode.run? (cs ++ ds) = some (here ++ there, last) := by
  induction cs generalizing mode here with
  | nil =>
      cases h
      exact hrest
  | cons c cs ih =>
      obtain ⟨first, middle, more, hstep, hrun, rfl⟩ := run?_cons_eq_some_iff.mp h
      rw [List.cons_append, List.append_assoc]
      exact run?_cons_eq_some_iff.mpr ⟨first, middle, _, hstep, ih hrun, rfl⟩

-- A character that breaks a token is read as if the token had ended in front of it.
theorem step?_of_break (hfinish : mode.finish? = some after) (hword : isIdentifierRest c = false)
    (hsign : isSign c = false) (htick : c ≠ '`')
    (h : between.step? c = some (here, next)) : mode.step? c = some (after ++ here, next) := by
  have hnone : mode.continue? c = none := by
    cases mode with
    | dot | quoted => cases hfinish
    | _ => simp [continue?, hword, hsign, htick]
  have hstart : start? c = some (here, next) := by
    simpa [step?, continue?, finish?] using h
  simp [step?, hnone, hfinish, hstart]

theorem run?_of_break (hfinish : mode.finish? = some after) (hbreak : isBreak t = true)
    (h : between.run? t.toList = some (here, last)) :
    mode.run? t.toList = some (after ++ here, last) := by
  unfold isBreak at hbreak
  cases hchars : t.toList with
  | nil => simp [hchars] at hbreak
  | cons c rest =>
      simp only [hchars, Bool.and_eq_true, Bool.not_eq_true', bne_iff_ne, ne_eq] at hbreak
      obtain ⟨⟨hword, hsign⟩, htick⟩ := hbreak
      rw [hchars] at h
      obtain ⟨first, next, more, hstep, hrun, rfl⟩ := run?_cons_eq_some_iff.mp h
      rw [← List.append_assoc]
      exact run?_cons_eq_some_iff.mpr
        ⟨after ++ first, next, more, step?_of_break hfinish hword hsign htick hstep, hrun, rfl⟩

end Mode

theorem Sealed.append (h : Sealed s lexemes) (ht : Sealed t more) :
    Sealed (s ++ t) (lexemes ++ more) := by
  rw [Sealed, String.toList_append]
  exact Mode.run?_append h ht

theorem Sealed.append_reads (h : Sealed s lexemes) (ht : Reads t more) :
    Reads (s ++ t) (lexemes ++ more) := by
  obtain ⟨before, last, after, hrun, hfinish, rfl⟩ := ht
  refine ⟨lexemes ++ before, last, after, ?_, hfinish, by rw [List.append_assoc]⟩
  rw [String.toList_append]
  exact Mode.run?_append h hrun

-- A text in which a token may still go on is closed by a text that breaks it.
theorem Reads.append_sealed (h : Reads s lexemes) (hbreak : isBreak t = true)
    (ht : Sealed t more) : Sealed (s ++ t) (lexemes ++ more) := by
  obtain ⟨before, last, after, hrun, hfinish, rfl⟩ := h
  rw [Sealed, String.toList_append, List.append_assoc]
  exact Mode.run?_append hrun (Mode.run?_of_break hfinish hbreak ht)

theorem Reads.append (h : Reads s lexemes) (hbreak : isBreak t = true) (ht : Reads t more) :
    Reads (s ++ t) (lexemes ++ more) := by
  obtain ⟨before, last, after, hrun, hfinish, rfl⟩ := h
  obtain ⟨first, final, rest, hrest, hend, rfl⟩ := ht
  refine ⟨before ++ (after ++ first), final, rest, ?_, hend, by simp only [List.append_assoc]⟩
  rw [String.toList_append]
  exact Mode.run?_append hrun (Mode.run?_of_break hfinish hbreak hrest)

theorem isBreak_append (h : isBreak s = true) (t : String) : isBreak (s ++ t) = true := by
  unfold isBreak at h ⊢
  rw [String.toList_append]
  cases hchars : s.toList with
  | nil => simp [hchars] at h
  | cons c rest => simpa [hchars] using h

-- Characters of a name that stands between backticks.
private theorem run?_escapeBackticks (make : String → Token) (name cs : List Char) :
    Mode.run? (.quoted make name) (Cypher.escapeBackticks cs ++ ['`']) =
      some ([], .closing make (name ++ cs)) := by
  induction cs generalizing name with
  | nil => simp [Cypher.escapeBackticks, Mode.run?, Mode.step?, Mode.continue?]
  | cons c rest ih =>
      by_cases hc : c = '`'
      · subst hc
        simp [Cypher.escapeBackticks, Mode.run?, Mode.step?, Mode.continue?, ih]
      · simp [Cypher.escapeBackticks, Mode.run?, Mode.step?, Mode.continue?, hc, ih]

theorem reads_quoteIdentifier (name : String) :
    Reads (Cypher.quoteIdentifier name) [.token (.quoted name)] := by
  refine ⟨[], .closing .quoted name.toList, [.token (.quoted name)], ?_, ?_, rfl⟩
  · have hrun := run?_escapeBackticks .quoted [] name.toList
    rw [List.nil_append] at hrun
    simp only [Cypher.quoteIdentifier, String.toList_ofList, List.cons_append]
    exact Mode.run?_cons_eq_some_iff.mpr ⟨[], _, [], rfl, hrun, rfl⟩
  · simp [Mode.finish?]

-- A token of identifier characters runs to the end of a word.
private theorem run?_isWord {extend : List Char → Mode}
    (hextend : ∀ text c, isIdentifierRest c = true →
      (extend text).step? c = some ([], extend (text ++ [c]))) (text : List Char) {cs : List Char}
    (h : ∀ c ∈ cs, isIdentifierRest c = true) :
    (extend text).run? cs = some ([], extend (text ++ cs)) := by
  induction cs generalizing text with
  | nil => simp [Mode.run?]
  | cons c rest ih =>
      obtain ⟨hc, hrest⟩ := List.forall_mem_cons.mp h
      have hrun := ih (text ++ [c]) hrest
      rw [List.append_assoc] at hrun
      exact Mode.run?_cons_eq_some_iff.mpr ⟨[], _, [], hextend text c hc, hrun, rfl⟩

theorem reads_reference {name : String} (h : IsWord name) :
    Reads (Cypher.reference name) [.token (.parameter name)] := by
  refine ⟨[], .parameter name.toList, [.token (.parameter name)], ?_, ?_, rfl⟩
  · have hrun : (Mode.parameter []).run? name.toList = some ([], .parameter name.toList) :=
      run?_isWord (fun text c hc => by simp [Mode.step?, Mode.continue?, hc]) [] h
    rw [Cypher.reference, String.toList_append]
    exact Mode.run?_cons_eq_some_iff.mpr ⟨[], .parameter [], [], rfl, hrun, rfl⟩
  · simp [Mode.finish?]

-- A key is what it names, with quotes or without.
theorem reads_propertyKey (field : String) :
    Reads ("." ++ Cypher.propertyKey field) [.token (.key field)] := by
  rw [Reads, String.toList_append, Cypher.propertyKey]
  split
  · rename_i hplain
    refine ⟨[], .key field.toList, [.token (.key field)], ?_, by simp [Mode.finish?], rfl⟩
    have hword := isWord_of_isPlainIdentifier hplain
    cases hchars : field.toList with
    | nil => simp [isPlainIdentifier, hchars] at hplain
    | cons c rest =>
        rw [IsWord, hchars] at hword
        obtain ⟨hc, hrest⟩ := List.forall_mem_cons.mp hword
        have hrun : (Mode.key [c]).run? rest = some ([], .key (c :: rest)) :=
          run?_isWord (fun text c hc => by simp [Mode.step?, Mode.continue?, hc]) [c] hrest
        have htick : c ≠ '`' := by
          rintro rfl
          exact absurd hc (by decide)
        have hstep : Mode.dot.step? c = some ([], .key [c]) := by
          simp [Mode.step?, Mode.continue?, htick, hc]
        exact Mode.run?_cons_eq_some_iff.mpr ⟨[], .dot, [], rfl,
          Mode.run?_cons_eq_some_iff.mpr ⟨[], _, [], hstep, hrun, rfl⟩, rfl⟩
  · refine ⟨[], .closing .key field.toList, [.token (.key field)], ?_, by simp [Mode.finish?], rfl⟩
    have hrun := run?_escapeBackticks .key [] field.toList
    rw [List.nil_append] at hrun
    simp only [Cypher.quoteIdentifier, String.toList_ofList, List.cons_append]
    exact Mode.run?_cons_eq_some_iff.mpr ⟨[], .dot, [], rfl,
      Mode.run?_cons_eq_some_iff.mpr ⟨[], _, [], rfl, hrun, rfl⟩, rfl⟩

end CypherCompiler.Syntax
