import CypherCompiler.Filter.Key
import CypherCompiler.Name.Alias
import CypherCompiler.Name.ParameterPath
import CypherCompiler.Proofs.Name.Fresh
import CypherCompiler.Text.Identifier

namespace CypherCompiler

namespace Text

-- Text of identifier characters only, which a reader takes as one name.
def IsWord (s : String) : Prop := ∀ c ∈ s.toList, isIdentifierRest c = true

-- Words that a program writes down are words by computation.
theorem isWord_of_all {s : String} (h : s.toList.all isIdentifierRest = true) : IsWord s :=
  List.all_eq_true.mp h

theorem IsWord.append {s t : String} (hs : IsWord s) (ht : IsWord t) : IsWord (s ++ t) := by
  intro c hc
  rw [String.toList_append, List.mem_append] at hc
  cases hc with
  | inl hc => exact hs c hc
  | inr hc => exact ht c hc

theorem isWord_toString (n : Nat) : IsWord (toString n) := by
  intro c hc
  have hdigit : c.isDigit = true := by
    apply Nat.isDigit_of_mem_toDigits (b := 10) (n := n) (by omega) (by omega)
    simpa [toString, Nat.toList_repr] using hc
  simp [isIdentifierRest, Char.isAlphanum, hdigit]

private theorem isIdentifierRest_of_start {c : Char} (h : isIdentifierStart c = true) :
    isIdentifierRest c = true := by
  simp only [isIdentifierStart, isIdentifierRest, Char.isAlphanum, Bool.or_eq_true] at h ⊢
  cases h with
  | inl h => exact .inl (.inl h)
  | inr h => exact .inr h

theorem isWord_of_isPlainIdentifier {s : String} (h : isPlainIdentifier s = true) : IsWord s := by
  intro d hd
  unfold isPlainIdentifier at h
  cases hs : s.toList with
  | nil => simp [hs] at hd
  | cons c rest =>
      simp only [hs, Bool.and_eq_true, List.all_eq_true] at h
      rw [hs, List.mem_cons] at hd
      cases hd with
      | inl hd => exact hd ▸ isIdentifierRest_of_start h.1
      | inr hd => exact h.2 d hd

-- Names that a reader takes to their end.
def AreWords (names : List String) : Prop := ∀ n ∈ names, IsWord n

theorem areWords_append {names more : List String} :
    AreWords (names ++ more) ↔ AreWords names ∧ AreWords more := by
  simp only [AreWords, List.mem_append]
  constructor
  · intro h
    exact ⟨fun n hn => h n (.inl hn), fun n hn => h n (.inr hn)⟩
  · rintro ⟨hnames, hmore⟩ n (hn | hn)
    · exact hnames n hn
    · exact hmore n hn

theorem areWords_flatMap {α : Type} {as : List α} {names : α → List String} :
    AreWords (as.flatMap names) ↔ ∀ a ∈ as, AreWords (names a) := by
  simp only [AreWords, List.mem_flatMap]
  constructor
  · intro h a ha n hn
    exact h n ⟨a, ha, hn⟩
  · rintro h n ⟨a, ha, hn⟩
    exact h a ha n hn

theorem eq_append_of_beforeSuffix? {s ending name : String}
    (h : beforeSuffix? s ending = some name) : s = name ++ ending := by
  unfold beforeSuffix? at h
  split at h
  · rename_i hsuffix
    obtain ⟨start, hstart⟩ := List.isSuffixOf_iff_suffix.mp hsuffix
    apply String.toList_injective
    rw [← Option.some.inj h, String.toList_append, String.toList_ofList, ← hstart]
    simp
  · cases h

theorem beforeSuffix?_append (name ending : String) :
    beforeSuffix? (name ++ ending) ending = some name := by
  simp [beforeSuffix?]

-- A name with an ending is a word if the name without it is.
theorem isWord_of_beforeSuffix? {s ending name : String} (hending : IsWord ending)
    (h : beforeSuffix? s ending = some name) (hname : IsWord name) : IsWord s :=
  eq_append_of_beforeSuffix? h ▸ hname.append hending

-- Identifiers start with letters of the first code points, whose lower case is one of them.
private theorem lowercase_start :
    ∀ n < 128, isIdentifierStart (Char.ofNat n) = true →
      isPlainIdentifier (String.ofList (lowercase (Char.ofNat n))) = true := by
  decide +kernel

private theorem toNat_lt_of_start {c : Char} (h : isIdentifierStart c = true) :
    c.toNat < 128 := by
  have hletter : (decide (c.val ≥ 'A'.val ∧ c.val ≤ 'Z'.val) ||
      (c.val ≥ 'a'.val && c.val ≤ 'z'.val) || c == '_') = true := h
  simp only [Bool.or_eq_true, Bool.and_eq_true, decide_eq_true_eq, beq_iff_eq] at hletter
  rcases hletter with (⟨-, h⟩ | ⟨-, h⟩) | rfl
  · have hz := UInt32.le_iff_toNat_le.mp h
    have : ('Z'.val).toNat = 90 := rfl
    change c.val.toNat < 128
    omega
  · have hz := UInt32.le_iff_toNat_le.mp h
    have : ('z'.val).toNat = 122 := rfl
    change c.val.toNat < 128
    omega
  · decide

theorem isPlainIdentifier_lowercase {c : Char} (h : isIdentifierStart c = true) :
    isPlainIdentifier (String.ofList (lowercase c)) = true := by
  have hplain := lowercase_start c.toNat (toNat_lt_of_start h) (by rwa [Char.ofNat_toNat])
  rwa [Char.ofNat_toNat] at hplain

theorem isPlainIdentifier_append {s t : String} (hs : isPlainIdentifier s = true)
    (ht : IsWord t) : isPlainIdentifier (s ++ t) = true := by
  unfold isPlainIdentifier at hs ⊢
  cases hfirst : s.toList with
  | nil => simp [hfirst] at hs
  | cons c rest =>
      simp only [hfirst, Bool.and_eq_true] at hs
      rw [String.toList_append, hfirst, List.cons_append]
      simp only [Bool.and_eq_true, List.all_append]
      exact ⟨hs.1, hs.2, List.all_eq_true.mpr ht⟩

end Text

open Text

theorem Alias.isPlainIdentifier_root {typeName : String} (h : isPlainIdentifier typeName = true) :
    isPlainIdentifier (Alias.root typeName) = true := by
  have hword := isWord_of_isPlainIdentifier h
  unfold Alias.root
  unfold isPlainIdentifier at h
  cases hs : typeName.toList with
  | nil => simp [hs] at h
  | cons c rest =>
      simp only [hs, Bool.and_eq_true] at h
      simp only [String.ofList_append]
      apply isPlainIdentifier_append (isPlainIdentifier_lowercase h.1)
      intro d hd
      rw [String.toList_ofList] at hd
      exact hword d (by rw [hs]; exact List.mem_cons_of_mem c hd)

theorem Alias.isWord_root {typeName : String} (h : isPlainIdentifier typeName = true) :
    IsWord (Alias.root typeName) :=
  isWord_of_isPlainIdentifier (Alias.isPlainIdentifier_root h)

theorem Alias.isWord_child {parent key : String} (hparent : IsWord parent) (hkey : IsWord key) :
    IsWord (Alias.child parent key) :=
  (hparent.append (isWord_of_all (by decide))).append hkey

theorem AliasRegistry.isWord_fresh {base : String} (h : IsWord base) (r : AliasRegistry) :
    IsWord (r.fresh base) := by
  obtain ⟨n, -, hn, -, -⟩ := r.exists_candidate_eq_fresh base
  rw [hn]
  cases n with
  | zero => exact h
  | succ n => exact (h.append (isWord_of_all (by decide))).append (isWord_toString _)

namespace ParameterPath

-- Paths whose parameters are read to their end.
def IsPlain (p : ParameterPath) : Prop := ∀ segment ∈ p.segments, IsWord segment

theorem isPlain_root : root.IsPlain := by
  simp [IsPlain, root]

theorem isPlain_below {node : String} (h : IsWord node) : (below node).IsPlain := by
  simpa [IsPlain, below] using h

theorem IsPlain.child {p : ParameterPath} {segment : String} (hp : p.IsPlain)
    (hsegment : IsWord segment) : (p.child segment).IsPlain := by
  intro s hs
  simp only [ParameterPath.child, List.mem_append, List.mem_singleton] at hs
  cases hs with
  | inl hs => exact hp s hs
  | inr hs => exact hs ▸ hsegment

theorem IsPlain.indexed {p : ParameterPath} {segment : String} (hp : p.IsPlain)
    (hsegment : IsWord segment) (index : Nat) : (p.indexed segment index).IsPlain :=
  hp.child ((hsegment.append (isWord_of_all (by decide))).append (isWord_toString index))

theorem IsPlain.isWord_name {p : ParameterPath} (hp : p.IsPlain) : IsWord p.name := by
  unfold name
  unfold IsPlain at hp
  generalize p.segments = segments at hp ⊢
  induction segments with
  | nil => simp [IsWord]
  | cons s rest ih =>
      have hs := hp s List.mem_cons_self
      have hrest := ih fun t ht => hp t (List.mem_cons_of_mem s ht)
      cases rest with
      | nil => simpa using hs
      | cons t more =>
          rw [String.intercalate_cons_cons]
          exact (hs.append (isWord_of_all (by decide))).append hrest

end ParameterPath

end CypherCompiler
