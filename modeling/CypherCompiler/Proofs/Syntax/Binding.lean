import CypherCompiler.Proofs.Syntax.Written
import Mathlib.Data.List.Forall2

namespace CypherCompiler.Syntax

open Cypher

@[simp]
theorem Tree.part_tree (t : Tree) : t.part.tree = t := by
  cases t <;> rw [Tree.part]

theorem partsOf_eq_map (ts : List Tree) : partsOf ts = ts.map Tree.part := by
  induction ts with
  | nil => rfl
  | cons t rest ih => rw [partsOf, ih, List.map_cons]

@[simp]
theorem partsOf_append (ts us : List Tree) : partsOf (ts ++ us) = partsOf ts ++ partsOf us := by
  simp only [partsOf_eq_map, List.map_append]

@[simp]
theorem map_tree_partsOf (ts : List Tree) : (partsOf ts).map Part.tree = ts := by
  simp [partsOf_eq_map, Function.comp_def]

theorem is_of_mem_partsOf {token : Token} {ts : List Tree} (h : ∀ t ∈ ts, t.is token = false) :
    ∀ p ∈ partsOf ts, p.tree.is token = false := by
  simpa [partsOf_eq_map] using h

-- The words that join conditions.
def Tree.joins (t : Tree) : Bool :=
  t.is (.word "AND") || t.is (.word "OR")

-- The text is a condition.
def Denotes (s : String) (f : Formula) : Prop :=
  ∃ trees, Reads s (lexemesOf trees) ∧ formula? (partsOf trees) = some f

-- The text is a condition that binds closer than the words that join conditions. All that is
-- rendered of a condition does, so a negation in front of it reaches over the whole of it.
def Binds (s : String) (f : Formula) : Prop :=
  ∃ trees, Reads s (lexemesOf trees) ∧ (∀ t ∈ trees, t.joins = false) ∧
    negation? (partsOf trees) = some f

-- The text is the body of a nested query.
def Queries (s : String) (hop : Hop) (f : Formula) : Prop :=
  ∃ trees, Sealed s (lexemesOf [.group .curly trees]) ∧ query? (partsOf trees) = some (hop, f)

variable {s : String} {f : Formula} {hop : Hop}

theorem Denotes.parse?_eq (h : Denotes s f) : parse? s = some f := by
  obtain ⟨trees, hreads, hformula⟩ := h
  rw [parse?, trees?_eq hreads, Option.bind_some, hformula]

-- Conjunctions need no parentheses in an alternative, and comparisons none under a negation.
example : parse? "`m`.a = $p OR NOT `m`.b IN $q AND (`m`.c IS NOT NULL OR false)" =
    some (.or (.atom (.compare (.subject (.property "m" "a")) .equals (.parameter "p")))
      (.and (.not (.atom (.compare (.subject (.property "m" "b")) .isIn (.parameter "q"))))
        (.or (.not (.atom (.isNull (.property "m" "c")))) (.truth false)))) := by
  decide +kernel

-- Without its connective a chain is a single piece.
theorem chain?_of_forall {join : Formula → Formula → Formula}
    {read : List Part → Option Formula} {connective : String} {parts : List Part}
    (h : ∀ p ∈ parts, p.tree.is (.word connective) = false) :
    chain? join read connective parts = read parts := by
  rw [chain?, List.splitOnP_eq_singleton h]
  cases hread : read parts <;> simp [hread, chain]

theorem conjunction?_of_forall {trees : List Tree} (h : ∀ t ∈ trees, t.joins = false) :
    conjunction? (partsOf trees) = negation? (partsOf trees) := by
  simp only [Tree.joins, Bool.or_eq_false_iff] at h
  exact chain?_of_forall (is_of_mem_partsOf fun t ht => (h t ht).1)

theorem Binds.denotes (h : Binds s f) : Denotes s f := by
  obtain ⟨trees, hreads, hjoins, hformula⟩ := h
  refine ⟨trees, hreads, ?_⟩
  rw [← hformula, ← conjunction?_of_forall hjoins]
  simp only [Tree.joins, Bool.or_eq_false_iff] at hjoins
  exact chain?_of_forall (is_of_mem_partsOf fun t ht => (hjoins t ht).2)

theorem Binds.not (h : Binds s f) : Binds ("NOT " ++ s) (.not f) := by
  obtain ⟨trees, hreads, hjoins, hformula⟩ := h
  have hnot : Sealed "NOT " [.token (.word "NOT")] := rfl
  refine ⟨.leaf (.word "NOT") :: trees, hnot.append_reads hreads, ?_, ?_⟩
  · exact List.forall_mem_cons.mpr ⟨rfl, hjoins⟩
  · simp [partsOf, Tree.part, negation?, hformula]

theorem Denotes.parenthesized (h : Denotes s f) : Binds (Condition.parenthesized s) f := by
  obtain ⟨trees, hreads, hformula⟩ := h
  have hopen : Sealed "(" [.opens .round] := rfl
  have hclose : Sealed ")" [.closes .round] := rfl
  refine ⟨[.group .round trees], ?_, by simp [Tree.joins], ?_⟩
  · simpa [Condition.parenthesized] using
      ((hopen.append_reads hreads).append_sealed rfl hclose).reads
  · simp [partsOf, Tree.part, negation?, hformula, primary?]

-- Texts that are joined by a connective and hold no other one outside of brackets. The pieces
-- between its occurrences are read as the formulas.
def Joins (connective : String) (read : List Part → Option Formula) (s : String)
    (fs : List Formula) : Prop :=
  ∃ trees, Reads s (lexemesOf trees) ∧
    (∀ t ∈ trees, t.joins = true → t = .leaf (.word connective)) ∧
    ((partsOf trees).splitOnP (·.tree.is (.word connective))).mapM read = some fs

-- A text that binds closer than the connectives stays one piece wherever it is joined to others.
theorem Binds.joins_intercalate {connective separator : String}
    {read : List Part → Option Formula}
    (hseparator : Sealed separator [.token (.word connective)])
    (hbreak : isBreak separator = true)
    (hconnective : (Tree.leaf (.word connective)).joins = true)
    (hread : ∀ trees : List Tree, (∀ t ∈ trees, t.joins = false) →
      read (partsOf trees) = negation? (partsOf trees))
    {first : String} {texts : List String} {g : Formula} {fs : List Formula}
    (h : Binds first g) (hrest : List.Forall₂ Binds texts fs) :
    Joins connective read (String.intercalate separator (first :: texts)) (g :: fs) := by
  have hpiece : ∀ trees : List Tree, (∀ t ∈ trees, t.joins = false) →
      ∀ p ∈ partsOf trees, p.tree.is (.word connective) = false := by
    intro trees hjoins
    refine is_of_mem_partsOf fun t ht => Bool.eq_false_iff.mpr fun hword => ?_
    have hjoin := hjoins t ht
    rw [Tree.is_iff.mp hword, hconnective] at hjoin
    cases hjoin
  induction hrest generalizing first g with
  | nil =>
      obtain ⟨trees, hreads, hjoins, hformula⟩ := h
      refine ⟨trees, by rwa [String.intercalate_singleton], ?_, ?_⟩
      · intro t ht hword
        rw [hjoins t ht] at hword
        cases hword
      · rw [List.splitOnP_eq_singleton (hpiece trees hjoins), List.mapM_cons, hread trees hjoins,
          hformula]
        rfl
  | @cons next k texts fs hnext _ ih =>
      obtain ⟨trees, hreads, hjoins, hformula⟩ := h
      obtain ⟨more, hmore, honly, hpieces⟩ := ih hnext
      refine ⟨trees ++ .leaf (.word connective) :: more, ?_, ?_, ?_⟩
      · rw [String.intercalate_cons_cons]
        simpa using (hreads.append_sealed hbreak hseparator).append_reads hmore
      · intro t ht hword
        rw [List.mem_append, List.mem_cons] at ht
        obtain ht | rfl | ht := ht
        · rw [hjoins t ht] at hword
          cases hword
        · rfl
        · exact honly t ht hword
      · rw [partsOf_append, partsOf, List.splitOnP_append_cons_of_forall_mem
          (hpiece trees hjoins) _ (by simp), List.mapM_cons, hread trees hjoins, hformula,
          hpieces]
        rfl

theorem Binds.denotes_all {first : String} {texts : List String} {g : Formula} {fs : List Formula}
    (h : Binds first g) (hrest : List.Forall₂ Binds texts fs) :
    Denotes (String.intercalate " AND " (first :: texts)) (chain .and g fs) := by
  have hand : Sealed " AND " [.token (.word "AND")] := rfl
  obtain ⟨trees, hreads, honly, hpieces⟩ :=
    h.joins_intercalate hand rfl rfl (fun trees _ => Eq.refl (negation? (partsOf trees))) hrest
  refine ⟨trees, hreads, ?_⟩
  have hnever : ∀ t ∈ trees, t.is (.word "OR") = false := by
    intro t ht
    refine Bool.eq_false_iff.mpr fun hword => ?_
    rw [Tree.is_iff] at hword
    have hother := honly t ht (by rw [hword]; rfl)
    simp [hword] at hother
  rw [formula?, chain?_of_forall (is_of_mem_partsOf hnever), conjunction?, chain?, hpieces]
  rfl

theorem Binds.denotes_any {first : String} {texts : List String} {g : Formula} {fs : List Formula}
    (h : Binds first g) (hrest : List.Forall₂ Binds texts fs) :
    Denotes (String.intercalate " OR " (first :: texts)) (chain .or g fs) := by
  have hor : Sealed " OR " [.token (.word "OR")] := rfl
  obtain ⟨trees, hreads, -, hpieces⟩ :=
    h.joins_intercalate hor rfl rfl (fun _ => conjunction?_of_forall) hrest
  refine ⟨trees, hreads, ?_⟩
  rw [formula?, chain?, hpieces]
  rfl

-- The pattern of a nested query ends where its condition starts.
theorem hop_ne_where (hop : Hop) : ∀ p ∈ partsOf (hopTrees hop),
    (!p.tree.is (.word "WHERE")) = true := by
  obtain ⟨parent, ⟨name, direction, target⟩, child⟩ := hop
  cases direction <;> simp [hopTrees, partsOf]

theorem query?_hop (hop : Hop) :
    query? (partsOf (.leaf (.word "MATCH") :: hopTrees hop)) = some (hop, .truth true) := by
  obtain ⟨parent, ⟨name, direction, target⟩, child⟩ := hop
  cases direction <;> rfl

theorem query?_hop_where (hop : Hop) {trees : List Tree} (h : formula? (partsOf trees) = some f) :
    query? (partsOf (.leaf (.word "MATCH") :: (hopTrees hop ++ .leaf (.word "WHERE") :: trees))) =
      some (hop, f) := by
  simp [partsOf, query?, List.takeWhile_append_of_pos (hop_ne_where hop),
    List.dropWhile_append_of_pos (hop_ne_where hop), hop?_trees, h]

theorem queries_hop (hop : Hop) : Queries (Condition.matching hop none) hop (.truth true) := by
  have hopen : Sealed "\x7b" [.opens .curly] := rfl
  have hmatch : Sealed " MATCH " [.token (.word "MATCH")] := rfl
  have hclose : Sealed " \x7d" [.closes .curly] := rfl
  refine ⟨_, ?_, query?_hop hop⟩
  simpa [Condition.matching, braced, String.append_assoc] using
    hopen.append (hmatch.append ((sealed_hop hop).append hclose))

theorem Denotes.queries (h : Denotes s f) (hop : Hop) :
    Queries (Condition.matching hop (some s)) hop f := by
  obtain ⟨trees, hreads, hformula⟩ := h
  have hopen : Sealed "\x7b" [.opens .curly] := rfl
  have hmatch : Sealed " MATCH " [.token (.word "MATCH")] := rfl
  have hwhere : Sealed " WHERE " [.token (.word "WHERE")] := rfl
  have hclose : Sealed " \x7d" [.closes .curly] := rfl
  have hcondition := hwhere.append (hreads.append_sealed rfl hclose)
  refine ⟨_, ?_, query?_hop_where hop hformula⟩
  simpa [Condition.matching, braced, String.append_assoc] using
    hopen.append (hmatch.append ((sealed_hop hop).append hcondition))

theorem Queries.binds_exists (h : Queries s hop f) : Binds ("EXISTS " ++ s) (.someMatch hop f) := by
  obtain ⟨trees, hsealed, hquery⟩ := h
  have hexists : Sealed "EXISTS " [.token (.word "EXISTS")] := rfl
  refine ⟨[.leaf (.word "EXISTS"), .group .curly trees], ?_, by simp [Tree.joins], ?_⟩
  · simpa using (hexists.append hsealed).reads
  · simp [partsOf, Tree.part, negation?, hquery, primary?]

theorem Queries.binds_count (h : Queries s hop f) :
    Binds ("COUNT " ++ s ++ " = 1") (.oneMatch hop f) := by
  obtain ⟨trees, hsealed, hquery⟩ := h
  have hcount : Sealed "COUNT " [.token (.word "COUNT")] := rfl
  have hone : Reads " = 1" [.token (.sign "="), .token (.word "1")] :=
    ⟨_, .word ['1'], _, rfl, rfl, rfl⟩
  refine ⟨[.leaf (.word "COUNT"), .group .curly trees, .leaf (.sign "="), .leaf (.word "1")], ?_,
    by simp [Tree.joins], ?_⟩
  · simpa using (hcount.append hsealed).append_reads hone
  · simp [partsOf, Tree.part, negation?, hquery, primary?]

-- No left side of a comparison is taken for the start of anything else.
theorem negation?_left (left : Left) (rest : List Tree) :
    negation? (partsOf (left.trees ++ rest)) = atom? (left.trees ++ rest) := by
  rcases left with ⟨node, key⟩ | node | ⟨s, parameter⟩ <;>
    simp [Left.trees, Subject.trees, partsOf, Tree.part, negation?, primary?]

end CypherCompiler.Syntax
