import CypherCompiler.Name.ParameterPath
import CypherCompiler.Proofs.Name.Fresh
import CypherCompiler.Text.Affix

namespace CypherCompiler

namespace Text

theorem splitAt_eq_splitOn (separator : Char) (s : List Char) :
    splitAt separator s = s.splitOn separator := by
  induction s with
  | nil => rfl
  | cons c rest ih =>
      rw [splitAt, ih, List.splitOn, List.splitOn, List.splitOnP_cons_eq_if_modifyHead]
      by_cases hc : c = separator
      · simp [hc]
      · cases hrest : rest.splitOnP (· == separator) with
        | nil => exact (List.splitOn_ne_nil separator rest hrest).elim
        | cons piece pieces => simp [hc]

theorem pieces_ne_nil (s : String) (separator : Char) : pieces s separator ≠ [] := by
  rw [pieces, splitAt_eq_splitOn, ne_eq, List.map_eq_nil_iff]
  exact List.splitOn_ne_nil separator s.toList

-- What stands between the underscores of a name.
def tokens (s : String) : List String := pieces s '_'

theorem tokens_ne_nil (s : String) : tokens s ≠ [] := pieces_ne_nil s '_'

theorem tokens_join (s t : String) : tokens (s ++ "_" ++ t) = tokens s ++ tokens t := by
  have hchars : (s ++ "_" ++ t).toList = s.toList ++ '_' :: t.toList := by simp
  rw [tokens, tokens, tokens, pieces, pieces, pieces, ← List.map_append, hchars]
  simp only [splitAt_eq_splitOn, List.splitOn]
  rw [List.splitOnP_append_cons s.toList t.toList (by simp)]

-- Nothing is lost between the tokens of a name and the name.
theorem tokens_injective {s t : String} (h : tokens s = tokens t) : s = t := by
  have hpieces : s.toList.splitOn '_' = t.toList.splitOn '_' := by
    rw [← splitAt_eq_splitOn, ← splitAt_eq_splitOn]
    exact (List.map_inj_right fun _ _ => String.ofList_inj.mp).mp h
  have hjoin : ∀ cs : List Char, ['_'].intercalate (cs.splitOn '_') = cs :=
    fun _ => List.intercalate_splitOn '_'
  apply String.toList_injective
  rw [← hjoin s.toList, hpieces, hjoin]

-- A name that is one token.
def IsSimple (s : String) : Prop := s ≠ "" ∧ '_' ∉ s.toList

instance (s : String) : Decidable (IsSimple s) :=
  inferInstanceAs (Decidable (_ ∧ _))

theorem IsSimple.tokens_eq {s : String} (h : IsSimple s) : tokens s = [s] := by
  rw [tokens, pieces, splitAt_eq_splitOn, List.splitOn_eq_singleton h.2]
  simp

theorem isSimple_toString (n : Nat) : IsSimple (toString n) := by
  have hdigit : ∀ c ∈ (toString n).toList, c.isDigit = true := by
    intro c hc
    apply Nat.isDigit_of_mem_toDigits (b := 10) (n := n) (by omega) (by omega)
    simpa [toString, Nat.toList_repr] using hc
  constructor
  · intro h
    have hempty := congrArg String.toList h
    simp [toString, Nat.toList_repr] at hempty
  · intro h
    exact absurd (hdigit '_' h) (by decide)

end Text

open Text

theorem Alias.tokens_child (parent key : String) :
    tokens (Alias.child parent key) = tokens parent ++ tokens key :=
  tokens_join parent key

-- A fresh name may go on where its base ends.
theorem AliasRegistry.tokens_prefix_fresh (r : AliasRegistry) (base : String) :
    tokens base <+: tokens (r.fresh base) := by
  obtain ⟨n, -, hn, -, -⟩ := r.exists_candidate_eq_fresh base
  rw [hn]
  cases n with
  | zero => exact List.prefix_rfl
  | succ n =>
      rw [candidate, tokens_join]
      exact List.prefix_append _ _

namespace ParameterPath

def tokens (p : ParameterPath) : List String := p.segments.flatMap Text.tokens

@[simp]
theorem tokens_root : root.tokens = [] := rfl

@[simp]
theorem tokens_below (node : String) : (below node).tokens = Text.tokens node := by
  simp [below, tokens]

@[simp]
theorem tokens_child (p : ParameterPath) (segment : String) :
    (p.child segment).tokens = p.tokens ++ Text.tokens segment := by
  simp [child, tokens]

@[simp]
theorem tokens_indexed (p : ParameterPath) (segment : String) (index : Nat) :
    (p.indexed segment index).tokens = p.tokens ++ Text.tokens segment ++ [toString index] := by
  rw [indexed, tokens_child, tokens_join, (isSimple_toString index).tokens_eq, List.append_assoc]

-- The name of a path has the tokens of its segments.
theorem tokens_name {p : ParameterPath} (h : p.segments ≠ []) :
    Text.tokens p.name = p.tokens := by
  unfold name tokens
  generalize p.segments = segments at h
  induction segments with
  | nil => exact (h rfl).elim
  | cons s rest ih =>
      cases rest with
      | nil => simp
      | cons t more =>
          rw [String.intercalate_cons_cons, tokens_join, ih (by simp), List.flatMap_cons,
            List.flatMap_cons, List.flatMap_cons]

theorem tokens_name_child (p : ParameterPath) (segment : String) :
    Text.tokens (p.child segment).name = p.tokens ++ Text.tokens segment := by
  rw [tokens_name (by simp [child]), tokens_child]

end ParameterPath

end CypherCompiler
