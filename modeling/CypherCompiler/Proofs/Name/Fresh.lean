import CypherCompiler.Name.Alias

namespace CypherCompiler

theorem toString_injective {m n : Nat} (h : toString m = toString n) : m = n := by
  have hdigits : Nat.toDigits 10 m = Nat.toDigits 10 n := by
    have hlist := congrArg String.toList h
    simpa [toString, Nat.toList_repr] using hlist
  rw [← Nat.ofDigitChars_ten_toDigits (n := m), hdigits, Nat.ofDigitChars_ten_toDigits]

namespace AliasRegistry

theorem mem_reserve {r : AliasRegistry} {name other : String} :
    other ∈ (r.reserve name).taken ↔ other = name ∨ other ∈ r.taken := by
  simp [reserve]

theorem taken_subset_reserve (r : AliasRegistry) (name : String) :
    r.taken ⊆ (r.reserve name).taken :=
  fun _ h => mem_reserve.mpr (.inr h)

-- Every candidate is another name.
theorem candidate_injective {base : String} {m n : Nat}
    (h : candidate base m = candidate base n) : m = n := by
  have hlonger : ∀ k : Nat, base ≠ base ++ "_" ++ toString k := by
    intro k hk
    have hlength := congrArg String.length hk
    simp only [String.length_append] at hlength
    have hone : "_".length = 1 := rfl
    omega
  cases m with
  | zero =>
      cases n with
      | zero => rfl
      | succ n => exact (hlonger _ h).elim
  | succ m =>
      cases n with
      | zero => exact (hlonger _ h.symm).elim
      | succ n =>
          have hindex : toString (m + 2) = toString (n + 2) := by
            simpa [candidate, String.append_assoc] using h
          have := toString_injective hindex
          omega

-- One candidate more than there are names cannot all be taken.
theorem exists_candidate_not_mem (r : AliasRegistry) (base : String) :
    ∃ n ≤ r.taken.length, candidate base n ∉ r.taken := by
  by_cases hall : ∀ n < r.taken.length + 1, candidate base n ∈ r.taken
  · have hnodup : ((List.range (r.taken.length + 1)).map (candidate base)).Nodup := by
      rw [List.Nodup, List.pairwise_map]
      exact List.nodup_range.imp fun hne h => hne (candidate_injective h)
    have hsubset : (List.range (r.taken.length + 1)).map (candidate base) ⊆ r.taken := by
      intro name hname
      obtain ⟨n, hn, rfl⟩ := List.mem_map.mp hname
      exact hall n (List.mem_range.mp hn)
    have hlength := hnodup.length_le_of_subset hsubset
    simp only [List.length_map, List.length_range] at hlength
    omega
  · simp only [Classical.not_forall] at hall
    obtain ⟨n, hn, hfree⟩ := hall
    exact ⟨n, by omega, hfree⟩

-- A claim takes the first candidate that is free.
theorem exists_candidate_eq_fresh (r : AliasRegistry) (base : String) :
    ∃ n ≤ r.taken.length, r.fresh base = candidate base n ∧ candidate base n ∉ r.taken ∧
      ∀ m < n, candidate base m ∈ r.taken := by
  unfold fresh
  rw [List.find?_map]
  cases hfind : (List.range (r.taken.length + 1)).find?
      ((fun name => !r.contains name) ∘ candidate base) with
  | none =>
      obtain ⟨n, hn, hfree⟩ := r.exists_candidate_not_mem base
      have htaken := List.find?_range_eq_none.mp hfind n (by omega)
      simp [contains, hfree] at htaken
  | some n =>
      obtain ⟨hfree, hn, hbefore⟩ := List.find?_range_eq_some.mp hfind
      rw [List.mem_range] at hn
      refine ⟨n, by omega, rfl, by simpa [contains] using hfree, fun m hm => ?_⟩
      simpa [contains] using hbefore m hm

-- A new name is one that no part of the statement has yet.
theorem fresh_not_mem (r : AliasRegistry) (base : String) : r.fresh base ∉ r.taken := by
  obtain ⟨n, -, heq, hfree, -⟩ := r.exists_candidate_eq_fresh base
  rwa [heq]

-- A new name only adds to the one that was asked for.
theorem length_le_fresh (r : AliasRegistry) (base : String) :
    base.length ≤ (r.fresh base).length := by
  obtain ⟨n, -, hn, -, -⟩ := r.exists_candidate_eq_fresh base
  rw [hn]
  cases n with
  | zero => exact Nat.le_refl _
  | succ n =>
      simp only [candidate, String.length_append]
      omega

-- A name that is free is taken as it is.
theorem fresh_eq_of_not_mem {r : AliasRegistry} {base : String} (h : base ∉ r.taken) :
    r.fresh base = base := by
  obtain ⟨n, -, heq, -, hbefore⟩ := r.exists_candidate_eq_fresh base
  cases n with
  | zero => exact heq
  | succ n => exact (h (hbefore 0 (by omega))).elim

end AliasRegistry

-- A name below another one is longer than its key.
theorem Alias.length_lt_child (parent key : String) : key.length < (child parent key).length := by
  have hone : "_".length = 1 := rfl
  simp only [child, String.length_append, hone]
  omega

end CypherCompiler
