import Mathlib.Data.List.Induction
import CypherCompiler.Config

namespace CypherCompiler

-- The last prefix that overrides give, good or bad.
def ConfigOverride.lastGiven (overrides : List ConfigOverride) : Option String :=
  (overrides.filterMap countPrefix).getLast?

namespace Config

open ConfigOverride (lastGiven)

-- The configuration after overrides made one after the other. Each starts from what the one before
-- it left, whether that one was refused or not.
def mergeAll (c : Config) (overrides : List ConfigOverride) : Config :=
  overrides.foldl (fun now o => (now.merge o).1) c

variable {c next : Config} {overrides : List ConfigOverride} {o : ConfigOverride}
  {fault : Option ConfigError}

theorem isValid_iff : c.isValid = true ↔ 1 ≤ c.countPrefix.length ∧ c.countPrefix.length ≤ 32 := by
  simp [isValid]

-- An override is refused for what it leaves behind, and for nothing else.
theorem merge_eq_iff : c.merge o = (next, fault) ↔ next = c.override o ∧
    (next.isValid = true ∧ fault = none ∨
      next.isValid = false ∧ fault = some .invalidCountPrefix) := by
  rw [merge, Prod.mk.injEq]
  constructor
  · rintro ⟨rfl, rfl⟩
    refine ⟨rfl, ?_⟩
    cases (c.override o).isValid <;> simp
  · rintro ⟨rfl, ⟨hvalid, rfl⟩ | ⟨hvalid, rfl⟩⟩ <;> simp [hvalid]

-- An override changes nothing if all that it gives is in force already.
theorem override_eq_self_iff : c.override o = c ↔
    (∀ given ∈ o.countPrefix, given = c.countPrefix) ∧
      (o.authScopes = true → c.authScopes = true) := by
  obtain ⟨countPrefix, authScopes, strictArguments⟩ := c
  obtain ⟨given, switched⟩ := o
  simp only [override, mk.injEq, and_true]
  cases given <;> cases authScopes <;> cases switched <;> simp

theorem mergeAll_concat (c : Config) (overrides : List ConfigOverride) (o : ConfigOverride) :
    c.mergeAll (overrides ++ [o]) = (c.mergeAll overrides).override o := by
  simp [mergeAll, List.foldl_append, merge]

theorem countPrefix_mergeAll (c : Config) (overrides : List ConfigOverride) :
    (c.mergeAll overrides).countPrefix = (lastGiven overrides).getD c.countPrefix := by
  induction overrides using List.reverseRecOn with
  | nil => rfl
  | append_singleton before o ih =>
      rw [mergeAll_concat]
      unfold lastGiven at ih ⊢
      cases hgiven : o.countPrefix with
      | none => simpa [override, hgiven] using ih
      | some given => simp [override, hgiven]

-- The overrides of a valid configuration leave a valid one as long as the last prefix is within
-- bounds, whatever was given before it.
theorem isValid_mergeAll_iff (hvalid : c.isValid = true) :
    (c.mergeAll overrides).isValid = true ↔
      ∀ given ∈ lastGiven overrides, 1 ≤ given.length ∧ given.length ≤ 32 := by
  rw [isValid_iff, countPrefix_mergeAll]
  cases lastGiven overrides with
  | none => simpa using isValid_iff.mp hvalid
  | some given => simp

-- After any overrides of a valid configuration, one more is refused exactly if the last prefix is
-- out of bounds. What is refused stays in force, so that the configuration is valid exactly if the
-- override was not refused, and a refused one that met a valid configuration has changed it.
theorem merge_mergeAll_spec (hvalid : c.isValid = true) (overrides : List ConfigOverride)
    (o : ConfigOverride) :
    ∃ now next fault, c.mergeAll overrides = now ∧ now.merge o = (next, fault) ∧
      (fault = none ↔ next.isValid = true) ∧ (∀ e ∈ fault, e = .invalidCountPrefix) ∧
      (next.isValid = true ↔
        ∀ given ∈ lastGiven (overrides ++ [o]), 1 ≤ given.length ∧ given.length ≤ 32) ∧
      (next = now ↔ (∀ given ∈ o.countPrefix, given = now.countPrefix) ∧
        (o.authScopes = true → now.authScopes = true)) ∧
      (now.isValid = true → fault ≠ none → next ≠ now) ∧
      (now.authScopes = true → next.authScopes = true) ∧
      next.strictArguments = now.strictArguments := by
  obtain ⟨next, fault, hmerge⟩ : ∃ next fault, (c.mergeAll overrides).merge o = (next, fault) :=
    ⟨_, _, rfl⟩
  obtain ⟨hnext, hfault⟩ := merge_eq_iff.mp hmerge
  have hvalidIff : next.isValid = true ↔
      ∀ given ∈ lastGiven (overrides ++ [o]), 1 ≤ given.length ∧ given.length ≤ 32 := by
    rw [hnext, ← mergeAll_concat]
    exact isValid_mergeAll_iff hvalid
  refine ⟨_, next, fault, rfl, hmerge, ?_, ?_, hvalidIff, ?_, ?_, ?_, ?_⟩
  · obtain ⟨hkept, rfl⟩ | ⟨hrefused, rfl⟩ := hfault
    · simp [hkept]
    · simp [hrefused]
  · obtain ⟨-, rfl⟩ | ⟨-, rfl⟩ := hfault <;> simp
  · rw [hnext]
    exact override_eq_self_iff
  · rintro hbefore hrefused rfl
    obtain ⟨-, rfl⟩ | ⟨hinvalid, -⟩ := hfault
    · exact hrefused rfl
    · simp [hbefore] at hinvalid
  · intro hon
    simp [hnext, override, hon]
  · rw [hnext]
    rfl

-- An override that gives nothing is refused for the empty prefix that the one before it has left.
theorem merge_mergeAll_spec_emptyPrefix :
    default.isValid = true ∧ ∃ now next,
      default.mergeAll [⟨some "Num", true⟩, ⟨some "", false⟩] = now ∧
      now.merge ⟨none, false⟩ = (next, some .invalidCountPrefix) ∧ next = now := by
  obtain ⟨now, next, fault, hnow, hmerge, hfault, hreason, hvalid, hsame, -⟩ :=
    merge_mergeAll_spec (c := default) (by decide) [⟨some "Num", true⟩, ⟨some "", false⟩]
      ⟨none, false⟩
  have hrefused : fault ≠ none := by
    rw [ne_eq, hfault, hvalid]
    decide
  obtain ⟨e, rfl⟩ := Option.ne_none_iff_exists'.mp hrefused
  obtain rfl := hreason e rfl
  exact ⟨by decide, now, next, hnow, hmerge, hsame.mpr (by simp)⟩

-- A configuration is told that its override was refused, and is left with it.
theorem merge_keeps_refusedPrefix :
    default.isValid = true ∧
      default.merge ⟨some "", true⟩ = (⟨"", true, true⟩, some .invalidCountPrefix) ∧
      (⟨"", true, true⟩ : Config) ≠ default ∧ (⟨"", true, true⟩ : Config).isValid = false := by
  decide

end Config

end CypherCompiler
