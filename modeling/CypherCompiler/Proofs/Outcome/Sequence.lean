import Mathlib.Data.List.Forall2
import CypherCompiler.Proofs.Outcome.Step

namespace CypherCompiler

-- Lists whose elements stand in a relation, position by position.

variable {α β γ ε : Type}

theorem except_mapM_eq_ok_iff {f : α → Except ε β} {as : List α} {bs : List β} :
    as.mapM f = .ok bs ↔ List.Forall₂ (fun a b => f a = .ok b) as bs := by
  induction as generalizing bs with
  | nil => rw [List.mapM_nil, except_pure_eq_ok, List.forall₂_nil_left_iff]
  | cons a rest ih =>
      simp only [except_mapM_cons_eq_ok, List.forall₂_cons_left_iff, ih]

theorem filterMap_of_mapM {f : α → Option β} {as : List α} {bs : List β}
    (h : as.mapM f = some bs) : as.filterMap f = bs := by
  induction as generalizing bs with
  | nil =>
      cases h
      rfl
  | cons a rest ih =>
      rw [List.mapM_cons] at h
      simp only [Option.bind_eq_bind, Option.pure_def, Option.bind_eq_some_iff,
        Option.some.injEq] at h
      obtain ⟨b, hb, more, hmore, rfl⟩ := h
      rw [List.filterMap_cons_some hb, ih hmore]

theorem exists_forall₂_iff {R : α → β → Prop} {as : List α} :
    (∃ bs, List.Forall₂ R as bs) ↔ ∀ a ∈ as, ∃ b, R a b := by
  induction as with
  | nil => simp
  | cons a rest ih =>
      simp only [List.forall₂_cons_left_iff, List.forall_mem_cons, ← ih]
      constructor
      · rintro ⟨_, b, more, hb, hmore, rfl⟩
        exact ⟨⟨b, hb⟩, more, hmore⟩
      · rintro ⟨⟨b, hb⟩, more, hmore⟩
        exact ⟨_, b, more, hb, hmore, rfl⟩

theorem forall₂_map_eq {R : α → β → Prop} {f : α → γ} {g : β → γ}
    (hR : ∀ a b, R a b → g b = f a) {as : List α} {bs : List β} (h : List.Forall₂ R as bs) :
    bs.map g = as.map f := by
  induction h with
  | nil => rfl
  | cons hab _ ih => rw [List.map_cons, List.map_cons, hR _ _ hab, ih]

theorem forall₂_forall_iff {R : α → β → Prop} {P : α → Prop} {Q : β → Prop}
    (hR : ∀ a b, R a b → (Q b ↔ P a)) {as : List α} {bs : List β} (h : List.Forall₂ R as bs) :
    (∀ b ∈ bs, Q b) ↔ ∀ a ∈ as, P a := by
  induction h with
  | nil => simp
  | cons hab _ ih => simp only [List.forall_mem_cons, hR _ _ hab, ih]

theorem forall₂_exists_iff {R : α → β → Prop} {P : α → Prop} {Q : β → Prop}
    (hR : ∀ a b, R a b → (Q b ↔ P a)) {as : List α} {bs : List β} (h : List.Forall₂ R as bs) :
    (∃ b ∈ bs, Q b) ↔ ∃ a ∈ as, P a := by
  have hnone := forall₂_forall_iff (fun a b hab => not_congr (hR a b hab)) h
  simpa using not_congr hnone

end CypherCompiler
