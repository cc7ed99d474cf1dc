import CypherCompiler.Proofs.Cypher.Mentions
import CypherCompiler.Proofs.Outcome.Source
import CypherCompiler.Proofs.Traversal.Steps

namespace CypherCompiler

open Cypher

-- The names that are given a meaning between two states of the registry: each of them is new,
-- and has one meaning only.
structure Introduces (before after : AliasRegistry) (entries : List Mention) : Prop where
  grows : before.taken ⊆ after.taken
  taken : ∀ m ∈ entries, m.name ∈ after.taken
  fresh : ∀ m ∈ entries, m.name ∉ before.taken
  single : ∀ m ∈ entries, ∀ n ∈ entries, m.name = n.name → m = n

namespace Introduces

variable {before middle after : AliasRegistry} {entries more : List Mention} {name : String}

theorem refl (r : AliasRegistry) : Introduces r r [] :=
  ⟨fun _ h => h, by simp, by simp, by simp⟩

theorem trans (h : Introduces before middle entries) (k : Introduces middle after more) :
    Introduces before after (entries ++ more) := by
  refine ⟨fun _ hname => k.grows (h.grows hname), ?_, ?_, ?_⟩
  · intro m hm
    rcases List.mem_append.mp hm with hm | hm
    · exact k.grows (h.taken m hm)
    · exact k.taken m hm
  · intro m hm
    rcases List.mem_append.mp hm with hm | hm
    · exact h.fresh m hm
    · exact fun hname => k.fresh m hm (h.grows hname)
  · -- a name of the second part is new to the first
    have hapart : ∀ m ∈ entries, ∀ n ∈ more, m.name ≠ n.name :=
      fun m hm n hn heq => k.fresh n hn (heq ▸ h.taken m hm)
    intro m hm n hn heq
    rcases List.mem_append.mp hm with hm | hm <;> rcases List.mem_append.mp hn with hn | hn
    · exact h.single m hm n hn heq
    · exact (hapart m hm n hn heq).elim
    · exact (hapart n hn m hm heq.symm).elim
    · exact k.single m hm n hn heq

-- A new name with its one meaning.
theorem claim {r : AliasRegistry} {base : String} {m : Mention} (hname : m.name = r.fresh base) :
    Introduces r (r.reserve (r.fresh base)) [m] := by
  refine ⟨r.taken_subset_reserve _, ?_, ?_, ?_⟩
  · intro n hn
    rw [List.mem_singleton.mp hn, hname]
    exact AliasRegistry.mem_reserve.mpr (.inl rfl)
  · intro n hn
    rw [List.mem_singleton.mp hn, hname]
    exact AliasRegistry.fresh_not_mem r base
  · intro n hn k hk _
    rw [List.mem_singleton.mp hn, List.mem_singleton.mp hk]

theorem of_reserve (h : Introduces (before.reserve name) after entries) :
    Introduces before after entries := by
  refine ⟨fun _ hother => h.grows (AliasRegistry.mem_reserve.mpr (.inr hother)), h.taken, ?_,
    h.single⟩
  exact fun m hm hother => h.fresh m hm (AliasRegistry.mem_reserve.mpr (.inr hother))

-- Reserving one more name gives it no meaning.
theorem reserve (h : Introduces before after entries) (name : String) :
    Introduces before (after.reserve name) entries := by
  have hmore := after.taken_subset_reserve name
  exact ⟨fun _ hother => hmore (h.grows hother), fun m hm => hmore (h.taken m hm), h.fresh,
    h.single⟩

end Introduces

-- What is mentioned is known before, or is introduced on the way.
def Accounts (known : List Mention) (before after : AliasRegistry) (mentions : List Mention) :
    Prop :=
  ∃ entries, Introduces before after entries ∧ ∀ m ∈ mentions, m ∈ known ∨ m ∈ entries

namespace Accounts

variable {before middle after : AliasRegistry} {known mentions more : List Mention}

theorem refl (known : List Mention) (r : AliasRegistry) : Accounts known r r [] :=
  ⟨[], .refl r, by simp⟩

theorem append (h : Accounts known before middle mentions)
    (k : Accounts known middle after more) : Accounts known before after (mentions ++ more) := by
  obtain ⟨entries, hentries, hmentions⟩ := h
  obtain ⟨others, hothers, hmore⟩ := k
  refine ⟨entries ++ others, hentries.trans hothers, ?_⟩
  intro m hm
  rcases List.mem_append.mp hm with hm | hm
  · exact (hmentions m hm).imp_right (List.mem_append_left others)
  · exact (hmore m hm).imp_right (List.mem_append_right entries)

theorem claim {r : AliasRegistry} {base : String} {m : Mention} (hname : m.name = r.fresh base) :
    Accounts known r (r.reserve (r.fresh base)) [m] :=
  ⟨_, .claim hname, fun _ hm => .inr hm⟩

-- What the first part introduces is known to the second one.
theorem within {entries : List Mention} (h : Introduces before middle entries)
    (hmentions : ∀ m ∈ mentions, m ∈ known ∨ m ∈ entries) {inner : List Mention}
    (hinner : inner ⊆ entries) (k : Accounts inner middle after more) :
    Accounts known before after (mentions ++ more) := by
  obtain ⟨others, hothers, hmore⟩ := k
  refine ⟨entries ++ others, h.trans hothers, ?_⟩
  intro m hm
  rcases List.mem_append.mp hm with hm | hm
  · exact (hmentions m hm).imp_right (List.mem_append_left others)
  · rcases hmore m hm with hm | hm
    · exact .inr (List.mem_append_left others (hinner hm))
    · exact .inr (List.mem_append_right entries hm)

end Accounts

-- The meaning that a step gives to its node.
def Step.mention (s : Step) : Mention := .hop s.hop

def Plan.mentions (p : Plan) : List Mention := p.steps.map Step.mention

theorem NewlyNamed.introduces {before after : AliasRegistry} {steps : List Step}
    (h : NewlyNamed before after steps) : Introduces before after (steps.map Step.mention) := by
  refine ⟨h.grows, ?_, ?_, ?_⟩
  · intro m hm
    obtain ⟨s, hs, rfl⟩ := List.mem_map.mp hm
    exact h.taken s hs
  · intro m hm
    obtain ⟨s, hs, rfl⟩ := List.mem_map.mp hm
    exact h.fresh s hs
  · intro m hm n hn heq
    obtain ⟨s, hs, rfl⟩ := List.mem_map.mp hm
    obtain ⟨t, ht, rfl⟩ := List.mem_map.mp hn
    rw [h.eq_of_node_eq hs ht heq]

end CypherCompiler
