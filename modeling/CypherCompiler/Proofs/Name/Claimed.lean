import Mathlib.Algebra.Group.Int.Defs
import Mathlib.Algebra.Group.Nat.Defs
import Mathlib.Data.List.Nodup
import CypherCompiler.Proofs.Name.Fresh

namespace CypherCompiler

-- What the parts of a statement do with its names: find one for a new node, or bind one as it is.
inductive NameCall where
  | claim (base : String)
  | reserve (name : String)
  deriving DecidableEq, Repr

-- The name that is bound by a call, and the registry after it.
def NameCall.apply (r : AliasRegistry) : NameCall → String × AliasRegistry
  | .claim base => r.claim base
  | .reserve name => (name, r.reserve name)

namespace AliasRegistry

-- The names bound by calls one after the other, and the registry after the last of them.
def run (r : AliasRegistry) : List NameCall → List String × AliasRegistry
  | [] => ([], r)
  | call :: rest =>
    let (name, next) := call.apply r
    let (names, last) := next.run rest
    (name :: names, last)

-- The loop of a claim, with the name that it tries and its counter of 32 bits. It stops with a name
-- that is free, after so many probes, and otherwise goes on while the counter does not run over.
inductive Probes (r : AliasRegistry) (base : String) : String → Int32 → Nat → String → Prop
  | free {tried : String} {n : Int32} (h : tried ∉ r.taken) : Probes r base tried n 1 tried
  | taken {tried name : String} {n : Int32} {probes : Nat} (h : tried ∈ r.taken)
      (hcounter : n.toInt + 1 < 2 ^ 31)
      (hrest : Probes r base (base ++ "_" ++ toString n) (n + 1) probes name) :
      Probes r base tried n (probes + 1) name

-- A registry that has taken these names and no others, each of them once.
structure Records (r : AliasRegistry) (names : List String) : Prop where
  mem_taken : ∀ name, name ∈ r.taken ↔ name ∈ names
  nodup : r.taken.Nodup

variable {r : AliasRegistry} {base : String} {names : List String}

theorem Probes.unique {tried : String} {n : Int32} {k l : Nat} {name other : String}
    (h : r.Probes base tried n k name) (hother : r.Probes base tried n l other) :
    l = k ∧ other = name := by
  induction h generalizing l with
  | free hfree =>
      cases hother with
      | free => exact ⟨rfl, rfl⟩
      | taken htaken => exact (hfree htaken).elim
  | taken htaken _ _ ih =>
      cases hother with
      | free hfree => exact (hfree htaken).elim
      | taken _ _ hrest =>
          obtain ⟨rfl, rfl⟩ := ih hrest
          exact ⟨rfl, rfl⟩

-- The loop passes over the taken candidates and stops at the free one behind them. The counter is
-- two ahead of the candidates.
theorem probes_of_first_free {n k : Nat} (hfits : n + k + 2 < 2 ^ 31)
    (hfree : candidate base (n + k) ∉ r.taken)
    (hbefore : ∀ m < k, candidate base (n + m) ∈ r.taken) :
    r.Probes base (candidate base n) (Int32.ofNat (n + 2)) (k + 1) (candidate base (n + k)) := by
  induction k generalizing n with
  | zero => exact .free hfree
  | succ k ih =>
      have hshift (m : Nat) : n + (m + 1) = n + 1 + m := by omega
      have hnumber : (Int32.ofNat (n + 2)).toInt = (n + 2 : Nat) :=
        Int32.toInt_ofNat_of_lt (by omega)
      have hnext : base ++ "_" ++ toString (Int32.ofNat (n + 2)) = candidate base (n + 1) := by
        change base ++ "_" ++ toString (Int32.ofNat (n + 2)).toInt = _
        rw [hnumber]
        rfl
      have hcounter : Int32.ofNat (n + 2) + 1 = Int32.ofNat (n + 1 + 2) :=
        (Int32.ofNat_add (n + 2) 1).symm
      refine .taken (hbefore 0 (by omega)) (by omega) ?_
      rw [hnext, hcounter, hshift k]
      refine ih (by omega) (hshift k ▸ hfree) fun m hm => ?_
      rw [← hshift]
      exact hbefore (m + 1) (by omega)

-- The loop ends, after one probe more than there are taken names at the latest.
theorem exists_probes (hlength : r.taken.length + 2 < 2 ^ 31) (base : String) :
    ∃ probes ≤ r.taken.length + 1, r.Probes base base 2 probes (r.claim base).1 := by
  obtain ⟨n, hn, heq, hfree, hbefore⟩ := r.exists_candidate_eq_fresh base
  have hprobes : r.Probes base (candidate base 0) 2 (n + 1) (candidate base (0 + n)) :=
    probes_of_first_free (by omega) (by rwa [Nat.zero_add]) fun m hm => by
      rw [Nat.zero_add]
      exact hbefore m hm
  rw [Nat.zero_add, ← heq] at hprobes
  exact ⟨n + 1, by omega, hprobes⟩

-- A taken name gets the least number that makes it free.
theorem exists_claim_eq_numbered (h : base ∈ r.taken) :
    ∃ n, 2 ≤ n ∧ (r.claim base).1 = base ++ "_" ++ toString n ∧
      ∀ m, 2 ≤ m → m < n → base ++ "_" ++ toString m ∈ r.taken := by
  obtain ⟨n, -, heq, hfree, hbefore⟩ := r.exists_candidate_eq_fresh base
  cases n with
  | zero => exact (hfree h).elim
  | succ n =>
      refine ⟨n + 2, by omega, heq, fun m hm hlt => ?_⟩
      obtain ⟨m, rfl⟩ := Nat.exists_eq_add_of_le' hm
      exact hbefore (m + 1) (by omega)

-- Whatever a call is, it takes the name that it binds.
theorem apply_eq_reserve (r : AliasRegistry) (call : NameCall) :
    (call.apply r).2 = r.reserve (call.apply r).1 := by
  cases call <;> rfl

namespace Records

theorem empty : AliasRegistry.empty.Records [] :=
  ⟨fun _ => .rfl, .nil⟩

theorem apply (h : r.Records names) (call : NameCall) :
    (call.apply r).2.Records (names ++ [(call.apply r).1]) := by
  rw [apply_eq_reserve]
  refine ⟨fun name => ?_, h.nodup.insert⟩
  rw [mem_reserve, h.mem_taken, List.mem_append, List.mem_singleton, or_comm]

theorem run (h : r.Records names) (calls : List NameCall) :
    (r.run calls).2.Records (names ++ (r.run calls).1) := by
  induction calls generalizing r names with
  | nil => simpa [AliasRegistry.run] using h
  | cons call rest ih => simpa [AliasRegistry.run] using ih (h.apply call)

theorem length_le (h : r.Records names) : r.taken.length ≤ names.length :=
  h.nodup.length_le_of_subset fun name hname => (h.mem_taken name).mp hname

end Records

theorem run_length (r : AliasRegistry) (calls : List NameCall) :
    (r.run calls).1.length = calls.length := by
  induction calls generalizing r with
  | nil => rfl
  | cons call rest ih => rw [run, List.length_cons, ih, List.length_cons]

-- After any calls, as many as the counter can number, the loop of a claim ends with the first name
-- that is free, and no call takes any other name than the one that it binds.
theorem run_claims_first_free (calls : List NameCall) (hcalls : calls.length + 2 < 2 ^ 31) :
    ∃ names r, empty.run calls = (names, r) ∧ r.Records names ∧
      (∀ base, (∃ probes ≤ r.taken.length + 1, ∀ k name,
          r.Probes base base 2 k name ↔ k = probes ∧ name = (r.claim base).1) ∧
        (r.claim base).1 ∉ names ∧ (base ∉ names → (r.claim base).1 = base) ∧
        (base ∈ names → ∃ n, 2 ≤ n ∧ (r.claim base).1 = base ++ "_" ++ toString n ∧
          ∀ m, 2 ≤ m → m < n → base ++ "_" ++ toString m ∈ names)) ∧
      ∀ (call : NameCall) (name : String),
        name ∈ (call.apply r).2.taken ↔ name = (call.apply r).1 ∨ name ∈ r.taken := by
  have hrecords : (empty.run calls).2.Records (empty.run calls).1 := by
    simpa using Records.empty.run calls
  have hlength : (empty.run calls).2.taken.length + 2 < 2 ^ 31 := by
    have htaken := hrecords.length_le
    rw [run_length] at htaken
    omega
  refine ⟨_, _, rfl, hrecords, ?_⟩
  generalize (empty.run calls).1 = names, (empty.run calls).2 = r at hrecords hlength ⊢
  refine ⟨fun base => ⟨?_, ?_, ?_, ?_⟩, fun call name => ?_⟩
  · obtain ⟨probes, hle, hprobes⟩ := exists_probes hlength base
    refine ⟨probes, hle, fun k name => ⟨hprobes.unique, ?_⟩⟩
    rintro ⟨rfl, rfl⟩
    exact hprobes
  · rw [← hrecords.mem_taken]
    exact r.fresh_not_mem base
  · rw [← hrecords.mem_taken]
    exact fresh_eq_of_not_mem
  · simp only [← hrecords.mem_taken]
    exact exists_claim_eq_numbered
  · rw [apply_eq_reserve, mem_reserve]

-- A base that looks like a numbered name is in the way of the numbers of another base.
theorem run_claims_first_free_movies :
    ∃ r, empty.run [.claim "movie_2", .reserve "movie", .claim "movie"] =
        (["movie_2", "movie", "movie_3"], r) ∧
      ∃ probes ≤ 4, r.Probes "movie" "movie" 2 probes "movie_4" := by
  obtain ⟨names, r, hrun, -, hclaims, -⟩ :=
    run_claims_first_free [.claim "movie_2", .reserve "movie", .claim "movie"] (by decide)
  obtain ⟨⟨probes, hle, hprobes⟩, -⟩ := hclaims "movie"
  cases hrun
  exact ⟨_, rfl, probes, hle, (hprobes _ _).mpr ⟨rfl, rfl⟩⟩

end AliasRegistry

end CypherCompiler
