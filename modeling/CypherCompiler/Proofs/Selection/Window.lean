import CypherCompiler.Compilation.Ordering
import CypherCompiler.Cypher.Render
import CypherCompiler.Proofs.Collision.Token
import CypherCompiler.Proofs.Hoisting.InPlace
import CypherCompiler.Proofs.Supply.Mutation

namespace CypherCompiler

open Cypher

namespace Pagination

-- What an argument says about a bound: nothing, or a whole number that is no less than `least`
-- and fits 64 signed bits.
inductive Gives (least : Int) : Option Json → Option Int → Prop
  | absent : Gives least none none
  | null : Gives least (some .null) none
  | number {n : Int} (hleast : least ≤ n) (hfits : n < 2 ^ 63) :
      Gives least (some (.ofInt n)) (some n)

-- A bound that is written: its keyword, the argument that asks for it, and the number.
structure WrittenBound where
  keyword : String
  argument : String
  value : Int
  deriving DecidableEq

-- The rows to pass over are written if there are any, the number of rows unless it is all of them.
def writtenBounds (first offset : Option Int) : List WrittenBound :=
  (offset.filter (0 < ·)).toList.map (⟨"SKIP", Argument.offset, ·⟩) ++
    (first.filter (· != -1)).toList.map (⟨"LIMIT", Argument.first, ·⟩)

namespace WrittenBound

def parameter (path : ParameterPath) (b : WrittenBound) : String :=
  (path.child b.argument).name

-- What it takes out of the request.
def entry (path : ParameterPath) (b : WrittenBound) : String × Json :=
  (b.parameter path, .ofInt b.value)

def text (path : ParameterPath) (b : WrittenBound) : String :=
  b.keyword ++ " $" ++ b.parameter path

end WrittenBound

variable {least fallback : Int} {argument : String} {given : Option Json} {n : Option Int}

theorem asInt64?_eq_some {v : Json} {n : Int} (h : v.asInt64? = some n) :
    v = .ofInt n ∧ n < 2 ^ 63 := by
  unfold Json.asInt64? at h
  split at h
  · split at h
    · rename_i hfits
      cases h
      exact ⟨rfl, hfits⟩
    · cases h
  · cases h

-- What an argument says is read.
theorem bound_of_gives (h : Gives least given n) :
    bound argument least fallback (given.filter (!·.isNull)) = .ok (n.getD fallback) := by
  cases h with
  | absent => rfl
  | null => rfl
  | @number n hleast hfits =>
      have hread : (Json.ofInt n).asInt64? = some n := if_pos hfits
      change bound argument least fallback (some (.ofInt n)) = _
      simp only [bound, hread, if_neg (Int.not_lt.mpr hleast), Option.getD_some]

theorem exists_of_not_gives (h : ∀ n, ¬ Gives least given n) : ∃ v, given = some v := by
  cases given with
  | none => exact (h none .absent).elim
  | some v => exact ⟨v, rfl⟩

-- A value that says nothing of a bound is refused with its text.
theorem bound_of_not_gives {v : Json} (h : ∀ n, ¬ Gives least (some v) n) :
    bound argument least fallback ((some v).filter (!·.isNull)) =
      .error (.invalidPagination argument v.compact) := by
  have hnull : (!v.isNull) = true := by
    cases v with
    | null => exact (h none .null).elim
    | _ => rfl
  rw [Option.filter_some, if_pos hnull]
  unfold bound
  cases hread : v.asInt64? with
  | none => simp only [hread]
  | some n =>
      obtain ⟨rfl, hfits⟩ := asInt64?_eq_some hread
      have hless : n < least := Int.not_le.mp fun hleast => h _ (.number hleast hfits)
      simp only [hread, if_pos hless]
      rfl

end Pagination

namespace Selection

open Pagination (Gives WrittenBound writtenBounds)

variable {s : Selection} {path : ParameterPath} {ps qs : Parameters} {first offset : Option Int}

-- How the window is read on a map that is changed in place.
def windowInPlace (s : Selection) (path : ParameterPath) : InPlace Window := do
  let p ← (Pagination.ofSelection s : Except RequestError _)
  let skip ← InPlace.valueIf (0 < p.offset) (path.child Argument.offset) (.ofInt p.offset)
  let limit ← InPlace.valueIf p.isLimited (path.child Argument.first) (.ofInt p.first)
  return ⟨skip, limit⟩

-- It is the same reading.
theorem windowInPlace_forget (s : Selection) (path : ParameterPath) :
    (s.windowInPlace path).forget = s.window path := by
  have hlimit (p : Pagination) (skip : Option String) :
      (do
        let limit ← InPlace.valueIf p.isLimited (path.child Argument.first) (.ofInt p.first)
        return ⟨skip, limit⟩ : InPlace Window).forget =
      (do
        let limit ← if p.isLimited then
            some <$> Hoist.value (path.child Argument.first) (.ofInt p.first)
          else pure none
        return ⟨skip, limit⟩) := by
    rw [InPlace.forget_bind, InPlace.forget_valueIf]
    cases p.isLimited <;> rfl
  unfold windowInPlace window
  rw [InPlace.forget_bind]
  congr 1
  funext p
  rw [InPlace.forget_bind, InPlace.forget_valueIf]
  simp only [hlimit, decide_eq_true_eq]
  by_cases hoffset : 0 < p.offset
  · rw [if_pos hoffset, if_pos hoffset]
  · rw [if_neg hoffset, if_neg hoffset]

-- Why a window is refused. The number of rows is looked at first.
inductive WindowFault (s : Selection) : RequestError → Prop
  | first {v : Json} (h : s.arguments.get? Argument.first = some v)
      (hfirst : ∀ n, ¬ Gives (-1) (some v) n) :
      WindowFault s (.invalidPagination Argument.first v.compact)
  | offset {v : Json} (hfirst : ∃ n, Gives (-1) (s.arguments.get? Argument.first) n)
      (h : s.arguments.get? Argument.offset = some v) (hoffset : ∀ n, ¬ Gives 0 (some v) n) :
      WindowFault s (.invalidPagination Argument.offset v.compact)

theorem ofSelection_eq (s : Selection) :
    Pagination.ofSelection s = (do
      let first ← Pagination.bound Argument.first (-1) (-1)
        ((s.arguments.get? Argument.first).filter (!·.isNull))
      let offset ← Pagination.bound Argument.offset 0 0
        ((s.arguments.get? Argument.offset).filter (!·.isNull))
      return ⟨first, offset⟩) :=
  rfl

theorem ofSelection_of_fault {e : RequestError} (h : s.WindowFault e) :
    Pagination.ofSelection s = .error e := by
  rw [ofSelection_eq]
  cases h with
  | first h hfirst =>
      rw [h, Pagination.bound_of_not_gives hfirst]
      rfl
  | offset hfirst h hoffset =>
      obtain ⟨n, hfirst⟩ := hfirst
      rw [Pagination.bound_of_gives hfirst, h, Pagination.bound_of_not_gives hoffset]
      rfl

theorem ofSelection_of_gives (hfirst : Gives (-1) (s.arguments.get? Argument.first) first)
    (hoffset : Gives 0 (s.arguments.get? Argument.offset) offset) :
    Pagination.ofSelection s = .ok ⟨first.getD (-1), offset.getD 0⟩ := by
  rw [ofSelection_eq]
  rw [Pagination.bound_of_gives hfirst, Pagination.bound_of_gives hoffset]
  rfl

theorem windowInPlace_of_fault {e : RequestError} (h : s.WindowFault e) :
    (s.windowInPlace path).runOn ps = (.error e, ps) := by
  unfold windowInPlace
  rw [InPlace.runOn_bind, ofSelection_of_fault h]
  rfl

-- A window has a fault, or both bounds can be read.
theorem fault_or_gives (s : Selection) :
    (∃ argument text, s.WindowFault (.invalidPagination argument text)) ∨
      ∃ first offset, Gives (-1) (s.arguments.get? Argument.first) first ∧
        Gives 0 (s.arguments.get? Argument.offset) offset := by
  by_cases hfirst : ∃ n, Gives (-1) (s.arguments.get? Argument.first) n
  · by_cases hoffset : ∃ n, Gives 0 (s.arguments.get? Argument.offset) n
    · obtain ⟨first, hfirst⟩ := hfirst
      obtain ⟨offset, hoffset⟩ := hoffset
      exact .inr ⟨first, offset, hfirst, hoffset⟩
    · rw [not_exists] at hoffset
      obtain ⟨v, hv⟩ := Pagination.exists_of_not_gives hoffset
      exact .inl ⟨_, _, .offset hfirst hv (hv ▸ hoffset)⟩
  · rw [not_exists] at hfirst
    obtain ⟨v, hv⟩ := Pagination.exists_of_not_gives hfirst
    exact .inl ⟨_, _, .first hv (hv ▸ hfirst)⟩

-- Bounds that can be read are refused for a name in use only.
theorem not_invalidPagination_of_gives
    (hfirst : Gives (-1) (s.arguments.get? Argument.first) first)
    (hoffset : Gives 0 (s.arguments.get? Argument.offset) offset) {argument text : String} :
    (s.windowInPlace path).runOn ps ≠ (.error (.invalidPagination argument text), qs) := by
  intro h
  unfold windowInPlace at h
  rw [InPlace.runOn_bind, ofSelection_of_gives hfirst hoffset] at h
  change (InPlace.valueIf _ _ _ >>= _ : InPlace Window).runOn ps = _ at h
  rw [InPlace.runOn_bind] at h
  split at h
  · rename_i skip ms hskip
    rw [InPlace.runOn_bind] at h
    split at h
    · cases h
    · rename_i hlimit
      cases h
      cases InPlace.error_of_runOn_valueIf hlimit
  · rename_i hskip
    cases h
    cases InPlace.error_of_runOn_valueIf hskip

-- Both names end differently.
theorem offset_name_ne_first_name (path : ParameterPath) :
    (path.child Argument.offset).name ≠ (path.child Argument.first).name := by
  intro h
  have htokens := congrArg Text.tokens h
  rw [path.tokens_name_child, path.tokens_name_child, List.append_cancel_left_eq] at htokens
  exact absurd htokens (by decide)

-- A bound with a default that is not written.
theorem runOn_bound {written : Int → Bool} (fallback : Int)
    (hfallback : written fallback = false) (given : Option Int)
    (hfree : ∀ n ∈ given.filter written, path.name ∉ ps.names) :
    (InPlace.valueIf (written (given.getD fallback)) path (.ofInt (given.getD fallback))).runOn ps =
      (.ok ((given.filter written).map fun _ => path.name),
        ⟨ps.members ++ (given.filter written).toList.map fun n => (path.name, .ofInt n)⟩) := by
  cases given with
  | none =>
      rw [InPlace.runOn_valueIf _ (by simp [hfallback])]
      simp [hfallback]
  | some n =>
      rw [Option.filter_some] at hfree ⊢
      cases hn : written n with
      | false =>
          rw [InPlace.runOn_valueIf _ (by simp [hn])]
          simp [hn]
      | true =>
          have hfresh : path.name ∉ ps.names := hfree n (by simp [hn])
          rw [InPlace.runOn_valueIf _ fun _ => hfresh]
          simp [hn]

theorem windowInPlace_of_gives
    (hfirst : Gives (-1) (s.arguments.get? Argument.first) first)
    (hoffset : Gives 0 (s.arguments.get? Argument.offset) offset)
    (hfree : ∀ b ∈ writtenBounds first offset, b.parameter path ∉ ps.names) :
    (s.windowInPlace path).runOn ps =
      (.ok ⟨(offset.filter (0 < ·)).map fun _ => (path.child Argument.offset).name,
          (first.filter (· != -1)).map fun _ => (path.child Argument.first).name⟩,
        ⟨ps.members ++ (writtenBounds first offset).map (WrittenBound.entry path)⟩) := by
  have hskipFree : ∀ n ∈ offset.filter (0 < ·), (path.child Argument.offset).name ∉ ps.names :=
    fun n hn => hfree ⟨"SKIP", Argument.offset, n⟩ (by simp [writtenBounds, Option.mem_def.mp hn])
  have hskip := runOn_bound 0 rfl offset hskipFree
  obtain ⟨ms, hms⟩ : ∃ ms : Parameters, ms = ⟨ps.members ++
    (offset.filter (0 < ·)).toList.map fun n => ((path.child Argument.offset).name, .ofInt n)⟩ :=
    ⟨_, rfl⟩
  -- the second name is not the one that was brought in before
  have hlimitFree : ∀ n ∈ first.filter (· != -1), (path.child Argument.first).name ∉ ms.names := by
    intro n hn
    have hfresh := hfree ⟨"LIMIT", Argument.first, n⟩
      (by simp [writtenBounds, Option.mem_def.mp hn])
    have hne := offset_name_ne_first_name path
    rw [hms, Parameters.names, Json.Members.keys, List.map_append, List.mem_append, not_or]
    exact ⟨hfresh, by simp [hne]⟩
  have hlimit := runOn_bound (-1) rfl first hlimitFree
  unfold windowInPlace
  rw [InPlace.runOn_bind, ofSelection_of_gives hfirst hoffset]
  change (InPlace.valueIf _ _ _ >>= _ : InPlace Window).runOn ps = _
  rw [InPlace.runOn_bind, hskip, ← hms]
  change (InPlace.valueIf _ _ _ >>= _ : InPlace Window).runOn ms = _
  have hentries : (writtenBounds first offset).map (WrittenBound.entry path) =
      (offset.filter (0 < ·)).toList.map (fun n =>
        ((path.child Argument.offset).name, Json.ofInt n)) ++
      (first.filter (· != -1)).toList.map fun n =>
        ((path.child Argument.first).name, Json.ofInt n) := by
    simp [writtenBounds, WrittenBound.entry, WrittenBound.parameter, Function.comp_def]
  simp only [InPlace.runOn_bind, Pagination.isLimited, Pagination.unbounded, hlimit]
  rw [hentries, ← List.append_assoc, hms]
  rfl

theorem parameters_nodup (path : ParameterPath) (first offset : Option Int) :
    ((writtenBounds first offset).map (WrittenBound.parameter path)).Nodup := by
  have hne := offset_name_ne_first_name path
  unfold writtenBounds
  cases offset.filter (0 < ·) <;> cases first.filter (· != -1) <;>
    simp [WrittenBound.parameter, hne]

theorem supplies_of_free (hfree : ∀ b ∈ writtenBounds first offset, b.parameter path ∉ ps.names) :
    Parameters.Supplies ps
      ⟨ps.members ++ (writtenBounds first offset).map (WrittenBound.entry path)⟩
      ((writtenBounds first offset).map (WrittenBound.entry path)) := by
  refine ⟨_, rfl, .refl _, ?_, ?_⟩
  · rw [List.map_map]
    exact parameters_nodup path first offset
  · rw [List.map_map]
    exact List.forall_mem_map.mpr hfree

-- The text of a window, if a bound is written.
def windowText? (path : ParameterPath) (bounds : List WrittenBound) : Option String :=
  if bounds.isEmpty then none
  else some (String.intercalate " " (bounds.map (WrittenBound.text path)))

-- A window on any selection, any map and any path, with the map that is left behind. It is refused
-- as a bad window exactly for an argument that says nothing of its bound, before anything is put
-- into the map. Otherwise each bound that is written refers to a parameter that holds its number,
-- as long as the names are free.
theorem windowInPlace_spec (s : Selection) (path : ParameterPath) (ps : Parameters) :
    (s.windowInPlace path).forget = s.window path ∧
    ((∃ argument text qs,
        (s.windowInPlace path).runOn ps = (.error (.invalidPagination argument text), qs)) ↔
      (∀ n, ¬ Gives (-1) (s.arguments.get? Argument.first) n) ∨
        ∀ n, ¬ Gives 0 (s.arguments.get? Argument.offset) n) ∧
    (∀ argument text qs,
      (s.windowInPlace path).runOn ps = (.error (.invalidPagination argument text), qs) →
        s.WindowFault (.invalidPagination argument text) ∧ qs = ps) ∧
    ∀ first offset, Gives (-1) (s.arguments.get? Argument.first) first →
      Gives 0 (s.arguments.get? Argument.offset) offset →
      (∀ b ∈ writtenBounds first offset, b.parameter path ∉ ps.names) →
      ∃ w qs, (s.windowInPlace path).runOn ps = (.ok w, qs) ∧
        w.render? = windowText? path (writtenBounds first offset) ∧
        qs.members = ps.members ++
          (writtenBounds first offset).map (WrittenBound.entry path) ∧
        ∀ b ∈ writtenBounds first offset, qs.get? (b.parameter path) = some (.ofInt b.value) := by
  refine ⟨windowInPlace_forget s path, ⟨?_, ?_⟩, ?_, ?_⟩
  · rintro ⟨argument, text, qs, h⟩
    by_contra hgives
    rw [not_or, not_forall_not, not_forall_not] at hgives
    obtain ⟨⟨first, hfirst⟩, offset, hoffset⟩ := hgives
    exact not_invalidPagination_of_gives hfirst hoffset h
  · intro hnot
    obtain ⟨argument, text, hfault⟩ | ⟨first, offset, hfirst, hoffset⟩ := fault_or_gives s
    · exact ⟨argument, text, ps, windowInPlace_of_fault hfault⟩
    · obtain hnot | hnot := hnot
      · exact (hnot first hfirst).elim
      · exact (hnot offset hoffset).elim
  · intro argument text qs h
    obtain ⟨argument', text', hfault⟩ | ⟨first, offset, hfirst, hoffset⟩ := fault_or_gives s
    · cases (windowInPlace_of_fault hfault).symm.trans h
      exact ⟨hfault, rfl⟩
    · exact (not_invalidPagination_of_gives hfirst hoffset h).elim
  · intro first offset hfirst hoffset hfree
    refine ⟨_, _, windowInPlace_of_gives hfirst hoffset hfree, ?_, rfl, ?_⟩
    · unfold Window.render? windowText? writtenBounds
      cases offset.filter (0 < ·) <;> cases first.filter (· != -1) <;> rfl
    · intro b hb
      exact (supplies_of_free hfree).get? (List.mem_map_of_mem hb)

-- The third page of five, on a map that holds the text of a search.
def thirdPage : Selection :=
  ⟨"movies", none, [("first", .ofInt 5), ("search", .str "matrix"), ("offset", .ofInt 10)], []⟩

theorem windowInPlace_spec_thirdPage :
    ∃ w qs, (thirdPage.windowInPlace ⟨["actor"]⟩).runOn ⟨[("actor_search", .str "matrix")]⟩ =
        (.ok w, qs) ∧
      w.render? = some "SKIP $actor_offset LIMIT $actor_first" ∧
      qs.get? "actor_offset" = some (.ofInt 10) ∧ qs.get? "actor_first" = some (.ofInt 5) := by
  have hfree : ∀ b ∈ writtenBounds (some 5) (some 10),
      b.parameter ⟨["actor"]⟩ ∉ ["actor_search"] := by decide
  obtain ⟨w, qs, hrun, htext, -, hget⟩ :=
    (windowInPlace_spec thirdPage ⟨["actor"]⟩ ⟨[("actor_search", .str "matrix")]⟩).2.2.2
      (some 5) (some 10) (.number (by decide) (by decide)) (.number (by decide) (by decide)) hfree
  exact ⟨w, qs, hrun, htext, hget ⟨"SKIP", "offset", 10⟩ (by decide),
    hget ⟨"LIMIT", "first", 5⟩ (by decide)⟩

end Selection

end CypherCompiler
