import CypherCompiler.Proofs.Traversal.Reached

namespace CypherCompiler

-- A step starts at the root, or at the node of a step in front of it whose path it makes longer.
def Step.StartsBehind (root : Root) (earlier : List Step) (s : Step) : Prop :=
  ∃ above segment, s.path = above ++ [segment] ∧
    ((above = [] ∧ s.incoming.parent = root.node) ∨
      ∃ t ∈ earlier, t.path = above ∧ t.node = s.incoming.parent)

def StartInOrder (root : Root) (steps : List Step) : Prop :=
  ∀ earlier s later, steps = earlier ++ s :: later → s.StartsBehind root earlier

theorem eraseDups_concat_of_mem {α : Type} [BEq α] [LawfulBEq α] {as : List α} {a : α}
    (h : a ∈ as) : (as ++ [a]).eraseDups = as.eraseDups := by
  have hnone : [a].removeAll as = [] := by simp [List.removeAll, h]
  rw [List.eraseDups_append, hnone, List.eraseDups_nil, List.append_nil]

theorem eraseDups_concat_of_not_mem {α : Type} [BEq α] [LawfulBEq α] {as : List α} {a : α}
    (h : a ∉ as) : (as ++ [a]).eraseDups = as.eraseDups ++ [a] := by
  have hone : [a].removeAll as = [a] := by simp [List.removeAll, h]
  rw [List.eraseDups_append, hone]
  rfl

def HopRequest.place (r : HopRequest) : List String × Relation := (r.path, r.relation)

theorem HopRequest.matchesStep_iff_place {r : HopRequest} {s : Step} :
    r.matchesStep s = true ↔ s.place = r.place := by
  rw [matchesStep_iff, Step.place, place, Prod.mk.injEq]

namespace StartInOrder

variable {root : Root} {steps : List Step}

theorem concat (h : StartInOrder root steps) {t : Step} (ht : t.StartsBehind root steps) :
    StartInOrder root (steps ++ [t]) := by
  intro earlier s later heq
  obtain rfl | ⟨more, last, rfl⟩ := List.eq_nil_or_concat later
  · obtain ⟨rfl, hlast⟩ := List.append_inj' heq rfl
    obtain rfl := List.singleton_inj.mp hlast
    exact ht
  · rw [List.concat_eq_append, ← List.cons_append, ← List.append_assoc] at heq
    exact h earlier s more (List.append_inj' heq rfl).1

-- Changing what a step is asked for changes neither its path nor its ends.
theorem update {before after : List Step} {s t : Step}
    (h : StartInOrder root (before ++ s :: after)) (hpath : t.path = s.path)
    (hnode : t.node = s.node) (hincoming : t.incoming = s.incoming) :
    StartInOrder root (before ++ t :: after) := by
  let ends (u : Step) := (u.path, u.node, u.incoming.parent)
  intro earlier u later heq
  have hends : (before ++ s :: after).map ends =
      earlier.map ends ++ ends u :: later.map ends := by
    rw [← List.map_cons, ← List.map_append, ← heq]
    simp [ends, hpath, hnode, hincoming]
  obtain ⟨earlier', rest, hsplit, hearlier, hrest⟩ := List.map_eq_append_iff.mp hends
  obtain ⟨u', later', rfl, hu, -⟩ := List.map_eq_cons_iff.mp hrest
  obtain ⟨above, segment, hsegments, hstart⟩ := h earlier' u' later' hsplit
  obtain ⟨hupath, -, huparent⟩ : u'.path = u.path ∧ u'.node = u.node ∧
      u'.incoming.parent = u.incoming.parent := by simpa [ends] using hu
  refine ⟨above, segment, hupath ▸ hsegments, ?_⟩
  obtain ⟨habove, hparent⟩ | ⟨v', hv', hvpath, hvnode⟩ := hstart
  · exact .inl ⟨habove, huparent ▸ hparent⟩
  · have hmem : ends v' ∈ earlier.map ends := hearlier ▸ List.mem_map_of_mem hv'
    obtain ⟨v, hv, hsame⟩ := List.mem_map.mp hmem
    obtain ⟨hpath', hnode', -⟩ : v.path = v'.path ∧ v.node = v'.node ∧
        v.incoming.parent = v'.incoming.parent := by simpa [ends] using hsame
    exact .inr ⟨v, hv, hpath'.trans hvpath, by rw [hnode', hvnode, huparent]⟩

end StartInOrder

namespace Planning

-- A planning in which every request that was made has its step.
structure Serves (root : Root) (made : List HopRequest) (p : Planning) : Prop where
  rooted : p.root = root
  places : p.steps.map Step.place = (made.map HopRequest.place).eraseDups
  distinct : (p.steps.map Step.place).Nodup
  origin : ∀ s ∈ p.steps, ∀ source, s.origin.has source = true ↔
    ∃ r ∈ made, r.source = source ∧ r.place = s.place
  starts : StartInOrder root p.steps

theorem serves_start (root : Root) (aliases : AliasRegistry) :
    Serves root [] (start root aliases) :=
  ⟨rfl, rfl, .nil, by simp [start], by simp [start, StartInOrder]⟩

namespace Serves

variable {root : Root} {made : List HopRequest} {p : Planning}

theorem mem_steps_place (h : Serves root made p) {place : List String × Relation} :
    (∃ s ∈ p.steps, s.place = place) ↔ ∃ r ∈ made, r.place = place := by
  rw [← List.mem_map, ← List.mem_map, h.places, List.mem_eraseDups]

-- A path that the same source has asked for leads to a node.
theorem exists_node (h : Serves root made p) {path : List String} {source : HopSource}
    (hpath : path = [] ∨ ∃ t ∈ made, t.source = source ∧ t.path = path) :
    ∃ node, findNode? p.root p.steps path source = some node := by
  apply exists_findNode?
  obtain hroot | ⟨t, ht, hsource, htpath⟩ := hpath
  · exact .inl hroot
  · obtain ⟨s, hs, hplace⟩ := h.mem_steps_place.mpr ⟨t, ht, rfl⟩
    have hspath : s.path = t.path := (Prod.mk.inj hplace).1
    have horigin := (h.origin s hs source).mpr ⟨t, ht, hsource, hplace.symm⟩
    exact .inr ⟨s, hs, hspath.trans htpath, horigin⟩

theorem add (h : Serves root made p) {r : HopRequest}
    (hr : r.parentPath = [] ∨ ∃ t ∈ made, t.source = r.source ∧ t.path = r.parentPath) :
    Serves root (made ++ [r]) (p.add r) := by
  have hasked : ∀ (source : HopSource) (place : List String × Relation),
      (∃ t ∈ made ++ [r], t.source = source ∧ t.place = place) ↔
        (∃ t ∈ made, t.source = source ∧ t.place = place) ∨
          r.source = source ∧ r.place = place := by
    intro source place
    simp [or_and_right, exists_or]
  -- a step of another place is asked for by the requests that asked for it before
  have hkept : ∀ s ∈ p.steps, s.place ≠ r.place → ∀ source, s.origin.has source = true ↔
      ∃ t ∈ made ++ [r], t.source = source ∧ t.place = s.place := by
    intro s hs hother source
    rw [hasked, h.origin s hs source, or_iff_left]
    exact fun hsame => hother hsame.2.symm
  obtain ⟨found, hfound⟩ := h.exists_node hr
  have hroot : (p.add r).root = root := by rw [add_root, h.rooted]
  have hdistinct := add_place (r := r) h.distinct
  have hadd := add_cases p r
  generalize p.add r = q at hroot hdistinct hadd
  cases hadd with
  | @shared before after s hsteps hmatch hbefore =>
      have hplace := HopRequest.matchesStep_iff_place.mp hmatch
      have hmem : r.place ∈ made.map HopRequest.place :=
        List.mem_map.mpr (h.mem_steps_place.mp ⟨s, by simp [hsteps], hplace⟩)
      have hsame : (before ++ r.mergeInto s :: after).map Step.place = p.steps.map Step.place := by
        simp [hsteps, HopRequest.mergeInto, Step.place]
      have hstarts := h.starts
      rw [hsteps] at hstarts
      refine ⟨hroot, ?_, hdistinct, ?_, hstarts.update rfl rfl rfl⟩
      · rw [hsame, h.places, List.map_append, List.map_singleton, eraseDups_concat_of_mem hmem]
      · have hnodup := h.distinct
        rw [hsteps, List.map_append, List.map_cons, List.nodup_middle, List.nodup_cons,
          ← List.map_append] at hnodup
        have hother : ∀ t ∈ before ++ after, t.place ≠ r.place := by
          intro t ht heq
          exact hnodup.1 (List.mem_map.mpr ⟨t, ht, heq.trans hplace.symm⟩)
        intro t ht source
        rw [List.mem_append, List.mem_cons] at ht
        rcases ht with ht | rfl | ht
        · exact hkept t (by simp [hsteps, ht]) (hother t (by simp [ht])) source
        · have hold := h.origin s (by simp [hsteps]) source
          have hmerged : (r.mergeInto s).place = s.place := rfl
          rw [hasked, hmerged, ← hold, hplace, HopRequest.mergeInto, HopOrigin.has_add]
          simp
        · exact hkept t (by simp [hsteps, ht]) (hother t (by simp [ht])) source
  | @opened parent hnew hparent =>
      have hother : ∀ s ∈ p.steps, s.place ≠ r.place := by
        intro s hs heq
        have hmatch := HopRequest.matchesStep_iff_place.mpr heq
        rw [hnew s hs] at hmatch
        cases hmatch
      have hunasked : ¬ ∃ t ∈ made, t.place = r.place := by
        rw [← h.mem_steps_place]
        rintro ⟨s, hs, heq⟩
        exact hother s hs heq
      refine ⟨hroot, ?_, hdistinct, ?_, h.starts.concat ?_⟩
      · have hnone : r.place ∉ made.map HopRequest.place := by
          rwa [List.mem_map]
        rw [List.map_append, h.places, List.map_append, List.map_singleton, List.map_singleton,
          eraseDups_concat_of_not_mem hnone]
        rfl
      · intro t ht source
        rcases List.mem_append.mp ht with ht | ht
        · exact hkept t ht (hother t ht) source
        · obtain rfl := List.mem_singleton.mp ht
          have hopened : (r.opened (p.aliases.fresh (Alias.child parent r.key)) parent).place =
              r.place := rfl
          rw [hasked, hopened, HopRequest.opened, HopOrigin.has_ofSource, decide_eq_true_eq]
          constructor
          · exact fun hsource => .inr ⟨hsource, rfl⟩
          · rintro (⟨t, ht, -, heq⟩ | ⟨hsource, -⟩)
            · exact (hunasked ⟨t, ht, heq⟩).elim
            · exact hsource
      · refine ⟨r.parentPath, r.segment, rfl, ?_⟩
        obtain ⟨hpath, hnode⟩ | ⟨s, hs, hpath, -, hnode⟩ := findNode?_cases hparent
        · exact .inl ⟨hpath, hnode.trans (by rw [h.rooted])⟩
        · exact .inr ⟨s, hs, hpath, hnode⟩
  | dropped hnew hmissing =>
      rw [hfound] at hmissing
      cases hmissing

end Serves

-- Requests of one source, each of which starts from a path reached so far.
def Grounded (source : HopSource) (reached : List (List String)) : List HopRequest → Prop
  | [] => True
  | r :: rest => r.source = source ∧ r.parentPath ∈ reached ∧
      Grounded source (r.path :: reached) rest

namespace Grounded

variable {source : HopSource} {reached : List (List String)} {requests : List HopRequest}

theorem mono (h : Grounded source reached requests) {more : List (List String)}
    (hmore : reached ⊆ more) : Grounded source more requests := by
  induction requests generalizing reached more with
  | nil => trivial
  | cons r rest ih =>
      obtain ⟨hsource, hparent, hrest⟩ := h
      exact ⟨hsource, hmore hparent, ih hrest (List.cons_subset_cons _ hmore)⟩

theorem append (h : Grounded source reached requests) {more : List HopRequest}
    (hmore : Grounded source reached more) : Grounded source reached (requests ++ more) := by
  induction requests generalizing reached with
  | nil => exact hmore
  | cons r rest ih =>
      obtain ⟨hsource, hparent, hrest⟩ := h
      exact ⟨hsource, hparent, ih hrest (hmore.mono (List.subset_cons_self _ _))⟩

end Grounded

-- No request that is grounded is left out.
theorem Serves.foldl_add {root : Root} {made requests : List HopRequest} {p : Planning}
    {source : HopSource} {reached : List (List String)} (h : Serves root made p)
    (hreached : ∀ path ∈ reached, path = [] ∨ ∃ t ∈ made, t.source = source ∧ t.path = path)
    (hrequests : Grounded source reached requests) :
    Serves root (made ++ requests) (requests.foldl Planning.add p) := by
  induction requests generalizing made p reached with
  | nil => rwa [List.append_nil]
  | cons r rest ih =>
      obtain ⟨rfl, hparent, hrest⟩ := hrequests
      have hadded := h.add (hreached r.parentPath hparent)
      have hnext : ∀ path ∈ r.path :: reached,
          path = [] ∨ ∃ t ∈ made ++ [r], t.source = r.source ∧ t.path = path := by
        intro path hpath
        rcases List.mem_cons.mp hpath with rfl | hpath
        · exact .inr ⟨r, by simp, rfl, rfl⟩
        · obtain hnil | ⟨t, ht, hsource, heq⟩ := hreached path hpath
          · exact .inl hnil
          · exact .inr ⟨t, by simp [ht], hsource, heq⟩
      have hall := ih hadded hnext hrest
      rwa [List.append_assoc] at hall

end Planning

namespace HopRequest

-- The places that one source has asked for.
def placesOf (source : HopSource) (requests : List HopRequest) : List (List String × Relation) :=
  (requests.filter (·.source = source)).map place

variable {source other : HopSource} {requests : List HopRequest} {reached : List (List String)}

theorem mem_placesOf {wanted : List String × Relation} :
    wanted ∈ placesOf source requests ↔ ∃ r ∈ requests, r.source = source ∧ r.place = wanted := by
  simp [placesOf, and_assoc]

theorem placesOf_append (more : List HopRequest) :
    placesOf source (requests ++ more) = placesOf source requests ++ placesOf source more := by
  simp [placesOf]

theorem placesOf_grounded (h : Planning.Grounded source reached requests) :
    placesOf other requests = if source = other then requests.map place else [] := by
  induction requests generalizing reached with
  | nil => simp [placesOf]
  | cons r rest ih =>
      obtain ⟨hsource, -, hrest⟩ := h
      have htail := ih hrest
      unfold placesOf at htail ⊢
      by_cases hother : source = other
      · simp_all
      · simp_all

end HopRequest

end CypherCompiler
