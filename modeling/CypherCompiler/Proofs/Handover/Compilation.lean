import CypherCompiler.Proofs.Handover.Mutation
import CypherCompiler.Proofs.Outcome.Compilation

namespace CypherCompiler

open Cypher

-- Lists that are related one for one: every member of one has a partner in the other.
theorem forall₂_covers {α β : Type} {R : α → β → Prop} {as : List α} {bs : List β}
    (h : List.Forall₂ R as bs) :
    (∀ a ∈ as, ∃ b ∈ bs, R a b) ∧ ∀ b ∈ bs, ∃ a ∈ as, R a b := by
  induction h with
  | nil => simp
  | @cons a b as bs hab _ ih =>
      obtain ⟨hleft, hright⟩ := ih
      refine ⟨List.forall_mem_cons.mpr ⟨⟨b, List.mem_cons_self, hab⟩, fun c hc => ?_⟩,
        List.forall_mem_cons.mpr ⟨⟨a, List.mem_cons_self, hab⟩, fun c hc => ?_⟩⟩
      · obtain ⟨d, hd, hcd⟩ := hleft c hc
        exact ⟨d, List.mem_cons_of_mem b hd, hcd⟩
      · obtain ⟨d, hd, hdc⟩ := hright c hc
        exact ⟨d, List.mem_cons_of_mem a hd, hdc⟩

-- A value itself and everything in its lists, however deep.
inductive Json.Within : Json → Json → Prop
  | self (v : Json) : Within v v
  | item {items : List Json} {v w : Json} (hitem : v ∈ items) (h : Within w v) :
      Within w (.arr items)

namespace Scalar

mutual

-- No number and no truth value is left of an id, also not in a list of lists.
theorem ne_of_within_normalize_id (v : Json) {w : Json} (h : w.Within (id.normalize v)) :
    (∀ n, w ≠ .number n) ∧ ∀ b, w ≠ .bool b := by
  cases v with
  | arr items =>
      rw [normalize] at h
      cases h with
      | self => exact ⟨by simp, by simp⟩
      | item hitem hwithin => exact ne_of_within_normalizeAll_id items hitem hwithin
  | number | bool =>
      rw [normalize, if_pos rfl] at h
      cases h
      exact ⟨by simp, by simp⟩
  | null | str | obj =>
      rw [normalize] at h
      · cases h
        exact ⟨by simp, by simp⟩
      all_goals simp
termination_by sizeOf v

theorem ne_of_within_normalizeAll_id (items : List Json) {v w : Json}
    (hitem : v ∈ id.normalizeAll items) (h : w.Within v) :
    (∀ n, w ≠ .number n) ∧ ∀ b, w ≠ .bool b := by
  cases items with
  | nil => cases hitem
  | cons item rest =>
      rw [normalizeAll] at hitem
      obtain rfl | hitem := List.mem_cons.mp hitem
      · exact ne_of_within_normalize_id item h
      · exact ne_of_within_normalizeAll_id rest hitem h
termination_by sizeOf items

end

end Scalar

namespace Request

variable {r : Request} {catalog : Catalog} {config : Config} {plan : StatementPlan}

-- The statement uses the values of its request one for one.
theorem compile_handsOver (h : r.compile catalog config = .ok plan) :
    List.Forall₂ (HandedOver catalog plan.parameters) (r.givenValues catalog config)
      plan.statement.uses := by
  obtain ⟨type, d, htype, -, hstatement, hparameters⟩ := compile_cases h
  have hfound := type?_of_rootType htype
  obtain ⟨hmem, -⟩ := Catalog.type?_eq_some hfound
  rw [givenValues, htype, hparameters]
  obtain ⟨hquery, query, hplan, hread⟩ | ⟨hcount, query, hplan, hread⟩ | hmutation :=
    statement_cases hstatement
  · obtain ⟨found, hroot, hhanded⟩ :=
      Selection.readQuery_handsOver (by simp) hread (.refl d.parameters) []
    obtain rfl : found = type := Option.some.inj (hroot.symm.trans hfound)
    rw [hplan, hquery]
    exact hhanded
  · rw [hplan, hcount]
    exact Selection.countQuery_handsOver hfound hread (.refl d.parameters) []
  · exact Mutation.statement_handsOver hmem (Mutation.statement_cases hmutation)
      (.refl d.parameters)

-- Whatever is compared with, matched on or written to an id is text, and the same value is handed
-- over as the same text whichever part of a request gives it.
theorem compile_normalizesIds (h : r.compile catalog config = .ok plan) :
    (∀ use ∈ plan.statement.uses, ∃ subject, use.subject = some subject ∧
      (subject.IsId catalog → ∃ v, plan.parameters.get? use.parameter = some v ∧
        ∀ w : Json, w.Within v → (∀ n, w ≠ .number n) ∧ ∀ b, w ≠ .bool b)) ∧
    ∀ given ∈ r.givenValues catalog config, given.subject.IsId catalog →
      ∃ use ∈ plan.statement.uses, use.subject = some given.subject ∧
        use.purpose = given.purpose ∧
        plan.parameters.get? use.parameter = some (Scalar.id.normalize given.value) := by
  obtain ⟨hfrom, hto⟩ := forall₂_covers (compile_handsOver h)
  refine ⟨fun use huse => ?_, fun given hgiven hid => ?_⟩
  · obtain ⟨given, -, hused⟩ := hto use huse
    exact ⟨given.subject, hused.subject, fun hid => ⟨_, hused.text hid, fun w hw =>
      Scalar.ne_of_within_normalize_id given.value hw⟩⟩
  · obtain ⟨use, huse, hused⟩ := hfrom given hgiven
    exact ⟨use, huse, hused.subject, hused.purpose, hused.text hid⟩

-- A request for cinemas, whose ids are texts.
def cinemaRequest (operation : Operation) (arguments : Json.Members) : Request :=
  ⟨operation, ⟨"cinema", none, arguments, [⟨"id", none, [], []⟩]⟩, some "Cinema", [], ⟨[]⟩⟩

def numberedCinema : Json := .obj [("id", .ofInt 7)]

def cinemaFilter : Json := .obj [("id_in", .arr [.bool true, .ofInt 7])]

-- A cinema whose id was written as a number is found by that number: in an argument, among others
-- in a filter, and as a key.
theorem compile_normalizesIds_numberedCinema :
    (∃ plan, (cinemaRequest .create [("data", numberedCinema)]).compile Predicate.cinemas
        .default = .ok plan ∧ plan.parameters.get? "data_id" = some (.str "7")) ∧
    (∃ plan, (cinemaRequest .query [("id", .ofInt 7), ("filter", cinemaFilter)]).compile
        Predicate.cinemas .default = .ok plan ∧
      plan.parameters.get? "id" = some (.str "7") ∧
      plan.parameters.get? "filter_id_in" = some (.arr [.str "true", .str "7"])) ∧
    ∃ plan, (cinemaRequest .delete [("where", numberedCinema)]).compile Predicate.cinemas
        .default = .ok plan ∧ plan.parameters.get? "where_id" = some (.str "7") := by
  have hid : (Subject.property "Cinema" "id").IsId Predicate.cinemas :=
    ⟨Predicate.cinemaType, _, rfl, rfl, rfl⟩
  refine ⟨?_, ?_, ?_⟩
  · obtain ⟨plan, hplan⟩ : ∃ plan, (cinemaRequest .create [("data", numberedCinema)]).compile
        Predicate.cinemas .default = .ok plan := ⟨_, rfl⟩
    obtain ⟨-, hgiven⟩ := compile_normalizesIds hplan
    obtain ⟨use, huse, -, -, htext⟩ := hgiven _ (.head _) hid
    cases hplan
    obtain rfl := List.mem_singleton.mp huse
    exact ⟨_, rfl, htext⟩
  · obtain ⟨plan, hplan⟩ : ∃ plan, (cinemaRequest .query [("id", .ofInt 7),
        ("filter", cinemaFilter)]).compile Predicate.cinemas .default = .ok plan := ⟨_, rfl⟩
    obtain ⟨-, hgiven⟩ := compile_normalizesIds hplan
    obtain ⟨test, htest, -, hequal, hnumber⟩ := hgiven _ (.head _) hid
    obtain ⟨filter, hfilter, -, hamong, hnumbers⟩ := hgiven _ (.tail _ (.head _)) hid
    cases hplan
    -- the purposes tell the two parameters apart
    obtain rfl | htest := List.mem_cons.mp htest
    · obtain rfl | hfilter := List.mem_cons.mp hfilter
      · cases hamong
      · obtain rfl := List.mem_singleton.mp hfilter
        exact ⟨_, rfl, hnumber, hnumbers⟩
    · obtain rfl := List.mem_singleton.mp htest
      cases hequal
  · obtain ⟨plan, hplan⟩ : ∃ plan, (cinemaRequest .delete [("where", numberedCinema)]).compile
        Predicate.cinemas .default = .ok plan := ⟨_, rfl⟩
    obtain ⟨-, hgiven⟩ := compile_normalizesIds hplan
    obtain ⟨use, huse, -, -, htext⟩ := hgiven _ (.head _) hid
    cases hplan
    obtain rfl := List.mem_singleton.mp huse
    exact ⟨_, rfl, htext⟩

end Request

end CypherCompiler
