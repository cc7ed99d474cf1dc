import CypherCompiler.Proofs.Lockstep.Step
import CypherCompiler.Proofs.Lockstep.Value

namespace CypherCompiler

open Json

-- Arguments of the same shape, with the same bounds, order and grouping.
structure Argument.Alike (as bs : Json.Members) : Prop where
  members : AlikeMembers as bs
  fixed : ∀ name ∈ [Argument.first, Argument.offset, Argument.orderBy, Argument.groupBy],
    as.get? name = bs.get? name

mutual

-- Selections that differ in the values of their arguments only.
inductive Selection.Alike : Selection → Selection → Prop
  | mk {name : String} {aliasName : Option String} {as bs : Json.Members}
      {ss ts : List Selection} (harguments : Argument.Alike as bs)
      (hselections : Selection.AlikeAll ss ts) :
      Alike ⟨name, aliasName, as, ss⟩ ⟨name, aliasName, bs, ts⟩

inductive Selection.AlikeAll : List Selection → List Selection → Prop
  | nil : AlikeAll [] []
  | cons {s t : Selection} {ss ts : List Selection} (h : Selection.Alike s t)
      (hrest : Selection.AlikeAll ss ts) : AlikeAll (s :: ss) (t :: ts)

end

namespace Selection.Alike

variable {s t : Selection}

theorem name_eq (h : Alike s t) : s.name = t.name := by
  cases h
  rfl

theorem responseKey_eq (h : Alike s t) : s.responseKey = t.responseKey := by
  cases h
  rfl

theorem arguments (h : Alike s t) : Argument.Alike s.arguments t.arguments := by
  cases h with
  | mk harguments => exact harguments

theorem selections (h : Alike s t) : AlikeAll s.selections t.selections := by
  cases h with
  | mk _ hselections => exact hselections

theorem argument?_cases (h : Alike s t) (name : String) :
    (s.argument? name = none ∧ t.argument? name = none) ∨
      ∃ v w, s.argument? name = some v ∧ t.argument? name = some w ∧ Json.Alike v w := by
  unfold argument?
  obtain ⟨hs, ht⟩ | ⟨v, w, hs, ht, hvw⟩ := h.arguments.members.get?_cases name
  · exact .inl ⟨by rw [hs, Option.filter_none], by rw [ht, Option.filter_none]⟩
  · rw [hs, ht]
    by_cases hnull : w.isNull = true
    · exact .inl ⟨by simp [hvw.isNull_eq, hnull], by simp [hnull]⟩
    · exact .inr ⟨v, w, by simp [hvw.isNull_eq, hnull], by simp [hnull], hvw⟩

theorem argument?_eq (h : Alike s t) {name : String}
    (hname : name ∈ [Argument.first, Argument.offset, Argument.orderBy, Argument.groupBy]) :
    s.argument? name = t.argument? name := by
  unfold argument?
  rw [h.arguments.fixed name hname]

end Selection.Alike

namespace Predicate

theorem comparison_lockstep (field : Field) (op : Comparator) (key : String) {v w : Json}
    (h : Alike v w) (hops : List String) (path : ParameterPath) :
    HoistsAlike Eq (comparison field op key v hops path) (comparison field op key w hops path) := by
  unfold comparison
  rw [h.isNull_eq]
  by_cases hnull : w.isNull = true
  · simp only [if_pos hnull]
    split
    · exact lockstep_pure rfl
    · exact lockstep_throw _
  · simp only [if_neg hnull]
    have hfits := field.comparedValue?_alike op h
    cases hv : field.comparedValue? op v with
    | none =>
        cases hw : field.comparedValue? op w with
        | none => exact lockstep_throw _
        | some b => simp [hv, hw] at hfits
    | some a =>
        cases hw : field.comparedValue? op w with
        | none => simp [hv, hw] at hfits
        | some b => exact (Hoist.value_lockstep path a b).andThen fun _ => lockstep_pure rfl

variable {catalog : Catalog}

theorem effectiveQuantifier?_alike (quantifier : Quantifier) {v w : Json} (h : Alike v w) :
    effectiveQuantifier? quantifier v = effectiveQuantifier? quantifier w := by
  unfold effectiveQuantifier?
  rw [h.isNull_eq]

mutual

theorem ofMembers_lockstep (type : NodeType) (hops : List String) (negated : Bool)
    (path : ParameterPath) (as bs : List (String × Json)) (h : AlikeMembers as bs) :
    HoistsAlike Eq (ofMembers catalog type hops negated path as)
      (ofMembers catalog type hops negated path bs) := by
  match as, bs, h with
  | [], [], .nil =>
      rw [ofMembers]
      exact lockstep_pure rfl
  | (key, v) :: as, (_, w) :: bs, .cons hv hrest =>
      rw [ofMembers, ofMembers]
      exact (ofMember_lockstep type hops negated path key v w hv).andThen fun _ =>
        (ofMembers_lockstep type hops negated path as bs hrest).andThen fun _ => lockstep_pure rfl
termination_by sizeOf as

-- Which way a member is read depends on its key and on the kind of its value.
theorem ofMember_lockstep (type : NodeType) (hops : List String) (negated : Bool)
    (path : ParameterPath) (key : String) (v w : Json) (h : Alike v w) :
    HoistsAlike Eq (ofMember catalog type hops negated path key v)
      (ofMember catalog type hops negated path key w) := by
  rw [ofMember.eq_def, ofMember.eq_def]
  apply (lockstep_shared _).andThen
  intro k
  cases k with
  | combinator c =>
      cases c with
      | and =>
          cases h with
          | arr hitems =>
              exact (ofItems_lockstep type hops negated path key 0 _ _ hitems).andThen fun _ =>
                lockstep_pure rfl
          | _ => exact lockstep_throw _
      | or =>
          cases h with
          | arr hitems =>
              exact (ofItems_lockstep type hops negated path key 0 _ _ hitems).andThen fun _ =>
                lockstep_pure rfl
          | _ => exact lockstep_throw _
      | not =>
          cases h with
          | obj hmembers =>
              exact (ofMembers_lockstep type hops true (path.child key) _ _ hmembers).andThen
                fun _ => lockstep_pure rfl
          | _ => exact lockstep_throw _
  | comparison field op => exact comparison_lockstep field op key h hops (path.child key)
  | relationship field relation quantifier =>
      apply (lockstep_shared _).andThen
      intro target
      simp only [effectiveQuantifier?_alike quantifier h]
      cases effectiveQuantifier? quantifier w with
      | none => exact lockstep_throw _
      | some effective =>
          cases h with
          | null => exact lockstep_pure rfl
          | obj hmembers =>
              exact (ofMembers_lockstep target _ negated (path.child key) _ _ hmembers).andThen
                fun _ => lockstep_pure rfl
          | _ => exact lockstep_throw _
termination_by sizeOf v

theorem ofItems_lockstep (type : NodeType) (hops : List String) (negated : Bool)
    (path : ParameterPath) (key : String) (index : Nat) (as bs : List Json)
    (h : AlikeItems as bs) :
    HoistsAlike Eq (ofItems catalog type hops negated path key index as)
      (ofItems catalog type hops negated path key index bs) := by
  match as, bs, h with
  | [], [], .nil =>
      rw [ofItems]
      exact lockstep_pure rfl
  | a :: as, b :: bs, .cons hitem hrest =>
      cases hitem with
      | obj hmembers =>
          rw [ofItems, ofItems]
          exact (ofMembers_lockstep type hops negated _ _ _ hmembers).andThen fun _ =>
            (ofItems_lockstep type hops negated path key (index + 1) as bs hrest).andThen fun _ =>
              lockstep_pure rfl
      | _ => exact lockstep_throw _
termination_by sizeOf as

end

variable {type : NodeType} {path : ParameterPath} {strict : Bool}

theorem ofFilter_lockstep {v w : Json} (h : Alike v w) :
    HoistsAlike Eq (ofFilter catalog type path v) (ofFilter catalog type path w) := by
  cases h with
  | obj hmembers => exact ofMembers_lockstep type [] false path _ _ hmembers
  | _ => exact lockstep_throw _

theorem ofArgument_lockstep (name : String) {v w : Json} (h : Alike v w) :
    HoistsAlike Eq (ofArgument type path name v) (ofArgument type path name w) := by
  unfold ofArgument
  split
  · exact (Hoist.value_lockstep _ _ _).andThen fun _ => lockstep_pure rfl
  · cases (type.field? name).filter (·.isProperty) with
    | none => exact lockstep_throw _
    | some field =>
        simp only [h.isArray_eq]
        exact comparison_lockstep field _ name h [] (path.child name)

theorem ofArguments_lockstep {as bs : Json.Members} (h : AlikeMembers as bs) :
    HoistsAlike Eq (ofArguments type path strict as) (ofArguments type path strict bs) := by
  induction as generalizing bs with
  | nil =>
      cases h
      exact lockstep_pure rfl
  | cons a rest ih =>
      cases h with
      | @cons name v w _ _ hv hrest =>
          rw [ofArguments, ofArguments, hv.isNull_eq]
          split
          · exact ih hrest
          · exact (Hoist.orSkip_lockstep (ofArgument_lockstep name hv)).andThen fun _ =>
              (ih hrest).andThen fun _ => lockstep_pure rfl

theorem ofSelection_lockstep {s t : Selection} (h : s.Alike t) :
    HoistsAlike Eq (ofSelection catalog type path strict s)
      (ofSelection catalog type path strict t) := by
  unfold ofSelection
  apply (ofArguments_lockstep h.arguments.members).andThen
  intro tests
  obtain ⟨hs, ht⟩ | ⟨v, w, hs, ht, hvw⟩ := h.argument?_cases Argument.filter
  · simp only [hs, ht]
    exact (lockstep_pure rfl).andThen fun _ => lockstep_pure rfl
  · simp only [hs, ht]
    exact (ofFilter_lockstep hvw).andThen fun _ => lockstep_pure rfl

end Predicate

end CypherCompiler
