import CypherCompiler.Proofs.Graph.Filter

namespace CypherCompiler

-- Every value is found under its name later on.
def Parameters.Extends (ps qs : Parameters) : Prop :=
  ∀ name v, ps.get? name = some v → qs.get? name = some v

namespace Parameters.Extends

variable {ps ms qs : Parameters}

theorem refl (ps : Parameters) : ps.Extends ps := fun _ _ h => h

theorem trans (h : ps.Extends ms) (k : ms.Extends qs) : ps.Extends qs :=
  fun name v hv => k name v (h name v hv)

theorem append (ps : Parameters) (more : Json.Members) : ps.Extends ⟨ps.members ++ more⟩ := by
  intro name v h
  unfold get? Json.Members.get? at h ⊢
  rw [List.lookup_append, h]
  rfl

end Parameters.Extends

-- A value taken out under a name of its own is found there.
theorem Parameters.get?_append {ps : Parameters} {name : String} (hname : name ∉ ps.names)
    (v : Json) : (⟨ps.members ++ [(name, v)]⟩ : Parameters).get? name = some v := by
  have hnone : ps.members.lookup name = none := get?_eq_none_iff.mpr hname
  unfold get? Json.Members.get?
  simp [List.lookup_append, hnone]

namespace Predicate

variable (g : Graph)

mutual

-- The truth of a predicate on a node, before its hops are given names.
def Holds (ps : Parameters) : Predicate → g.Node → Prop
  | compare c, n => g.PassesOperand ps n c.target c.op c.operand
  | all children, n => AllHold ps children n
  | any children, n => SomeHolds ps children n
  | not child, n => ¬ Holds ps child n
  | related hop child, n => g.Related hop.relation hop.quantifier n (Holds ps child)

def AllHold (ps : Parameters) : List Predicate → g.Node → Prop
  | [], _ => True
  | p :: rest, n => Holds ps p n ∧ AllHold ps rest n

def SomeHolds (ps : Parameters) : List Predicate → g.Node → Prop
  | [], _ => False
  | p :: rest, n => Holds ps p n ∨ SomeHolds ps rest n

end

-- A reading keeps the values that were taken out before it, and what it gives holds, whatever
-- is taken out later, where the filter is met.
structure Expresses (ps qs : Parameters) (holds : ∀ g : Graph, Parameters → g.Node → Prop)
    (meets : ∀ g : Graph, g.Node → Prop) : Prop where
  keeps : ps.Extends qs
  iff : ∀ (g : Graph) (final : Parameters) (n : g.Node), qs.Extends final →
    (holds g final n ↔ meets g n)

-- A reading that is put into another one keeps its values, and is met where it was.
theorem Expresses.congr {ps qs : Parameters}
    {holds holds' : ∀ g : Graph, Parameters → g.Node → Prop}
    {meets meets' : ∀ g : Graph, g.Node → Prop}
    (h : Expresses ps qs holds meets)
    (hsame : ∀ (g : Graph) (final : Parameters), (∀ n, holds g final n ↔ meets g n) →
      ∀ n, holds' g final n ↔ meets' g n) : Expresses ps qs holds' meets' :=
  ⟨h.keeps, fun g final n hfinal => hsame g final (fun m => h.iff g final m hfinal) n⟩

theorem comparison_expresses {field : Field} {op : Comparator} {key : String} {v : Json}
    {hops : List String} {path : ParameterPath} {ps qs : Parameters} {p : Predicate}
    (h : comparison field op key v hops path ps = .ok (p, qs)) :
    Expresses ps qs (fun g final => Holds g final p) (fun g => g.MeetsComparison field op v) := by
  obtain ⟨hnull, -, rfl, rfl⟩ | ⟨hnull, value, hvalue, rfl, hname, rfl⟩ := comparison_cases h
  · refine ⟨.refl _, ?_⟩
    intro g final n _
    simp [Holds, Graph.PassesOperand, Graph.MeetsComparison, hnull]
  · refine ⟨.append _ _, ?_⟩
    intro g final n hfinal
    have hfound := hfinal _ _ (Parameters.get?_append hname value)
    simp [Holds, Graph.PassesOperand, Graph.MeetsComparison, hnull, hvalue, hfound]

variable {catalog : Catalog}

mutual

theorem ofMembers_expresses {type : NodeType} {hops : List String} {negated : Bool}
    {path : ParameterPath} (members : List (String × Json)) {ps qs : Parameters}
    {children : List Predicate}
    (h : ofMembers catalog type hops negated path members ps = .ok (children, qs)) :
    Expresses ps qs (fun g final => AllHold g final children)
      (fun g => g.Meets catalog type members) := by
  match members, h with
  | [], h =>
      cases ofMembers_nil_eq_ok.mp h
      refine ⟨.refl _, ?_⟩
      intro g final n _
      rw [AllHold, Graph.Meets]
  | (key, v) :: rest, h =>
      obtain ⟨p, more, ms, hp, hmore, rfl⟩ := ofMembers_cons_eq_ok.mp h
      have hfirst := ofMember_expresses v hp
      have hrest := ofMembers_expresses rest hmore
      refine ⟨hfirst.keeps.trans hrest.keeps, ?_⟩
      intro g final n hfinal
      rw [AllHold, Graph.Meets]
      exact and_congr (hfirst.iff g final n (hrest.keeps.trans hfinal))
        (hrest.iff g final n hfinal)
termination_by sizeOf members

theorem ofMember_expresses {type : NodeType} {hops : List String} {negated : Bool}
    {path : ParameterPath} {key : String} (v : Json) {ps qs : Parameters} {p : Predicate}
    (h : ofMember catalog type hops negated path key v ps = .ok (p, qs)) :
    Expresses ps qs (fun g final => Holds g final p)
      (fun g => g.MeetsMember catalog type key v) := by
  cases ofMember_cases h with
  | all hkey hitems =>
      refine (ofItems_expresses _ hitems).1.congr ?_
      intro g final hsame n
      rw [Holds, Graph.MeetsMember.eq_def, hkey]
      exact hsame n
  | any hkey hitems =>
      refine (ofItems_expresses _ hitems).2.congr ?_
      intro g final hsame n
      rw [Holds, Graph.MeetsMember.eq_def, hkey]
      exact hsame n
  | not hkey hmembers =>
      refine (ofMembers_expresses _ hmembers).congr ?_
      intro g final hsame n
      rw [Holds, Holds, Graph.MeetsMember.eq_def, hkey]
      exact not_congr (hsame n)
  | comparison hkey hcompare =>
      refine (comparison_expresses hcompare).congr ?_
      intro g final hsame n
      rw [Graph.MeetsMember.eq_def, hkey]
      exact hsame n
  | @absent field relation quantifier target flipped _ hkey htarget hflip =>
      refine ⟨.refl _, ?_⟩
      intro g final n _
      rw [Holds, Graph.MeetsMember.eq_def, hkey]
      cases quantifier <;> cases hflip <;>
        simp [Graph.Related, Graph.MeetsAbsence, Holds, AllHold]
  | related hkey htarget hmembers =>
      refine (ofMembers_expresses _ hmembers).congr ?_
      intro g final hsame n
      have hinner : Holds g final (.all _) = g.Meets catalog _ _ :=
        funext fun m => propext (hsame m)
      rw [Holds, Graph.MeetsMember.eq_def, hkey, hinner]
      simp only [htarget]
termination_by sizeOf v

theorem ofItems_expresses {type : NodeType} {hops : List String} {negated : Bool}
    {path : ParameterPath} {key : String} {index : Nat} (items : List Json) {ps qs : Parameters}
    {children : List Predicate}
    (h : ofItems catalog type hops negated path key index items ps = .ok (children, qs)) :
    Expresses ps qs (fun g final => AllHold g final children)
        (fun g => g.MeetsAll catalog type items) ∧
      Expresses ps qs (fun g final => SomeHolds g final children)
        (fun g => g.MeetsAny catalog type items) := by
  match items, h with
  | [], h =>
      cases ofItems_nil_eq_ok.mp h
      refine ⟨⟨.refl _, ?_⟩, ⟨.refl _, ?_⟩⟩
      · intro g final n _
        rw [AllHold, Graph.MeetsAll]
      · intro g final n _
        rw [SomeHolds, Graph.MeetsAny]
  | item :: rest, h =>
      obtain ⟨members, inner, more, ms, rfl, hinner, hmore, rfl⟩ := ofItems_cons_cases h
      have hfirst := ofMembers_expresses members hinner
      obtain ⟨hall, hany⟩ := ofItems_expresses rest hmore
      refine ⟨⟨hfirst.keeps.trans hall.keeps, ?_⟩, ⟨hfirst.keeps.trans hany.keeps, ?_⟩⟩
      · intro g final n hfinal
        rw [AllHold, Graph.MeetsAll, Holds]
        exact and_congr (hfirst.iff g final n (hall.keeps.trans hfinal)) (hall.iff g final n hfinal)
      · intro g final n hfinal
        rw [SomeHolds, Graph.MeetsAny, Holds]
        exact or_congr (hfirst.iff g final n (hany.keeps.trans hfinal)) (hany.iff g final n hfinal)
termination_by sizeOf items

end

theorem ofFilter_expresses {type : NodeType} {path : ParameterPath} {filter : Json}
    {ps qs : Parameters} {children : List Predicate}
    (h : ofFilter catalog type path filter ps = .ok (children, qs)) :
    Expresses ps qs (fun g final => AllHold g final children)
      (fun g => g.MeetsFilter catalog type filter) := by
  obtain ⟨members, rfl, hmembers⟩ := ofFilter_cases h
  exact ofMembers_expresses members hmembers

end Predicate

end CypherCompiler
