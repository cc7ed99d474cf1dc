import CypherCompiler.Proofs.Outcome.Filter

namespace CypherCompiler

-- Values were taken out of the request, each under a name that was not in use. The entries are
-- among them, in this order.
structure Parameters.Supplies (ps qs : Parameters) (entries : Json.Members) : Prop where
  added : ∃ added, qs.members = ps.members ++ added ∧ entries.Sublist added ∧
    (added.map Prod.fst).Nodup ∧ ∀ name ∈ added.map Prod.fst, name ∉ ps.names

namespace Parameters.Supplies

variable {ps qs ms : Parameters} {entries more : Json.Members} {name : String} {v : Json}

theorem refl (ps : Parameters) : Supplies ps ps [] :=
  ⟨[], by simp⟩

theorem trans (h : Supplies ps ms entries) (k : Supplies ms qs more) :
    Supplies ps qs (entries ++ more) := by
  obtain ⟨first, hms, hentries, hfirst, hfresh⟩ := h
  obtain ⟨second, hqs, hmore, hsecond, hnew⟩ := k
  -- what came second was new among what came first
  have hapart : ∀ name ∈ second.map Prod.fst, name ∉ ps.names ∧ name ∉ first.map Prod.fst := by
    intro name hname
    simpa [Parameters.names, Json.Members.keys, hms] using hnew name hname
  refine ⟨first ++ second, by rw [hqs, hms, List.append_assoc], hentries.append hmore, ?_, ?_⟩
  · rw [List.map_append, List.nodup_append]
    exact ⟨hfirst, hsecond, fun a ha b hb heq => (hapart b hb).2 (heq ▸ ha)⟩
  · intro name hname
    rw [List.map_append, List.mem_append] at hname
    exact hname.elim (hfresh name) fun hn => (hapart name hn).1

-- Nothing is said about what else was taken out.
theorem weaken (h : Supplies ps qs entries) : Supplies ps qs [] := by
  obtain ⟨added, hqs, -, hnodup, hfresh⟩ := h
  exact ⟨added, hqs, List.nil_sublist _, hnodup, hfresh⟩

theorem then_any (h : Supplies ps ms entries) (k : Supplies ms qs []) :
    Supplies ps qs entries := by
  simpa using h.trans k

theorem insert (hname : name ∉ ps.names) :
    Supplies ps ⟨ps.members ++ [(name, v)]⟩ [(name, v)] :=
  ⟨[(name, v)], by simp [hname]⟩

theorem share (ps : Parameters) (name : String) (v : Json) : Supplies ps (ps.share name v) [] := by
  unfold Parameters.share
  by_cases hc : ps.contains name = true
  · rw [if_pos hc]
    exact refl ps
  · rw [if_neg hc]
    exact (insert (mt contains_iff.mpr hc)).weaken

theorem subset (h : Supplies ps qs entries) : entries ⊆ qs.members := by
  obtain ⟨added, hqs, hentries, -, -⟩ := h
  rw [hqs]
  exact List.Subset.trans hentries.subset (List.subset_append_right _ _)

theorem nodup (h : Supplies ps qs entries) : (entries.map Prod.fst).Nodup := by
  obtain ⟨added, -, hentries, hnodup, -⟩ := h
  exact (hentries.map Prod.fst).nodup hnodup

end Parameters.Supplies

open Parameters

theorem Hoist.value_supplies {path : ParameterPath} {v : Json} {ps qs : Parameters}
    {name : String} (h : Hoist.value path v ps = .ok (name, qs)) :
    Supplies ps qs [(path.name, v)] := by
  obtain ⟨hname, hr⟩ := Hoist.value_eq_ok.mp h
  cases hr
  exact .insert hname

namespace Predicate

variable {catalog : Catalog}

theorem comparison_supplies {field : Field} {op : Comparator} {key : String} {v : Json}
    {hops : List String} {path : ParameterPath} {ps qs : Parameters} {p : Predicate}
    (h : comparison field op key v hops path ps = .ok (p, qs)) : Supplies ps qs [] := by
  obtain ⟨-, -, -, rfl⟩ | ⟨-, value, -, -, hname, rfl⟩ := comparison_cases h
  · exact .refl _
  · exact (Supplies.insert hname).weaken

mutual

theorem ofMembers_supplies {type : NodeType} {path : ParameterPath} {hops : List String}
    {negated : Bool} (members : List (String × Json)) {ps qs : Parameters}
    {children : List Predicate}
    (h : ofMembers catalog type hops negated path members ps = .ok (children, qs)) :
    Supplies ps qs [] := by
  match members, h with
  | [], h =>
      cases ofMembers_nil_eq_ok.mp h
      exact .refl _
  | (key, v) :: rest, h =>
      obtain ⟨p, more, ms, hp, hmore, rfl⟩ := ofMembers_cons_eq_ok.mp h
      exact (ofMember_supplies v hp).then_any (ofMembers_supplies rest hmore)
termination_by sizeOf members

theorem ofMember_supplies {type : NodeType} {path : ParameterPath} {hops : List String}
    {negated : Bool} {key : String} (v : Json) {ps qs : Parameters} {p : Predicate}
    (h : ofMember catalog type hops negated path key v ps = .ok (p, qs)) :
    Supplies ps qs [] := by
  cases ofMember_cases h with
  | all _ hitems | any _ hitems => exact ofItems_supplies _ hitems
  | not _ hmembers | related _ _ hmembers => exact ofMembers_supplies _ hmembers
  | comparison _ hcompare => exact comparison_supplies hcompare
  | absent => exact .refl _
termination_by sizeOf v

theorem ofItems_supplies {type : NodeType} {path : ParameterPath} {hops : List String}
    {negated : Bool} {key : String} {index : Nat} (items : List Json) {ps qs : Parameters}
    {children : List Predicate}
    (h : ofItems catalog type hops negated path key index items ps = .ok (children, qs)) :
    Supplies ps qs [] := by
  cases items with
  | nil =>
      cases ofItems_nil_eq_ok.mp h
      exact .refl _
  | cons item rest =>
      obtain ⟨members, inner, more, ms, rfl, hinner, hmore, rfl⟩ := ofItems_cons_cases h
      exact (ofMembers_supplies members hinner).then_any (ofItems_supplies rest hmore)
termination_by sizeOf items

end

variable {type : NodeType} {path : ParameterPath} {strict : Bool}

theorem ofArgument_supplies {name : String} {v : Json} {ps qs : Parameters} {p : Predicate}
    (h : ofArgument type path name v ps = .ok (p, qs)) : Supplies ps qs [] := by
  obtain ⟨rfl, -, hname, rfl⟩ | ⟨field, op, -, -, hcompare⟩ := ofArgument_cases h
  · exact (Supplies.insert hname).weaken
  · exact comparison_supplies hcompare

theorem ofArguments_supplies {arguments : Json.Members} {ps qs : Parameters}
    {children : List Predicate}
    (h : ofArguments type path strict arguments ps = .ok (children, qs)) : Supplies ps qs [] := by
  induction arguments generalizing ps children with
  | nil =>
      cases ofArguments_nil_eq_ok.mp h
      exact .refl _
  | cons argument rest ih =>
      obtain hrest | ⟨p, more, ms, hp, hmore, rfl⟩ := ofArguments_cons_cases h
      · exact ih hrest
      · exact (ofArgument_supplies hp).then_any (ih hmore)

theorem ofSelection_supplies {s : Selection} {ps qs : Parameters} {p : Predicate}
    (h : ofSelection catalog type path strict s ps = .ok (p, qs)) : Supplies ps qs [] := by
  obtain ⟨tests, filter, ms, htests, hfilter, rfl⟩ := ofSelection_cases h
  refine (ofArguments_supplies htests).then_any ?_
  obtain ⟨-, -, rfl⟩ | ⟨v, -, hread⟩ := hfilter
  · exact .refl _
  · obtain ⟨members, -, hmembers⟩ := ofFilter_cases hread
    exact ofMembers_supplies members hmembers

end Predicate

end CypherCompiler
