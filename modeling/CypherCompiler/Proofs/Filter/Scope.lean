import Mathlib.Data.List.Nodup
import CypherCompiler.Proofs.Outcome.Filter
import CypherCompiler.Proofs.Text.PlainNames

namespace CypherCompiler

-- A type in which no relationship field is called like another one with the ending of a
-- quantifier.
def NodeType.HasDistinctHops (t : NodeType) : Prop :=
  ∀ f ∈ t.fields, ∀ g ∈ t.fields, f.relation?.isSome = true → g.relation?.isSome = true →
    ∀ quantifier : Quantifier, f.name ≠ g.name ++ "_" ++ quantifier.suffix

def Catalog.HasDistinctHops (c : Catalog) : Prop := ∀ t ∈ c.types, t.HasDistinctHops

theorem movies_hasDistinctHops : movies.HasDistinctHops := by
  have hmovie : ∀ f ∈ movieType.fields, ∀ g ∈ movieType.fields, ∀ q : Quantifier,
      f.name ≠ g.name ++ "_" ++ q.suffix := by
    intro f hf g hg q
    cases q <;> revert f g <;> decide
  have hperson : ∀ f ∈ personType.fields, ∀ g ∈ personType.fields, ∀ q : Quantifier,
      f.name ≠ g.name ++ "_" ++ q.suffix := by
    intro f hf g hg q
    cases q <;> revert f g <;> decide
  intro t ht f hf g hg _ _ q
  simp only [movies, List.mem_cons, List.not_mem_nil, or_false] at ht
  rcases ht with rfl | rfl
  · exact hmovie f hf g hg q
  · exact hperson f hf g hg q

theorem NodeType.eq_of_name_eq (t : NodeType) {f g : Field} (hf : f ∈ t.fields)
    (hg : g ∈ t.fields) (h : f.name = g.name) : f = g :=
  List.inj_on_of_nodup_map t.fields_nodup hf hg h

theorem append_suffix_injective {s t : String} {q r : Quantifier}
    (h : s ++ "_" ++ q.suffix = t ++ "_" ++ r.suffix) : s = t := by
  -- the last two characters tell the endings apart
  have hlast : ∀ (u : String) (p : Quantifier),
      (u ++ "_" ++ p.suffix).toList.reverse.take 2 = p.suffix.toList.reverse.take 2 := by
    intro u p
    have htwo : 2 ≤ p.suffix.toList.reverse.length := by
      cases p <;> decide
    rw [String.toList_append, List.reverse_append, List.take_append_of_le_length htwo]
  have hends := congrArg (fun u : String => u.toList.reverse.take 2) h
  simp only [hlast] at hends
  have hq : q = r := by
    cases q <;> cases r <;> first | rfl | exact absurd hends (by decide)
  subst hq
  simpa [String.append_assoc] using h

namespace Predicate

variable {t : NodeType} {f g : Field} {q r : Quantifier} {negated negated' : Bool}

-- A segment tells which relationship a hop follows.
theorem hopSegment_injective (ht : t.HasDistinctHops) (hf : f ∈ t.fields) (hg : g ∈ t.fields)
    (hfr : f.relation?.isSome = true) (hgr : g.relation?.isSome = true)
    (h : hopSegment f.name q negated = hopSegment g.name r negated') : f = g := by
  apply t.eq_of_name_eq hf hg
  unfold hopSegment at h
  split at h
  · split at h
    · exact h
    · exact (ht f hf g hg hfr hgr r h).elim
  · split at h
    · exact (ht g hg f hf hgr hfr q h.symm).elim
    · exact append_suffix_injective h

end Predicate

-- Where the segments of a filter path lead, from the type at its start.
inductive Catalog.Leads (c : Catalog) (root : NodeType) : List String → NodeType → Prop
  | root : Leads c root [] root
  | hop {path : List String} {type target : NodeType} {field : Field} {relation : Relation}
      {quantifier : Quantifier} {negated : Bool} (hpath : Leads c root path type)
      (hfield : field ∈ type.fields) (hrelation : field.relation? = some relation)
      (htarget : c.type? relation.target = some target) :
      Leads c root (path ++ [Predicate.hopSegment field.name quantifier negated]) target

-- The relation behind the last segment of a path.
def Catalog.Follows (c : Catalog) (root : NodeType) (path : List String) (relation : Relation) :
    Prop :=
  ∃ parent type field quantifier negated, c.Leads root parent type ∧ field ∈ type.fields ∧
    field.relation? = some relation ∧
    path = parent ++ [Predicate.hopSegment field.name quantifier negated]

namespace Catalog

variable {c : Catalog} {root : NodeType} {path : List String}

theorem Leads.mem_types (hroot : root ∈ c.types) {type : NodeType}
    (h : c.Leads root path type) : type ∈ c.types := by
  cases h with
  | root => exact hroot
  | hop _ _ _ htarget => exact (type?_eq_some htarget).1

-- A path has one end, because every segment tells its relationship.
theorem Leads.unique (hc : c.HasDistinctHops) (hroot : root ∈ c.types) {type type' : NodeType}
    (h : c.Leads root path type) (h' : c.Leads root path type') : type = type' := by
  induction h generalizing type' with
  | root =>
      generalize hpath : ([] : List String) = path at h'
      cases h' with
      | root => rfl
      | hop => simp at hpath
  | @hop path type target field relation quantifier negated hpath hfield hrelation htarget ih =>
      generalize hwhole : path ++ [Predicate.hopSegment field.name quantifier negated] = whole at h'
      cases h' with
      | root => simp at hwhole
      | hop hpath' hfield' hrelation' htarget' =>
          obtain ⟨rfl, hsegment⟩ := List.append_inj' hwhole rfl
          obtain rfl := ih hpath'
          have hdistinct := hc _ (hpath.mem_types hroot)
          obtain rfl := Predicate.hopSegment_injective hdistinct hfield hfield'
            (by simp [hrelation]) (by simp [hrelation']) (List.singleton_inj.mp hsegment)
          rw [hrelation, Option.some.injEq] at hrelation'
          subst hrelation'
          rw [htarget, Option.some.injEq] at htarget'
          exact htarget'

theorem Follows.unique (hc : c.HasDistinctHops) (hroot : root ∈ c.types)
    {relation relation' : Relation} (h : c.Follows root path relation)
    (h' : c.Follows root path relation') : relation = relation' := by
  obtain ⟨parent, type, field, q, negated, hparent, hfield, hrelation, rfl⟩ := h
  obtain ⟨parent', type', field', r, negated', hparent', hfield', hrelation', hpath⟩ := h'
  obtain ⟨rfl, hsegment⟩ := List.append_inj' hpath rfl
  obtain rfl := hparent.unique hc hroot hparent'
  have hdistinct := hc _ (hparent.mem_types hroot)
  obtain rfl := Predicate.hopSegment_injective hdistinct hfield hfield' (by simp [hrelation])
    (by simp [hrelation']) (List.singleton_inj.mp hsegment)
  rw [hrelation, Option.some.injEq] at hrelation'
  exact hrelation'

end Catalog

namespace Predicate

mutual

-- A predicate on the nodes at the end of a path: its comparisons are made there, and its hops
-- go on from there.
def ScopedAt (path : List String) : Predicate → Prop
  | compare c => c.path = path
  | all children => AllScopedAt path children
  | any children => AllScopedAt path children
  | not child => ScopedAt path child
  | related hop child => (∃ segment, hop.path = path ++ [segment]) ∧ ScopedAt hop.path child

def AllScopedAt (path : List String) : List Predicate → Prop
  | [] => True
  | p :: rest => ScopedAt path p ∧ AllScopedAt path rest

end

theorem comparison_scopedAt {field : Field} {op : Comparator} {key : String} {v : Json}
    {hops : List String} {path : ParameterPath} {ps qs : Parameters} {p : Predicate}
    (h : comparison field op key v hops path ps = .ok (p, qs)) :
    ScopedAt hops p ∧ p.hops = [] := by
  obtain ⟨-, -, rfl, -⟩ | ⟨-, value, -, rfl, -, -⟩ := comparison_cases h <;>
    exact ⟨rfl, rfl⟩

variable {catalog : Catalog} {root : NodeType}

-- Predicates in scope whose hops follow the relationships that their paths stand for.
def InScope (catalog : Catalog) (root : NodeType) (path : List String)
    (children : List Predicate) : Prop :=
  AllScopedAt path children ∧
    ∀ hop ∈ hopsOfAll children, catalog.Follows root hop.path hop.relation

theorem InScope.nil {path : List String} : InScope catalog root path [] :=
  ⟨trivial, by simp [hopsOfAll]⟩

theorem InScope.cons {path : List String} {p : Predicate} {rest : List Predicate}
    (hp : InScope catalog root path [p]) (hrest : InScope catalog root path rest) :
    InScope catalog root path (p :: rest) := by
  obtain ⟨⟨hscope, -⟩, hhops⟩ := hp
  obtain ⟨hscopes, hmore⟩ := hrest
  refine ⟨⟨hscope, hscopes⟩, ?_⟩
  intro hop hmem
  rw [hopsOfAll, List.mem_append] at hmem
  cases hmem with
  | inl hmem => exact hhops hop (by simpa [hopsOfAll] using hmem)
  | inr hmem => exact hmore hop hmem

theorem InScope.all {path : List String} {children : List Predicate}
    (h : InScope catalog root path children) :
    InScope catalog root path [.all children] :=
  ⟨⟨h.1, trivial⟩, by simpa [hopsOfAll, hops] using h.2⟩

theorem InScope.any {path : List String} {children : List Predicate}
    (h : InScope catalog root path children) :
    InScope catalog root path [.any children] :=
  ⟨⟨h.1, trivial⟩, by simpa [hopsOfAll, hops] using h.2⟩

theorem InScope.not {path : List String} {child : Predicate}
    (h : InScope catalog root path [child]) : InScope catalog root path [.not child] :=
  ⟨⟨h.1.1, trivial⟩, by simpa [hopsOfAll, hops] using h.2⟩

theorem InScope.related {path : List String} {segment : String} {field : String}
    {relation : Relation} {quantifier : Quantifier} {child : Predicate}
    (hfollows : catalog.Follows root (path ++ [segment]) relation)
    (h : InScope catalog root (path ++ [segment]) [child]) :
    InScope catalog root path
      [.related ⟨path ++ [segment], field, relation, quantifier⟩ child] := by
  refine ⟨⟨⟨⟨segment, rfl⟩, h.1.1⟩, trivial⟩, ?_⟩
  intro hop hmem
  simp only [hopsOfAll, hops, List.append_nil, List.mem_cons] at hmem
  rcases hmem with rfl | hmem
  · exact hfollows
  · exact h.2 hop (by simpa [hopsOfAll] using hmem)

mutual

theorem ofMembers_inScope {type : NodeType} {hops : List String}
    (hleads : catalog.Leads root hops type)
    {negated : Bool} {path : ParameterPath} (members : List (String × Json))
    {ps qs : Parameters} {children : List Predicate}
    (h : ofMembers catalog type hops negated path members ps = .ok (children, qs)) :
    InScope catalog root hops children := by
  match members, h with
  | [], h =>
      cases ofMembers_nil_eq_ok.mp h
      exact .nil
  | (key, v) :: rest, h =>
      obtain ⟨p, more, ms, hp, hmore, rfl⟩ := ofMembers_cons_eq_ok.mp h
      exact (ofMember_inScope hleads v hp).cons (ofMembers_inScope hleads rest hmore)
termination_by sizeOf members

theorem ofMember_inScope {type : NodeType} {hops : List String}
    (hleads : catalog.Leads root hops type)
    {negated : Bool} {path : ParameterPath} {key : String} (v : Json) {ps qs : Parameters}
    {p : Predicate} (h : ofMember catalog type hops negated path key v ps = .ok (p, qs)) :
    InScope catalog root hops [p] := by
  cases ofMember_cases h with
  | all _ hitems => exact (ofItems_inScope hleads _ hitems).all
  | any _ hitems => exact (ofItems_inScope hleads _ hitems).any
  | not _ hmembers => exact (ofMembers_inScope hleads _ hmembers).all.not
  | comparison _ hcompare =>
      obtain ⟨hscope, hhops⟩ := comparison_scopedAt hcompare
      exact ⟨⟨hscope, trivial⟩, by simp [hopsOfAll, hhops]⟩
  | absent hkey htarget _ =>
      obtain ⟨hfield, hrelation⟩ := FilterKey.relationship_of_read? hkey
      exact .related ⟨hops, type, _, _, negated, hleads, hfield, hrelation, rfl⟩ InScope.nil.all
  | related hkey htarget hmembers =>
      obtain ⟨hfield, hrelation⟩ := FilterKey.relationship_of_read? hkey
      have hinner := ofMembers_inScope (hleads.hop hfield hrelation htarget) _ hmembers
      exact .related ⟨hops, type, _, _, negated, hleads, hfield, hrelation, rfl⟩ hinner.all
termination_by sizeOf v

theorem ofItems_inScope {type : NodeType} {hops : List String}
    (hleads : catalog.Leads root hops type)
    {negated : Bool} {path : ParameterPath} {key : String} {index : Nat} (items : List Json)
    {ps qs : Parameters} {children : List Predicate}
    (h : ofItems catalog type hops negated path key index items ps = .ok (children, qs)) :
    InScope catalog root hops children := by
  match items, h with
  | [], h =>
      cases ofItems_nil_eq_ok.mp h
      exact .nil
  | item :: rest, h =>
      obtain ⟨members, inner, more, ms, rfl, hinner, hmore, rfl⟩ := ofItems_cons_cases h
      exact (ofMembers_inScope hleads members hinner).all.cons (ofItems_inScope hleads rest hmore)
termination_by sizeOf items

end

-- An argument is tested where its field is read, and follows no relationship.
theorem ofArguments_scopedAt {type : NodeType} {path : ParameterPath} {strict : Bool}
    {arguments : List (String × Json)} {ps qs : Parameters} {children : List Predicate}
    (h : ofArguments type path strict arguments ps = .ok (children, qs)) :
    AllScopedAt [] children ∧ hopsOfAll children = [] := by
  induction arguments generalizing ps children with
  | nil =>
      cases ofArguments_nil_eq_ok.mp h
      exact ⟨trivial, rfl⟩
  | cons argument rest ih =>
      obtain hrest | ⟨p, more, ms, hp, hmore, rfl⟩ := ofArguments_cons_cases h
      · exact ih hrest
      · have hfirst : ScopedAt [] p ∧ p.hops = [] := by
          obtain ⟨-, rfl, -⟩ | ⟨field, op, -, -, hcompare⟩ := ofArgument_cases hp
          · exact ⟨rfl, rfl⟩
          · exact comparison_scopedAt hcompare
        obtain ⟨hscope, hhops⟩ := ih hmore
        refine ⟨⟨hfirst.1, hscope⟩, ?_⟩
        rw [hopsOfAll, hfirst.2, hhops, List.append_nil]

theorem InScope.append {path : List String} {children more : List Predicate}
    (h : InScope catalog root path children) (hmore : InScope catalog root path more) :
    InScope catalog root path (children ++ more) := by
  induction children with
  | nil => exact hmore
  | cons child rest ih =>
      obtain ⟨⟨hscope, hscopes⟩, hhops⟩ := h
      rw [hopsOfAll, List.forall_mem_append] at hhops
      refine .cons ⟨⟨hscope, trivial⟩, ?_⟩ (ih ⟨hscopes, hhops.2⟩)
      rw [hopsOfAll, hopsOfAll, List.append_nil]
      exact hhops.1

-- The condition of a read field starts from the nodes that it reads.
theorem ofSelection_inScope {type : NodeType} {path : ParameterPath} {strict : Bool}
    {s : Selection} {ps qs : Parameters} {p : Predicate}
    (h : ofSelection catalog type path strict s ps = .ok (p, qs)) :
    InScope catalog type [] [p] := by
  obtain ⟨tests, filter, ms, htests, hfilter, rfl⟩ := ofSelection_cases h
  obtain ⟨hscopes, hnone⟩ := ofArguments_scopedAt htests
  refine (InScope.append ⟨hscopes, by simp [hnone]⟩ ?_).all
  obtain ⟨-, rfl, -⟩ | ⟨v, -, hv⟩ := hfilter
  · exact .nil
  · obtain ⟨members, -, hmembers⟩ := ofFilter_cases hv
    exact ofMembers_inScope .root members hmembers

theorem ofSelection_follows {type : NodeType} {path : ParameterPath} {strict : Bool}
    {s : Selection} {ps qs : Parameters} {p : Predicate}
    (h : ofSelection catalog type path strict s ps = .ok (p, qs)) :
    ∀ hop ∈ p.hops, catalog.Follows type hop.path hop.relation := by
  have hhops := (ofSelection_inScope h).2
  rwa [hopsOfAll, hopsOfAll, List.append_nil] at hhops

end Predicate

end CypherCompiler
