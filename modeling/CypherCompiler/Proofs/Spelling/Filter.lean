import CypherCompiler.Proofs.Text.PlainNames

namespace CypherCompiler

open Text

namespace Text

-- A name made of segments: a plain identifier, then words and any of the keys as they are.
def SpelledBy (keys : List String) (n : String) : Prop :=
  ∃ first rest, isPlainIdentifier first = true ∧ n = String.intercalate "_" (first :: rest) ∧
    ∀ segment ∈ rest, IsWord segment ∨ segment ∈ keys

namespace SpelledBy

variable {keys : List String} {n segment : String}

theorem of_plain (h : isPlainIdentifier n = true) : SpelledBy keys n :=
  ⟨n, [], h, by simp, by simp⟩

theorem append (h : SpelledBy keys n) (hsegment : IsWord segment ∨ segment ∈ keys) :
    SpelledBy keys (n ++ "_" ++ segment) := by
  obtain ⟨first, rest, hfirst, rfl, hrest⟩ := h
  refine ⟨first, rest ++ [segment], hfirst, ?_, ?_⟩
  · rw [← List.cons_append, String.intercalate_append_of_ne_nil (by simp) (by simp),
      String.intercalate_singleton]
  · intro other hother
    rcases List.mem_append.mp hother with hother | hother
    · exact hrest other hother
    · exact List.mem_singleton.mp hother ▸ hsegment

theorem fresh {base : String} (h : SpelledBy keys base) (r : AliasRegistry) :
    SpelledBy keys (r.fresh base) := by
  obtain ⟨n, -, hn, -, -⟩ := r.exists_candidate_eq_fresh base
  rw [hn]
  cases n with
  | zero => exact h
  | succ n => exact h.append (.inl (isWord_toString _))

-- Keys that are words leave nothing else in a name.
theorem isPlainIdentifier (h : SpelledBy keys n) (hkeys : AreWords keys) :
    isPlainIdentifier n = true := by
  obtain ⟨first, rest, hfirst, rfl, hrest⟩ := h
  have hwords : (⟨rest⟩ : ParameterPath).IsPlain :=
    fun segment hsegment => (hrest segment hsegment).elim id (hkeys segment)
  by_cases hnil : rest = []
  · rw [hnil, String.intercalate_singleton]
    exact hfirst
  · rw [String.intercalate_cons_of_ne_nil hnil, String.append_assoc]
    apply isPlainIdentifier_append hfirst
    exact (isWord_of_all (by decide)).append hwords.isWord_name

end SpelledBy

end Text

namespace ParameterPath

variable {keys : List String} {p : ParameterPath} {segment : String}

-- A path at which values have names made of segments.
def SpelledBy (keys : List String) (p : ParameterPath) : Prop :=
  p.segments ≠ [] ∧ Text.SpelledBy keys p.name

theorem SpelledBy.child (h : p.SpelledBy keys) (hsegment : IsWord segment ∨ segment ∈ keys) :
    (p.child segment).SpelledBy keys := by
  refine ⟨by simp [ParameterPath.child], ?_⟩
  rw [name, ParameterPath.child, String.intercalate_append_of_ne_nil h.1 (by simp),
    String.intercalate_singleton]
  exact h.2.append hsegment

theorem SpelledBy.indexed (h : p.SpelledBy keys) (hsegment : IsWord segment) (index : Nat) :
    (p.indexed segment index).SpelledBy keys :=
  h.child (.inl ((hsegment.append (isWord_of_all (by decide))).append (isWord_toString index)))

theorem spelledBy_below {node : String} (h : Text.SpelledBy keys node) :
    (below node).SpelledBy keys :=
  ⟨by simp [below], by simpa [below, name] using h⟩

-- A path below which values have names made of segments: the empty path is one as well.
def OpensTo (keys : List String) (p : ParameterPath) : Prop :=
  ∀ segment, isPlainIdentifier segment = true → (p.child segment).SpelledBy keys

theorem opensTo_root : root.OpensTo keys := by
  intro segment hsegment
  refine ⟨by simp [child], ?_⟩
  simpa [root, child, name] using Text.SpelledBy.of_plain hsegment

theorem SpelledBy.opensTo (h : p.SpelledBy keys) : p.OpensTo keys :=
  fun _ hsegment => h.child (.inl (isWord_of_isPlainIdentifier hsegment))

end ParameterPath

-- A step takes out of the request only names that are made of segments.
def Spells (keys : List String) (ps qs : Parameters) : Prop :=
  ∀ n ∈ qs.names, n ∈ ps.names ∨ SpelledBy keys n

namespace Spells

variable {keys : List String} {ps qs ms : Parameters} {name : String} {v : Json}

theorem refl (ps : Parameters) : Spells keys ps ps := fun _ => .inl

theorem trans (h : Spells keys ps ms) (k : Spells keys ms qs) : Spells keys ps qs :=
  fun n hn => (k n hn).elim (h n) .inr

theorem insert (hname : SpelledBy keys name) : Spells keys ps ⟨ps.members ++ [(name, v)]⟩ := by
  intro n hn
  obtain hn | rfl : n ∈ ps.names ∨ n = name := by
    simpa [Parameters.names, Json.Members.keys] using hn
  · exact .inl hn
  · exact .inr hname

theorem share (hname : SpelledBy keys name) : Spells keys ps (ps.share name v) := by
  unfold Parameters.share
  by_cases hc : ps.contains name = true
  · rw [if_pos hc]
    exact refl ps
  · rw [if_neg hc]
    exact insert hname

end Spells

namespace Predicate

variable {keys : List String} {catalog : Catalog}

theorem comparison_spells {field : Field} {op : Comparator} {key : String} {v : Json}
    {hops : List String} {path : ParameterPath} {ps qs : Parameters} {p : Predicate}
    (hpath : path.SpelledBy keys) (h : comparison field op key v hops path ps = .ok (p, qs)) :
    Spells keys ps qs := by
  obtain ⟨-, -, -, rfl⟩ | ⟨-, value, -, -, -, rfl⟩ := comparison_cases h
  · exact .refl _
  · exact .insert hpath.2

mutual

theorem ofMembers_spells (hcatalog : catalog.HasPlainFields) {type : NodeType}
    (htype : type.HasPlainFields) {path : ParameterPath} (hpath : path.SpelledBy keys)
    {hops : List String} {negated : Bool} (members : List (String × Json)) {ps qs : Parameters}
    {children : List Predicate}
    (h : ofMembers catalog type hops negated path members ps = .ok (children, qs)) :
    Spells keys ps qs := by
  match members, h with
  | [], h =>
      cases ofMembers_nil_eq_ok.mp h
      exact .refl _
  | (key, v) :: rest, h =>
      obtain ⟨p, more, ms, hp, hmore, rfl⟩ := ofMembers_cons_eq_ok.mp h
      exact (ofMember_spells hcatalog htype hpath v hp).trans
        (ofMembers_spells hcatalog htype hpath rest hmore)
termination_by sizeOf members

theorem ofMember_spells (hcatalog : catalog.HasPlainFields) {type : NodeType}
    (htype : type.HasPlainFields) {path : ParameterPath} (hpath : path.SpelledBy keys)
    {hops : List String} {negated : Bool} {key : String} (v : Json) {ps qs : Parameters}
    {p : Predicate}
    (h : ofMember catalog type hops negated path key v ps = .ok (p, qs)) :
    Spells keys ps qs := by
  cases ofMember_cases h with
  | all hkey hitems | any hkey hitems =>
      exact ofItems_spells hcatalog htype hpath (FilterKey.isWord_of_read? htype hkey) _ hitems
  | not hkey hmembers =>
      have hword := FilterKey.isWord_of_read? htype hkey
      exact ofMembers_spells hcatalog htype (hpath.child (.inl hword)) _ hmembers
  | comparison hkey hcompare =>
      exact comparison_spells (hpath.child (.inl (FilterKey.isWord_of_read? htype hkey))) hcompare
  | absent => exact .refl _
  | related hkey htarget hmembers =>
      have hword := FilterKey.isWord_of_read? htype hkey
      exact ofMembers_spells hcatalog (hcatalog.type htarget) (hpath.child (.inl hword)) _ hmembers
termination_by sizeOf v

theorem ofItems_spells (hcatalog : catalog.HasPlainFields) {type : NodeType}
    (htype : type.HasPlainFields) {path : ParameterPath} (hpath : path.SpelledBy keys)
    {hops : List String} {negated : Bool} {key : String} (hkey : IsWord key) {index : Nat}
    (items : List Json) {ps qs : Parameters} {children : List Predicate}
    (h : ofItems catalog type hops negated path key index items ps = .ok (children, qs)) :
    Spells keys ps qs := by
  cases items with
  | nil =>
      cases ofItems_nil_eq_ok.mp h
      exact .refl _
  | cons item rest =>
      obtain ⟨members, inner, more, ms, rfl, hinner, hmore, rfl⟩ := ofItems_cons_cases h
      exact (ofMembers_spells hcatalog htype (hpath.indexed hkey index) members hinner).trans
        (ofItems_spells hcatalog htype hpath hkey rest hmore)
termination_by sizeOf items

end

variable {type : NodeType} {path : ParameterPath} {strict : Bool}

theorem ofArgument_spells (htype : type.HasPlainNames) (hpath : path.OpensTo keys)
    {name : String} {v : Json} {ps qs : Parameters} {p : Predicate}
    (h : ofArgument type path name v ps = .ok (p, qs)) : Spells keys ps qs := by
  obtain ⟨rfl, -, -, rfl⟩ | ⟨field, op, hfield, -, hcompare⟩ := ofArgument_cases h
  · exact .insert (hpath Argument.nodeId (by decide)).2
  · obtain ⟨hmem, rfl⟩ := NodeType.field?_eq_some hfield
    exact comparison_spells (hpath field.name (htype.field field hmem)) hcompare

theorem ofArguments_spells (htype : type.HasPlainNames) (hpath : path.OpensTo keys)
    {arguments : Json.Members} {ps qs : Parameters} {children : List Predicate}
    (h : ofArguments type path strict arguments ps = .ok (children, qs)) : Spells keys ps qs := by
  induction arguments generalizing ps children with
  | nil =>
      cases ofArguments_nil_eq_ok.mp h
      exact .refl _
  | cons argument rest ih =>
      obtain hrest | ⟨p, more, ms, hp, hmore, rfl⟩ := ofArguments_cons_cases h
      · exact ih hrest
      · exact (ofArgument_spells htype hpath hp).trans (ih hmore)

-- The keys of a filter and of equality tests are words, wherever the field that they belong to
-- stands.
theorem ofSelection_spells (hcatalog : catalog.HasPlainNames) (htype : type.HasPlainNames)
    (hpath : path.OpensTo keys) {s : Selection} {ps qs : Parameters} {p : Predicate}
    (h : ofSelection catalog type path strict s ps = .ok (p, qs)) : Spells keys ps qs := by
  obtain ⟨tests, filter, ms, htests, hfilter, rfl⟩ := ofSelection_cases h
  apply (ofArguments_spells htype hpath htests).trans
  obtain ⟨-, -, rfl⟩ | ⟨v, -, hread⟩ := hfilter
  · exact .refl _
  · obtain ⟨members, -, hmembers⟩ := ofFilter_cases hread
    exact ofMembers_spells hcatalog.fields htype.field (hpath Argument.filter (by decide)) members
      hmembers

end Predicate

end CypherCompiler
