import CypherCompiler.Proofs.Creation.Relations
import CypherCompiler.Proofs.Filter.KeyReading
import CypherCompiler.Proofs.Graph.Predicate

namespace CypherCompiler

open Cypher Parameters CreatedObject

namespace Parameters.Supplies

variable {ps qs : Parameters} {entries : Json.Members}

theorem of_members (h : Supplies ps qs []) (hmembers : qs.members = ps.members ++ entries) :
    Supplies ps qs entries := by
  obtain ⟨added, hadded, -, hnodup, hfresh⟩ := h
  obtain rfl : added = entries := List.append_cancel_left (hadded.symm.trans hmembers)
  exact ⟨added, hadded, .refl _, hnodup, hfresh⟩

-- A value that was taken out is found under its name.
theorem get? (h : Supplies ps qs entries) {name : String} {v : Json}
    (hmem : (name, v) ∈ entries) : qs.get? name = some v := by
  obtain ⟨added, hadded, hentries, hnodup, hfresh⟩ := h
  have hmem := hentries.subset hmem
  have hnone : ps.members.lookup name = none :=
    get?_eq_none_iff.mpr (hfresh name (List.mem_map_of_mem hmem))
  have hfound : added.lookup name = some v := (FilterKey.lookup_eq_some_iff hnodup).mpr hmem
  rw [Parameters.get?, Json.Members.get?, hadded, List.lookup_append, hnone, hfound]
  rfl

-- Values that were there before are found as before.
theorem toExtends (h : Supplies ps qs entries) : ps.Extends qs := by
  obtain ⟨added, hadded, -⟩ := h
  have hqs : qs = ⟨ps.members ++ added⟩ := by rw [← hadded]
  rw [hqs]
  exact .append _ _

end Parameters.Supplies

-- Entries that are found among the parameters.
def Parameters.Holds (ps : Parameters) (entries : Json.Members) : Prop :=
  ∀ name v, (name, v) ∈ entries → ps.get? name = some v

namespace Parameters.Holds

variable {ps qs : Parameters} {entries : Json.Members}

theorem of_supplies (h : Supplies ps qs entries) : qs.Holds entries :=
  fun _ _ hmem => h.get? hmem

theorem mono (h : ps.Holds entries) (hextends : ps.Extends qs) : qs.Holds entries :=
  fun name v hmem => hextends name v (h name v hmem)

end Parameters.Holds

namespace Mutation

variable {type target : NodeType} {path : ParameterPath} {d d' : Draft}

-- The members of the data that are looked at.
def unskipped (skip : List String) (members : Json.Members) : Json.Members :=
  members.filter fun m => !skip.contains m.1

theorem unskipped_cons (skip : List String) (m : String × Json) (members : Json.Members) :
    unskipped skip (m :: members) =
      if skip.contains m.1 then unskipped skip members else m :: unskipped skip members := by
  rw [unskipped, List.filter_cons]
  cases skip.contains m.1 <;> rfl

-- What is written is what the data store under the keys that are looked at.
theorem properties_writes {skip : List String} {members : Json.Members}
    {written : List (String × Written)}
    (h : properties type path skip members d = .ok (written, d')) :
    written = writtenMembers type path (unskipped skip members) ∧
      Supplies d.parameters d'.parameters
        (suppliedMembers type path (unskipped skip members)) := by
  induction members generalizing d written with
  | nil =>
      cases properties_nil_eq_ok.mp h
      exact ⟨rfl, .refl _⟩
  | cons m rest ih =>
      obtain ⟨key, v⟩ := m
      obtain ⟨hskip, hrest⟩ | ⟨hskip, p, more, e, hp, hmore, rfl⟩ := properties_cons_cases h
      · rw [unskipped_cons, if_pos hskip]
        exact ih hrest
      · obtain ⟨hwritten, hfirst⟩ := property?_creates hp
        obtain ⟨rfl, hrest⟩ := ih hmore
        rw [unskipped_cons, if_neg (by rw [hskip]; simp), writtenMembers_cons,
          suppliedMembers_cons, hwritten]
        exact ⟨rfl, hfirst.trans hrest⟩

theorem createRelated_supplies {parent node : String} {relation : Relation}
    {members : Json.Members} {clause : Clause}
    (h : createRelated parent node relation target path members d = .ok (clause, d')) :
    Supplies d.parameters d'.parameters [] := by
  obtain ⟨written, hwritten, -⟩ := createRelated_cases h
  exact (properties_creates hwritten).2.weaken

theorem matchEach_supplies {operation : NestedOperation}
    {clause : String → List (String × String) → Clause} {base : String} {index : Nat}
    {objects : List Json.Members} {clauses : List Clause}
    (h : matchEach operation clause base target path index objects d = .ok (clauses, d')) :
    Supplies d.parameters d'.parameters [] := by
  induction objects generalizing index d clauses with
  | nil =>
      cases matchEach_nil_eq_ok.mp h
      exact .refl _
  | cons members rest ih =>
      obtain ⟨keys, more, e, hkeys, hmore, -⟩ := matchEach_cons_cases h
      exact (KeyMatch.read_supplies hkeys).then_any (ih hmore)

variable {catalog : Catalog}

mutual

-- What was taken out of the request stays where it is while related nodes are dealt with.
theorem relations_supplies {type : NodeType} {node : String} {level : Level}
    {path : ParameterPath} {skip : List String} (members : List (String × Json))
    {clauses : List Clause} {d d' : Draft}
    (h : relations catalog type node level path skip members d = .ok (clauses, d')) :
    Supplies d.parameters d'.parameters [] := by
  match members, h with
  | [], h =>
      cases relations_nil_eq_ok.mp h
      exact .refl _
  | (key, v) :: rest, h =>
      obtain ⟨here, more, e, hhere, hmore, -⟩ := relations_cons_cases h
      have hrest := relations_supplies rest hmore
      obtain ⟨-, rfl, -⟩ | ⟨field, relation, -, -, -, -, hinput⟩ := hhere
      · exact hrest
      · exact (relationInput_supplies v hinput).then_any hrest
termination_by sizeOf members

theorem relationInput_supplies {field : Field} {relation : Relation} {node : String}
    {level : Level} {path : ParameterPath} (v : Json) {clauses : List Clause} {d d' : Draft}
    (h : relationInput catalog field relation node level path v d = .ok (clauses, d')) :
    Supplies d.parameters d'.parameters [] := by
  obtain ⟨target, -, houtcome⟩ := relationInput_cases h
  cases houtcome with
  | operations _ _ hclauses => exact operations_supplies _ hclauses
  | created _ _ hclause hmore =>
      exact (createRelated_supplies hclause).then_any (relations_supplies _ hmore)
  | createdEach _ _ hclauses => exact createEach_supplies _ hclauses
termination_by sizeOf v

theorem operations_supplies {field : Field} {relation : Relation} {target : NodeType}
    {node : String} {level : Level} {path : ParameterPath} (members : List (String × Json))
    {clauses : List Clause} {d d' : Draft}
    (h : operations catalog field relation target node level path members d =
      .ok (clauses, d')) :
    Supplies d.parameters d'.parameters [] := by
  match members, h with
  | [], h =>
      cases operations_nil_eq_ok.mp h
      exact .refl _
  | (key, v) :: rest, h =>
      obtain ⟨objects, here, more, e, -, houtcome, hmore, -⟩ := operations_cons_cases h
      have hrest := operations_supplies rest hmore
      cases houtcome with
      | create _ hclause hnested =>
          exact ((createRelated_supplies hclause).then_any
            (relations_supplies _ hnested)).then_any hrest
      | createEach _ hclauses => exact (createEach_supplies _ hclauses).then_any hrest
      | connect _ hclauses =>
          rw [connectEach_eq] at hclauses
          exact (matchEach_supplies hclauses).then_any hrest
      | disconnect _ _ hclauses =>
          rw [disconnectEach_eq] at hclauses
          exact (matchEach_supplies hclauses).then_any hrest
termination_by sizeOf members

theorem createEach_supplies {relation : Relation} {target : NodeType}
    {parent base key : String} {path : ParameterPath} {index : Nat} (items : List Json)
    {clauses : List Clause} {d d' : Draft}
    (h : createEach catalog relation target parent base key path index items d =
      .ok (clauses, d')) :
    Supplies d.parameters d'.parameters [] := by
  match items, h with
  | [], h =>
      cases createEach_nil_eq_ok.mp h
      exact .refl _
  | item :: rest, h =>
      obtain ⟨-, hrest⟩ | ⟨members, clause, nested, more, e, f, rfl, hclause, hnested, hmore, -⟩ :=
        createEach_cons_cases h
      · exact createEach_supplies rest hrest
      · exact ((createRelated_supplies hclause).then_any
          (relations_supplies members hnested)).then_any
          (createEach_supplies rest hmore)
termination_by sizeOf items

end

theorem result_supplies {setting : Setting} {node : String} {s : Selection} {items : List Item}
    (h : result setting type node s d = .ok (items, d')) :
    Supplies d.parameters d'.parameters [] := by
  obtain ⟨plan, e, hplan, hprojected⟩ := result_cases h
  obtain ⟨-, hplanned⟩ := Selection.planSelections_cases hplan
  rw [← hplanned]
  exact Selection.projectAll_supplies s.selections hprojected

end Mutation

end CypherCompiler
