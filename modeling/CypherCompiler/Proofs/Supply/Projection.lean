import CypherCompiler.Proofs.Outcome.Projection
import CypherCompiler.Proofs.Supply.Filter

namespace CypherCompiler

open Cypher Parameters

namespace Selection

variable {s : Selection} {setting : Setting} {root : Root} {path : ParameterPath} {d d' : Draft}

theorem value_supplies {v : Json} {name : String}
    (h : Drafting.value path v d = .ok (name, d')) :
    Supplies d.parameters d'.parameters [(path.name, v)] := by
  obtain ⟨hname, hr⟩ := Drafting.value_eq_ok.mp h
  cases hr
  exact .insert hname

theorem readHead_supplies {head : ReadHead}
    (h : s.readHead setting root path d = .ok (head, d')) :
    Supplies d.parameters d'.parameters [] := by
  obtain ⟨search, e, read, -, hsearch, hread, -, -, -⟩ := readHead_cases h
  obtain ⟨type, -, hpredicate, -⟩ := planRead_cases hread
  have hfilter := Predicate.ofSelection_supplies hpredicate
  obtain ⟨-, -, rfl⟩ | ⟨index, v, -, hname, -, rfl⟩ := searchCall_cases hsearch
  · exact hfilter
  · exact (Supplies.insert hname).weaken.then_any hfilter

theorem window_supplies {ps qs : Parameters} {w : Window} (h : s.window path ps = .ok (w, qs)) :
    Supplies ps qs [] := by
  have hbound : ∀ {segment : String} {v : Json} {bound : Option String} {ms ls : Parameters},
      ((bound = none ∧ ls = ms) ∨ ∃ name, bound = some name ∧
        Hoist.value (path.child segment) v ms = .ok (name, ls)) → Supplies ms ls [] := by
    rintro segment v bound ms ls (⟨-, rfl⟩ | ⟨name, -, hv⟩)
    · exact .refl _
    · exact (Hoist.value_supplies hv).weaken
  obtain ⟨p, ms, -, hskip, hlimit⟩ := window_cases h
  exact (hbound hskip).then_any (hbound hlimit)

-- The arguments that are given are taken out, in the order in which the field declares them.
theorem bindArguments_supplies {referenced declared : List String} {arguments : Json.Members}
    {bindings : List (String × Binding)}
    (h : Field.bindArguments referenced arguments path declared d = .ok (bindings, d')) :
    Supplies d.parameters d'.parameters
      (declared.filterMap fun name =>
        (arguments.get? name).map fun v => ((path.child name).name, v)) := by
  induction declared generalizing d bindings with
  | nil =>
      cases bindArguments_nil_eq_ok.mp h
      exact .refl _
  | cons name rest ih =>
      obtain ⟨more, ⟨v, e, hget, hv, hmore, -⟩ | ⟨hget, hmore, -⟩⟩ := bindArguments_cons_cases h
      · rw [List.filterMap_cons_some (by rw [hget]; rfl)]
        exact (value_supplies hv).trans (ih hmore)
      · rw [List.filterMap_cons_none (by rw [hget]; rfl)]
        exact ih hmore

theorem customCall_supplies {field : Field} {statement node : String} {call : CustomCall}
    (h : s.customCall setting field statement node d = .ok (call, d')) :
    Supplies d.parameters d'.parameters [] := by
  obtain ⟨ambient, arguments, e, hambient, -, hbind, -⟩ := customCall_cases h
  obtain ⟨-, -, rfl⟩ | ⟨-, -, rfl⟩ := hambient
  · exact (Supplies.share _ _ _).then_any (bindArguments_supplies hbind).weaken
  · exact (bindArguments_supplies hbind).weaken

theorem readWith_supplies {project : NodeType → Plan → Drafting (List Item)} {query : ReadQuery}
    (h : s.readWith setting root path project d = .ok (query, d'))
    (hproject : ∀ {type : NodeType} {plan : Plan} {e f : Draft} {items : List Item},
      project type plan e = .ok (items, f) → Supplies e.parameters f.parameters []) :
    Supplies d.parameters d'.parameters [] := by
  obtain ⟨head, e, f, items, order, window, hhead, hitems, -, hwindow, -, -⟩ := readWith_cases h
  exact ((readHead_supplies hhead).then_any (hproject hitems)).then_any (window_supplies hwindow)

mutual

-- What was taken out of the request stays where it is while the entries of a map are made.
theorem project_supplies {type : NodeType} {node : String} {plan : Plan} (s : Selection)
    {d d' : Draft} {item : Item} (h : s.project setting type node plan d = .ok (item, d')) :
    Supplies d.parameters d'.parameters [] := by
  have hsize := sizeOf_selections_lt s
  cases project_cases h with
  | related _ _ _ hquery =>
      exact readWith_supplies hquery fun hitems => projectAll_supplies s.selections hitems
  | computed _ _ _ hcall => exact customCall_supplies hcall
  | computedNodes _ _ _ hcall _ hplan hitems =>
      obtain ⟨-, hparameters⟩ := planSelections_cases hplan
      have hinner := projectAll_supplies s.selections hitems
      rw [hparameters] at hinner
      exact (customCall_supplies hcall).then_any hinner
  | _ => exact .refl _
termination_by sizeOf s

theorem projectAll_supplies {type : NodeType} {node : String} {plan : Plan}
    (selections : List Selection) {d d' : Draft} {items : List Item}
    (h : projectAll setting type node plan selections d = .ok (items, d')) :
    Supplies d.parameters d'.parameters [] := by
  match selections, h with
  | [], h =>
      cases projectAll_nil_eq_ok.mp h
      exact .refl _
  | s :: rest, h =>
      obtain ⟨item, more, e, hitem, hmore, rfl⟩ := projectAll_cons_cases h
      exact (project_supplies s hitem).then_any (projectAll_supplies rest hmore)
termination_by sizeOf selections

end

end Selection

end CypherCompiler
