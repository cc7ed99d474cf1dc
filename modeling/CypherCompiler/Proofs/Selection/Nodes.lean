import CypherCompiler.Request.Basic

namespace CypherCompiler.Selection

mutual

-- A selection with everything below it.
def nodes : Selection → List Selection
  | ⟨name, aliasName, arguments, selections⟩ =>
    ⟨name, aliasName, arguments, selections⟩ :: nodesOfAll selections

def nodesOfAll : List Selection → List Selection
  | [] => []
  | s :: rest => nodes s ++ nodesOfAll rest

end

theorem nodes_eq (s : Selection) : s.nodes = s :: nodesOfAll s.selections := by
  cases s
  rw [nodes]

theorem mem_nodes_self (s : Selection) : s ∈ s.nodes := by
  rw [nodes_eq]
  exact List.mem_cons_self

theorem nodesOfAll_selections_subset (s : Selection) : nodesOfAll s.selections ⊆ s.nodes := by
  rw [nodes_eq]
  exact List.subset_cons_self s _

theorem nodes_subset_nodesOfAll {s : Selection} {selections : List Selection}
    (hs : s ∈ selections) : s.nodes ⊆ nodesOfAll selections := by
  induction selections with
  | nil => cases hs
  | cons t rest ih =>
      rw [nodesOfAll]
      rcases List.mem_cons.mp hs with rfl | hs
      · exact List.subset_append_left _ _
      · exact List.Subset.trans (ih hs) (List.subset_append_right _ _)

-- What is everywhere below a selection is everywhere below those that it selects.
theorem nodes_subset_of_mem {s t : Selection} (ht : t ∈ s.selections) : t.nodes ⊆ s.nodes :=
  List.Subset.trans (nodes_subset_nodesOfAll ht) (nodesOfAll_selections_subset s)

end CypherCompiler.Selection
