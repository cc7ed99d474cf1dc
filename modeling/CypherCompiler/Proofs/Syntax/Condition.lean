import CypherCompiler.Proofs.Cypher.References
import CypherCompiler.Proofs.Graph.Condition
import CypherCompiler.Proofs.Syntax.Binding

namespace CypherCompiler

open Cypher

namespace Syntax

theorem joins_left (left : Left) : ∀ t ∈ left.trees, t.joins = false := by
  rcases left with s | ⟨s, parameter⟩
  · cases s <;> simp [Left.trees, Subject.trees, Tree.joins]
  · simp [Left.trees, Tree.joins]

theorem joins_test (test : Test) : ∀ t ∈ test.trees, t.joins = false := by
  cases test <;> simp [Test.trees, Tree.joins]

theorem joins_value (op : Comparator) (parameter : String) (target : CompareTarget) :
    ∀ t ∈ (valueOf op parameter target).trees, t.joins = false := by
  have hconstructor : ∀ compound : Compound,
      compound.constructor ≠ "AND" ∧ compound.constructor ≠ "OR" := by
    intro compound
    cases compound <;> decide
  unfold valueOf
  split
  · simp [Right.trees, Tree.joins]
  · simp [Right.trees, Tree.joins]
  · split <;> simp [Right.trees, Tree.joins, hconstructor]

theorem isBreak_symbol (op : Comparator) : isBreak (" " ++ op.symbol ++ " ") = true := by
  rw [String.append_assoc]
  exact isBreak_append rfl _

theorem binds_compare {left : Left} {test : Test} {right : Right} {s t u : String}
    (hleft : Reads s (lexemesOf left.trees)) (htest : Sealed t (lexemesOf test.trees))
    (hbreak : isBreak t = true) (hright : Reads u (lexemesOf right.trees))
    (hjoins : ∀ t ∈ right.trees, t.joins = false) :
    Binds (s ++ t ++ u) (.atom (.compare left test right)) := by
  refine ⟨left.trees ++ (test.trees ++ right.trees), ?_, ?_, ?_⟩
  · simpa using (hleft.append_sealed hbreak htest).append_reads hright
  · exact List.forall_mem_append.mpr
      ⟨joins_left left, List.forall_mem_append.mpr ⟨joins_test test, hjoins⟩⟩
  · rw [negation?_left, atom?_compare]

-- Distances are compared with an entry of the parameter of which the point is another entry.
theorem binds_distanceText (node : String) (target : CompareTarget) (test : DistanceTest)
    {parameter : String} (h : Text.IsWord parameter) :
    Binds (Expression.compareText node target parameter (.distance test))
      (.atom (comparedAtom node target parameter (.distance test))) := by
  have hparameter := reads_reference h
  have hopen : Sealed "distance(" [.token (.word "distance"), .opens .round] := rfl
  have hpoint : Sealed ", point(" [.token (.sign ","), .token (.word "point"), .opens .round] := rfl
  have hclose : Sealed ".point))" [.token (.key "point"), .closes .round, .closes .round] := rfl
  have hbound : Reads ".distance" [.token (.key "distance")] :=
    ⟨[], .key "distance".toList, _, rfl, rfl, rfl⟩
  have harguments := ((hopen.append_reads (reads_subject node target)).append_sealed rfl
    hpoint).append_reads hparameter
  have hleft : Reads ("distance(" ++ target.subject node ++ ", point(" ++ reference parameter ++
      ".point))") (lexemesOf (Left.distance (subjectOf node target) parameter).trees) := by
    simpa [Left.trees, pointTrees] using (harguments.append_sealed rfl hclose).reads
  have hright : Reads (reference parameter ++ ".distance")
      (lexemesOf (Right.entry parameter "distance").trees) := hparameter.append rfl hbound
  have htext : Expression.compareText node target parameter (.distance test) =
      "distance(" ++ target.subject node ++ ", point(" ++ reference parameter ++ ".point))" ++
        (" " ++ test.symbol ++ " ") ++ (reference parameter ++ ".distance") := by
    have hspaced : ".point)) " = ".point))" ++ " " := rfl
    have hwritten : Expression.compareText node target parameter (.distance test) =
        "distance(" ++ target.subject node ++ ", point(" ++ reference parameter ++ ".point)) " ++
          test.symbol ++ " " ++ reference parameter ++ ".distance" := rfl
    rw [hwritten, hspaced]
    simp only [String.append_assoc]
  rw [htext]
  exact binds_compare hleft (sealed_test (.distance test)) (isBreak_symbol (.distance test)) hright
    (by simp [Right.trees, Tree.joins])

theorem binds_compareText (node : String) (target : CompareTarget) (op : Comparator)
    {parameter : String} (h : Text.IsWord parameter) :
    Binds (Expression.compareText node target parameter op)
      (.atom (comparedAtom node target parameter op)) := by
  have hplain : Binds (target.subject node ++ " " ++ op.symbol ++ " " ++
      target.value op parameter) (.atom (.compare (.subject (subjectOf node target)) (testOf op)
        (valueOf op parameter target))) := by
    simpa [String.append_assoc] using binds_compare (reads_subject node target) (sealed_test op)
      (isBreak_symbol op) (reads_value op target h) (joins_value op parameter target)
  cases op with
  | distance test => exact binds_distanceText node target test h
  | _ => exact hplain

theorem binds_isNull (node : String) (target : CompareTarget) :
    Binds (target.subject node ++ " IS NULL") (.atom (.isNull (subjectOf node target))) := by
  have hnull : Reads " IS NULL" [.token (.word "IS"), .token (.word "NULL")] :=
    ⟨_, .word "NULL".toList, _, rfl, rfl, rfl⟩
  refine ⟨(Left.subject (subjectOf node target)).trees ++
    [.leaf (.word "IS"), .leaf (.word "NULL")], ?_, ?_, ?_⟩
  · simpa [Left.trees] using (reads_subject node target).append rfl hnull
  · exact List.forall_mem_append.mpr ⟨joins_left _, by simp [Tree.joins]⟩
  · rw [negation?_left, Left.trees, atom?_isNull]

theorem binds_isNotNull (node : String) (target : CompareTarget) :
    Binds (target.subject node ++ " IS NOT NULL")
      (.not (.atom (.isNull (subjectOf node target)))) := by
  have hnull : Reads " IS NOT NULL"
      [.token (.word "IS"), .token (.word "NOT"), .token (.word "NULL")] :=
    ⟨_, .word "NULL".toList, _, rfl, rfl, rfl⟩
  refine ⟨(Left.subject (subjectOf node target)).trees ++
    [.leaf (.word "IS"), .leaf (.word "NOT"), .leaf (.word "NULL")], ?_, ?_, ?_⟩
  · simpa [Left.trees] using (reads_subject node target).append rfl hnull
  · exact List.forall_mem_append.mpr ⟨joins_left _, by simp [Tree.joins]⟩
  · rw [negation?_left, Left.trees, atom?_isNotNull]

theorem binds_truth (value : Bool) :
    Binds (if value then "true" else "false") (.truth value) := by
  cases value with
  | true => exact ⟨[.leaf (.word "true")], ⟨[], .word "true".toList, _, rfl, rfl, rfl⟩,
      by simp [Tree.joins], rfl⟩
  | false => exact ⟨[.leaf (.word "false")], ⟨[], .word "false".toList, _, rfl, rfl, rfl⟩,
      by simp [Tree.joins], rfl⟩

end Syntax

namespace Cypher.Condition

open Syntax

-- What a comparison says, by the comparator that is not negated.
def compareFormula (node : String) (target : CompareTarget) (op : Comparator) : Operand → Formula
  | .null =>
    let absent := .atom (.isNull (subjectOf node target))
    if op = .not then .not absent else absent
  | .parameter name =>
    let compared := .atom (comparedAtom node target name op.positive)
    if op.isNegated then .not compared else compared

def relatedFormula (hop : Hop) (quantifier : Quantifier) (vacuous : Bool) (inner : Formula) :
    Formula :=
  match quantifier with
  | .some => .someMatch hop inner
  | .none => .not (.someMatch hop inner)
  | .single => .oneMatch hop inner
  | .every => if vacuous then .truth true else .not (.someMatch hop (.not inner))

mutual

-- The formula that a condition is written as.
def formula : Condition → Formula
  | compare node target op operand => compareFormula node target op operand
  | all [] => .truth true
  | all (c :: rest) => chain .and (formula c) (formulas rest)
  | any [] => .truth false
  | any (c :: rest) => chain .or (formula c) (formulas rest)
  | not child => .not (formula child)
  | related hop quantifier child => relatedFormula hop quantifier child.isVacuous (formula child)

def formulas : List Condition → List Formula
  | [] => []
  | c :: rest => formula c :: formulas rest

end

theorem binds_renderCompare (node : String) (target : CompareTarget) (op : Comparator)
    {operand : Operand} (h : Text.AreWords operand.references) :
    Binds (renderCompare node target op operand) (compareFormula node target op operand) := by
  cases operand with
  | null =>
      have htext : renderCompare node target op .null =
          target.subject node ++ (if op = .not then " IS NOT NULL" else " IS NULL") := rfl
      rw [htext]
      by_cases hop : op = .not
      · simpa [compareFormula, hop] using binds_isNotNull node target
      · simpa [compareFormula, hop] using binds_isNull node target
  | parameter name =>
      have hname : Text.IsWord name := h name List.mem_cons_self
      have hpositive := binds_compareText node target op.positive hname
      cases hnegated : op.isNegated with
      | true =>
          rw [renderCompare_of_isNegated node target name hnegated]
          simpa [compareFormula, hnegated] using hpositive.not
      | false =>
          have hsame : op.positive = op := by
            cases op <;> first | rfl | cases hnegated
          rw [renderCompare_of_not_isNegated node target name hnegated]
          simpa [compareFormula, hnegated, hsame] using hpositive

theorem binds_renderRelated {hop : Hop} (quantifier : Quantifier) {c : Condition}
    (h : Binds c.render c.formula) :
    Binds (renderRelated hop quantifier (if c.isVacuous then none else some c.render))
      (relatedFormula hop quantifier c.isVacuous c.formula) := by
  have hquery : Queries (matching hop (if c.isVacuous then none else some c.render)) hop
      c.formula := by
    by_cases hvacuous : c.isVacuous = true
    · obtain rfl := isVacuous_iff.mp hvacuous
      exact queries_hop hop
    · rw [if_neg hvacuous]
      exact h.denotes.queries hop
  cases quantifier with
  | some => exact hquery.binds_exists
  | none =>
      rw [renderRelated, not_exists_append]
      exact hquery.binds_exists.not
  | single => exact hquery.binds_count
  | every =>
      cases hvacuous : c.isVacuous with
      | true => exact binds_truth true
      | false =>
          simp only [renderRelated, relatedFormula, Bool.false_eq_true, if_false,
            not_exists_append]
          exact (h.not.denotes.queries hop).binds_exists.not

mutual

-- By induction on the condition, its text binds closer than the words that join conditions: what
-- is joined stands in parentheses, and no other text holds such a word outside of brackets.
theorem binds_render (c : Condition) (h : Text.AreWords c.references) :
    Binds c.render c.formula := by
  match c with
  | compare node target op operand =>
      rw [render, formula]
      exact binds_renderCompare node target op h
  | all [] => exact binds_truth true
  | any [] => exact binds_truth false
  | all (c :: rest) =>
      obtain ⟨hc, hrest⟩ := Text.areWords_append.mp h
      rw [render, formula]
      exact ((binds_render c hc).denotes_all (binds_renderAll rest hrest)).parenthesized
  | any (c :: rest) =>
      obtain ⟨hc, hrest⟩ := Text.areWords_append.mp h
      rw [render, formula]
      exact ((binds_render c hc).denotes_any (binds_renderAll rest hrest)).parenthesized
  | not child =>
      have hchild := binds_render child h
      rw [render, formula]
      split
      · exact hchild.not
      · exact hchild.denotes.parenthesized.not
  | related hop quantifier child =>
      rw [render, formula]
      exact binds_renderRelated quantifier (binds_render child h)
termination_by sizeOf c

theorem binds_renderAll (cs : List Condition) (h : Text.AreWords (referencesOfAll cs)) :
    List.Forall₂ Binds (renderAll cs) (formulas cs) := by
  match cs with
  | [] => exact .nil
  | c :: rest =>
      obtain ⟨hc, hrest⟩ := Text.areWords_append.mp h
      exact .cons (binds_render c hc) (binds_renderAll rest hrest)
termination_by sizeOf cs

end

end Cypher.Condition

end CypherCompiler
