import CypherCompiler.Cypher.Condition
import CypherCompiler.Proofs.Syntax.Formula

namespace CypherCompiler.Syntax

open Cypher

-- The trees that the parts of a comparison are written as.
def Subject.trees : Subject → List Tree
  | .property node key => [.leaf (.quoted node), .leaf (.key key)]
  | .identity node => [.leaf (.word "ID"), .group .round [.leaf (.quoted node)]]

def pointTrees (parameter : String) : List Tree :=
  [.leaf (.word "point"), .group .round [.leaf (.parameter parameter), .leaf (.key "point")]]

def Left.trees : Left → List Tree
  | .subject s => s.trees
  | .distance s parameter =>
    [.leaf (.word "distance"),
      .group .round (s.trees ++ .leaf (.sign ",") :: pointTrees parameter)]

def Test.trees : Test → List Tree
  | .equals => [.leaf (.sign "=")]
  | .fits => [.leaf (.sign "=~")]
  | .less => [.leaf (.sign "<")]
  | .lessOrEqual => [.leaf (.sign "<=")]
  | .greater => [.leaf (.sign ">")]
  | .greaterOrEqual => [.leaf (.sign ">=")]
  | .isIn => [.leaf (.word "IN")]
  | .contains => [.leaf (.word "CONTAINS")]
  | .startsWith => [.leaf (.word "STARTS"), .leaf (.word "WITH")]
  | .endsWith => [.leaf (.word "ENDS"), .leaf (.word "WITH")]

def Right.trees : Right → List Tree
  | .parameter name => [.leaf (.parameter name)]
  | .entry name key => [.leaf (.parameter name), .leaf (.key key)]
  | .call function name => [.leaf (.word function), .group .round [.leaf (.parameter name)]]
  | .each function name =>
    [.group .square [.leaf (.word "value"), .leaf (.word "IN"), .leaf (.parameter name),
      .leaf (.sign "|"), .leaf (.word function), .group .round [.leaf (.word "value")]]]

def hopTrees (hop : Hop) : List Tree :=
  let parent := .group .round [.leaf (.quoted hop.parent)]
  let relation := .group .square [.leaf (.sign ":"), .leaf (.quoted hop.relation.name)]
  let child := .group .round
    [.leaf (.quoted hop.child), .leaf (.sign ":"), .leaf (.quoted hop.relation.target)]
  match hop.relation.direction with
  | .out => [parent, .leaf (.sign "-"), relation, .leaf (.sign "->"), child]
  | .into => [parent, .leaf (.sign "<-"), relation, .leaf (.sign "-"), child]

theorem subject?_trees (subject : Subject) : subject? subject.trees = some subject := by
  cases subject <;> rfl

theorem left?_trees (left : Left) : left? left.trees = some left := by
  cases left with
  | subject subject => cases subject <;> rfl
  | distance subject parameter =>
      have hcomma : ∀ t ∈ subject.trees, t.is (.sign ",") = false := by
        cases subject <;> simp [Subject.trees]
      have hsplit : (subject.trees ++ .leaf (.sign ",") :: pointTrees parameter).splitOnP
          (Tree.is (.sign ",")) = [subject.trees, pointTrees parameter] := by
        rw [List.splitOnP_append_cons_of_forall_mem hcomma _ (by simp),
          List.splitOnP_eq_singleton (by simp [pointTrees])]
      simp only [Left.trees, left?, hsplit]
      simp only [pointTrees, subject?_trees, Option.map_some]

theorem right?_trees (right : Right) : right? right.trees = some right := by
  cases right <;> rfl

theorem hop?_trees (hop : Hop) : hop? (hopTrees hop) = some hop := by
  obtain ⟨parent, ⟨name, direction, target⟩, child⟩ := hop
  cases direction <;> rfl

-- A left side ends where its test starts.
theorem startsTest_subject (subject : Subject) :
    ∀ t ∈ subject.trees, (!t.startsTest) = true := by
  cases subject <;> simp [Subject.trees, Tree.startsTest, Test.ofToken?]

theorem startsTest_left (left : Left) : ∀ t ∈ left.trees, (!t.startsTest) = true := by
  cases left with
  | subject s => exact startsTest_subject s
  | distance s parameter => simp [Left.trees, Tree.startsTest, Test.ofToken?]

theorem atom?_compare (left : Left) (test : Test) (right : Right) :
    atom? (left.trees ++ (test.trees ++ right.trees)) =
      some (.atom (.compare left test right)) := by
  have hcompare : comparison? left.trees test right.trees =
      some (.atom (.compare left test right)) := by
    simp [comparison?, left?_trees, right?_trees]
  simp only [atom?, List.takeWhile_append_of_pos (startsTest_left left),
    List.dropWhile_append_of_pos (startsTest_left left)]
  cases test <;> simp [Test.trees, Tree.startsTest, Test.ofToken?, hcompare]

theorem atom?_isNull (subject : Subject) :
    atom? (subject.trees ++ [.leaf (.word "IS"), .leaf (.word "NULL")]) =
      some (.atom (.isNull subject)) := by
  simp only [atom?, List.takeWhile_append_of_pos (startsTest_subject subject),
    List.dropWhile_append_of_pos (startsTest_subject subject)]
  simp [Tree.startsTest, Test.ofToken?, subject?_trees]

theorem atom?_isNotNull (subject : Subject) :
    atom? (subject.trees ++ [.leaf (.word "IS"), .leaf (.word "NOT"), .leaf (.word "NULL")]) =
      some (.not (.atom (.isNull subject))) := by
  simp only [atom?, List.takeWhile_append_of_pos (startsTest_subject subject),
    List.dropWhile_append_of_pos (startsTest_subject subject)]
  simp [Tree.startsTest, Test.ofToken?, subject?_trees]

-- What the text of a comparison stands for.
def subjectOf (node : String) : CompareTarget → Subject
  | .property field _ => .property node field
  | .nodeId => .identity node

def testOf : Comparator → Test
  | .eq | .not | .distance .eq => .equals
  | .isIn | .notIn => .isIn
  | .regexp => .fits
  | .contains | .notContains => .contains
  | .startsWith | .notStartsWith => .startsWith
  | .endsWith | .notEndsWith => .endsWith
  | .lt | .distance .lt => .less
  | .lte | .distance .lte => .lessOrEqual
  | .gt | .distance .gt => .greater
  | .gte | .distance .gte => .greaterOrEqual

def valueOf (op : Comparator) (parameter : String) : CompareTarget → Right
  | .nodeId => .call "toInteger" parameter
  | .property _ none => .parameter parameter
  | .property _ (some compound) =>
    if op.takesList then .each compound.constructor parameter
    else .call compound.constructor parameter

-- A comparison without the negation that stands in front of it.
def comparedAtom (node : String) (target : CompareTarget) (parameter : String) : Comparator → Atom
  | .distance test =>
    .compare (.distance (subjectOf node target) parameter) (testOf (.distance test))
      (.entry parameter "distance")
  | op => .compare (.subject (subjectOf node target)) (testOf op) (valueOf op parameter target)

theorem reads_subject (node : String) (target : CompareTarget) :
    Reads (target.subject node) (lexemesOf (subjectOf node target).trees) := by
  have hnode := reads_quoteIdentifier node
  cases target with
  | property field compound =>
      have hbreak : isBreak ("." ++ propertyKey field) = true := isBreak_append rfl _
      simpa [CompareTarget.subject, propertyRead, String.append_assoc, subjectOf, Subject.trees]
        using hnode.append hbreak (reads_propertyKey field)
  | nodeId =>
      have hopen : Sealed "ID(" [.token (.word "ID"), .opens .round] := rfl
      have hclose : Sealed ")" [.closes .round] := rfl
      simpa [CompareTarget.subject, subjectOf, Subject.trees]
        using ((hopen.append_reads hnode).append_sealed rfl hclose).reads

theorem reads_value (op : Comparator) (target : CompareTarget) {parameter : String}
    (h : Text.IsWord parameter) :
    Reads (target.value op parameter) (lexemesOf (valueOf op parameter target).trees) := by
  have hparameter := reads_reference h
  have hclose : Sealed ")" [.closes .round] := rfl
  have hcall : ∀ compound : Compound, Sealed (compound.constructor ++ "(")
      [.token (.word compound.constructor), .opens .round] := by
    intro compound
    cases compound <;> rfl
  unfold CompareTarget.value valueOf
  split
  · have hopen : Sealed "toInteger(" [.token (.word "toInteger"), .opens .round] := rfl
    simpa [Right.trees] using ((hopen.append_reads hparameter).append_sealed rfl hclose).reads
  · simpa [Right.trees] using hparameter
  · rename_i compound
    split
    · have hopen : Sealed "[value IN "
          [.opens .square, .token (.word "value"), .token (.word "IN")] := rfl
      have hbar : Sealed " | " [.token (.sign "|")] := rfl
      have hvalue : Sealed "value)]"
          [.token (.word "value"), .closes .round, .closes .square] := rfl
      have hlist := (hopen.append_reads hparameter).append_sealed rfl hbar
      simpa [Right.trees, String.append_assoc] using
        ((hlist.append (hcall compound)).append hvalue).reads
    · simpa [Right.trees, String.append_assoc] using
        (((hcall compound).append_reads hparameter).append_sealed rfl hclose).reads

theorem sealed_test (op : Comparator) :
    Sealed (" " ++ op.symbol ++ " ") (lexemesOf (testOf op).trees) := by
  cases op with
  | distance test => cases test <;> rfl
  | _ => rfl

theorem sealed_hop (hop : Hop) : Sealed hop.render (lexemesOf (hopTrees hop)) := by
  obtain ⟨parent, ⟨name, direction, target⟩, child⟩ := hop
  have hopen : Sealed "(" [.opens .round] := rfl
  have hclose : Sealed ")" [.closes .round] := rfl
  have hcolon : Sealed ":" [.token (.sign ":")] := rfl
  have hlabel := hcolon.append ((reads_quoteIdentifier target).append_sealed rfl hclose)
  have hchild := hopen.append
    ((reads_quoteIdentifier child).append_sealed (isBreak_append rfl _) hlabel)
  have hparent := (hopen.append_reads (reads_quoteIdentifier parent)).append_sealed rfl hclose
  have hname : Sealed "[:" [.opens .square, .token (.sign ":")] := rfl
  have hrelation := hname.append_reads (reads_quoteIdentifier name)
  cases direction with
  | out =>
      have hline : Reads "-" [.token (.sign "-")] := ⟨[], .sign ['-'], _, rfl, rfl, rfl⟩
      have harrow : Reads "]->" [.closes .square, .token (.sign "->")] :=
        ⟨[.closes .square], .sign ['-', '>'], _, rfl, rfl, rfl⟩
      have htail := hrelation.append_sealed (isBreak_append rfl _)
        (harrow.append_sealed (isBreak_append rfl _) hchild)
      have hwhole := hparent.append
        (hline.append_sealed (isBreak_append (isBreak_append rfl _) _) htail)
      simpa [Hop.render, nodePattern, labelList, Hop.continuation, arrow, hopTrees,
        String.append_assoc] using hwhole
  | into =>
      have harrow : Reads "<-" [.token (.sign "<-")] := ⟨[], .sign ['<', '-'], _, rfl, rfl, rfl⟩
      have hline : Reads "]-" [.closes .square, .token (.sign "-")] :=
        ⟨[.closes .square], .sign ['-'], _, rfl, rfl, rfl⟩
      have htail := hrelation.append_sealed (isBreak_append rfl _)
        (hline.append_sealed (isBreak_append rfl _) hchild)
      have hwhole := hparent.append
        (harrow.append_sealed (isBreak_append (isBreak_append rfl _) _) htail)
      simpa [Hop.render, nodePattern, labelList, Hop.continuation, arrow, hopTrees,
        String.append_assoc] using hwhole

end CypherCompiler.Syntax
