import CypherCompiler.Cypher.Pattern
import CypherCompiler.Proofs.Syntax.Tree

namespace CypherCompiler.Syntax

open Cypher

-- A stored property of a node, or the number of the node.
inductive Subject where
  | property (node key : String)
  | identity (node : String)
  deriving DecidableEq, Repr

inductive Left where
  | subject (subject : Subject)
  | distance (subject : Subject) (parameter : String)
  deriving DecidableEq, Repr

-- What a left side is compared with: a parameter, an entry of one, or what a function makes of one
-- or of each of its elements.
inductive Right where
  | parameter (name : String)
  | entry (parameter key : String)
  | call (function parameter : String)
  | each (function parameter : String)
  deriving DecidableEq, Repr

inductive Test where
  | equals
  | fits
  | less
  | lessOrEqual
  | greater
  | greaterOrEqual
  | isIn
  | contains
  | startsWith
  | endsWith
  deriving DecidableEq, Repr

-- The conditions that consist of no other conditions.
inductive Atom where
  | compare (left : Left) (test : Test) (right : Right)
  | isNull (subject : Subject)
  deriving DecidableEq, Repr

inductive Formula where
  | truth (value : Bool)
  | atom (atom : Atom)
  | not (child : Formula)
  | and (left right : Formula)
  | or (left right : Formula)
  | someMatch (hop : Hop) (inner : Formula)
  | oneMatch (hop : Hop) (inner : Formula)
  deriving DecidableEq, Repr

def Tree.is (token : Token) : Tree → Bool
  | .leaf t => t == token
  | .group .. => false

@[simp]
theorem Tree.is_leaf (token t : Token) : (leaf t).is token = (t == token) := rfl

@[simp]
theorem Tree.is_group (token : Token) (bracket : Bracket) (inside : List Tree) :
    (group bracket inside).is token = false := rfl

theorem Tree.is_iff {token : Token} {t : Tree} : t.is token = true ↔ t = .leaf token := by
  cases t <;> simp

def subject? : List Tree → Option Subject
  | [.leaf (.quoted node), .leaf (.key key)] => some (.property node key)
  | [.leaf (.word "ID"), .group .round [.leaf (.quoted node)]] => some (.identity node)
  | _ => none

def left? : List Tree → Option Left
  | [.leaf (.word "distance"), .group .round inside] =>
    match inside.splitOnP (Tree.is (.sign ",")) with
    | [subject, [.leaf (.word "point"),
        .group .round [.leaf (.parameter parameter), .leaf (.key "point")]]] =>
      (subject? subject).map (.distance · parameter)
    | _ => none
  | trees => (subject? trees).map .subject

def right? : List Tree → Option Right
  | [.leaf (.parameter name)] => some (.parameter name)
  | [.leaf (.parameter name), .leaf (.key key)] => some (.entry name key)
  | [.leaf (.word function), .group .round [.leaf (.parameter name)]] => some (.call function name)
  | [.group .square [.leaf (.word "value"), .leaf (.word "IN"), .leaf (.parameter name),
      .leaf (.sign "|"), .leaf (.word function), .group .round [.leaf (.word "value")]]] =>
    some (.each function name)
  | _ => none

def hop? : List Tree → Option Hop
  | [.group .round [.leaf (.quoted parent)], .leaf (.sign "-"),
      .group .square [.leaf (.sign ":"), .leaf (.quoted name)], .leaf (.sign "->"),
      .group .round [.leaf (.quoted child), .leaf (.sign ":"), .leaf (.quoted target)]] =>
    some ⟨parent, ⟨name, .out, target⟩, child⟩
  | [.group .round [.leaf (.quoted parent)], .leaf (.sign "<-"),
      .group .square [.leaf (.sign ":"), .leaf (.quoted name)], .leaf (.sign "-"),
      .group .round [.leaf (.quoted child), .leaf (.sign ":"), .leaf (.quoted target)]] =>
    some ⟨parent, ⟨name, .into, target⟩, child⟩
  | _ => none

-- The tests that are written as one token.
def Test.ofToken? : Token → Option Test
  | .sign "=" => some .equals
  | .sign "=~" => some .fits
  | .sign "<" => some .less
  | .sign "<=" => some .lessOrEqual
  | .sign ">" => some .greater
  | .sign ">=" => some .greaterOrEqual
  | .word "IN" => some .isIn
  | .word "CONTAINS" => some .contains
  | _ => none

-- Whether a test starts here.
def Tree.startsTest : Tree → Bool
  | .leaf t => (Test.ofToken? t).isSome || [.word "STARTS", .word "ENDS", .word "IS"].contains t
  | .group .. => false

def comparison? (left : List Tree) (test : Test) (right : List Tree) : Option Formula := do
  return .atom (.compare (← left? left) test (← right? right))

-- A comparison binds its sides closer than everything else. What is not null is that of which it
-- is not true that it is null.
def atom? (trees : List Tree) : Option Formula :=
  let left := trees.takeWhile (!·.startsTest)
  match trees.dropWhile (!·.startsTest) with
  | [.leaf (.word "IS"), .leaf (.word "NULL")] => (subject? left).map (.atom <| .isNull ·)
  | [.leaf (.word "IS"), .leaf (.word "NOT"), .leaf (.word "NULL")] =>
    (subject? left).map (.not <| .atom <| .isNull ·)
  | .leaf (.word "STARTS") :: .leaf (.word "WITH") :: right => comparison? left .startsWith right
  | .leaf (.word "ENDS") :: .leaf (.word "WITH") :: right => comparison? left .endsWith right
  | .leaf token :: right => (Test.ofToken? token).bind (comparison? left · right)
  | _ => none

-- A tree with what it means where it is a group: a formula, or the body of a nested query.
structure Part where
  tree : Tree
  formula : Option Formula
  query : Option (Hop × Formula)

def primary? : List Part → Option Formula
  | [⟨.group .round _, some formula, _⟩] => some formula
  | [⟨.leaf (.word "true"), _, _⟩] => some (.truth true)
  | [⟨.leaf (.word "false"), _, _⟩] => some (.truth false)
  | [⟨.leaf (.word "EXISTS"), _, _⟩, ⟨.group .curly _, _, some (hop, inner)⟩] =>
    some (.someMatch hop inner)
  | [⟨.leaf (.word "COUNT"), _, _⟩, ⟨.group .curly _, _, some (hop, inner)⟩,
      ⟨.leaf (.sign "="), _, _⟩, ⟨.leaf (.word "1"), _, _⟩] => some (.oneMatch hop inner)
  | parts => atom? (parts.map Part.tree)

-- A negation reaches to the end of its comparison and no further.
def negation? : List Part → Option Formula
  | [] => none
  | part :: rest =>
    if part.tree.is (.word "NOT") then (negation? rest).map .not else primary? (part :: rest)

def chain (join : Formula → Formula → Formula) : Formula → List Formula → Formula
  | first, [] => first
  | first, next :: rest => join first (chain join next rest)

-- The pieces between the words of a connective.
def chain? (join : Formula → Formula → Formula) (read : List Part → Option Formula)
    (connective : String) (parts : List Part) : Option Formula := do
  match ← (parts.splitOnP (·.tree.is (.word connective))).mapM read with
  | [] => none
  | first :: rest => return chain join first rest

def conjunction? (parts : List Part) : Option Formula :=
  chain? .and negation? "AND" parts

-- An alternative binds loosest of all.
def formula? (parts : List Part) : Option Formula :=
  chain? .or conjunction? "OR" parts

-- A hop, with a condition for what it leads to or without one.
def query? : List Part → Option (Hop × Formula)
  | [] => none
  | first :: rest =>
    if first.tree.is (.word "MATCH") then do
      let hop ← hop? ((rest.takeWhile (!·.tree.is (.word "WHERE"))).map Part.tree)
      match rest.dropWhile (!·.tree.is (.word "WHERE")) with
      | [] => return (hop, .truth true)
      | _ :: condition => return (hop, ← formula? condition)
    else none

mutual

def Tree.part : Tree → Part
  | .leaf t => ⟨.leaf t, none, none⟩
  | .group bracket inside =>
    ⟨.group bracket inside, formula? (partsOf inside), query? (partsOf inside)⟩

def partsOf : List Tree → List Part
  | [] => []
  | t :: rest => t.part :: partsOf rest

end

-- What a text says as a condition, by the precedence of its connectives.
def parse? (text : String) : Option Formula :=
  (trees? text).bind fun trees => formula? (partsOf trees)

end CypherCompiler.Syntax
