import CypherCompiler.Proofs.Syntax.Lexeme

namespace CypherCompiler.Syntax

-- Tokens with their brackets matched.
inductive Tree where
  | leaf (token : Token)
  | group (bracket : Bracket) (inside : List Tree)
  deriving Repr

mutual

def Tree.lexemes : Tree → List Lexeme
  | .leaf token => [.token token]
  | .group bracket inside => .opens bracket :: (lexemesOf inside ++ [.closes bracket])

def lexemesOf : List Tree → List Lexeme
  | [] => []
  | t :: rest => t.lexemes ++ lexemesOf rest

end

-- Match the brackets. The groups that are still open stand on a stack, each with the trees in
-- front of it.
def balance? : List (List Tree × Bracket) → List Tree → List Lexeme → Option (List Tree)
  | [], current, [] => some current
  | _ :: _, _, [] => none
  | stack, current, .token t :: rest => balance? stack (current ++ [.leaf t]) rest
  | stack, current, .opens bracket :: rest => balance? ((current, bracket) :: stack) [] rest
  | [], _, .closes _ :: _ => none
  | (outer, opened) :: stack, current, .closes bracket :: rest =>
    if opened = bracket then balance? stack (outer ++ [.group bracket current]) rest else none

def trees? (text : String) : Option (List Tree) :=
  (lexemes? text).bind (balance? [] [])

@[simp]
theorem lexemesOf_nil : lexemesOf [] = [] := rfl

@[simp]
theorem lexemesOf_append (ts us : List Tree) :
    lexemesOf (ts ++ us) = lexemesOf ts ++ lexemesOf us := by
  induction ts with
  | nil => rfl
  | cons t rest ih => rw [List.cons_append, lexemesOf, lexemesOf, ih, List.append_assoc]

@[simp]
theorem lexemesOf_leaf (token : Token) (ts : List Tree) :
    lexemesOf (.leaf token :: ts) = .token token :: lexemesOf ts := rfl

@[simp]
theorem lexemesOf_group (bracket : Bracket) (inside ts : List Tree) :
    lexemesOf (.group bracket inside :: ts) =
      .opens bracket :: (lexemesOf inside ++ .closes bracket :: lexemesOf ts) := by
  rw [lexemesOf, Tree.lexemes, List.cons_append, List.append_assoc, List.singleton_append]

mutual

-- What is written of a tree is matched to the tree again, wherever it stands.
theorem balance?_lexemes (t : Tree) (stack : List (List Tree × Bracket)) (current : List Tree)
    (rest : List Lexeme) :
    balance? stack current (t.lexemes ++ rest) = balance? stack (current ++ [t]) rest := by
  cases t with
  | leaf token =>
      rw [Tree.lexemes, List.singleton_append, balance?.eq_def]
      cases stack <;> rfl
  | group bracket inside =>
      have hopens : balance? stack current (.opens bracket ::
          (lexemesOf inside ++ [.closes bracket] ++ rest)) =
            balance? ((current, bracket) :: stack) []
              (lexemesOf inside ++ [.closes bracket] ++ rest) := by
        rw [balance?.eq_def]
        cases stack <;> rfl
      rw [Tree.lexemes, List.cons_append, hopens, List.append_assoc, balance?_lexemesOf inside,
        List.nil_append, List.singleton_append, balance?, if_pos rfl]

theorem balance?_lexemesOf (ts : List Tree) (stack : List (List Tree × Bracket))
    (current : List Tree) (rest : List Lexeme) :
    balance? stack current (lexemesOf ts ++ rest) = balance? stack (current ++ ts) rest := by
  cases ts with
  | nil => simp [lexemesOf]
  | cons t more =>
      rw [lexemesOf, List.append_assoc, balance?_lexemes t, balance?_lexemesOf more,
        List.append_assoc,
        List.singleton_append]

end

theorem trees?_eq {text : String} {ts : List Tree} (h : Reads text (lexemesOf ts)) :
    trees? text = some ts := by
  have hmatch := balance?_lexemesOf ts [] [] []
  rw [List.append_nil, List.nil_append] at hmatch
  rw [trees?, h.lexemes?_eq, Option.bind_some, hmatch]
  rfl

end CypherCompiler.Syntax
