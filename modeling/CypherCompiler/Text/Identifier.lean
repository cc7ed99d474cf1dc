namespace CypherCompiler.Text

def isIdentifierStart (c : Char) : Bool := c.isAlpha || c == '_'

def isIdentifierRest (c : Char) : Bool := c.isAlphanum || c == '_'

-- Names that a statement may hold without quotes.
def isPlainIdentifier (s : String) : Bool :=
  match s.toList with
  | [] => false
  | c :: rest => isIdentifierStart c && rest.all isIdentifierRest

-- The names referred to as `$name` in a statement, in order of appearance.
def referencesIn : List Char → List String
  | [] => []
  | '$' :: rest =>
    match rest.takeWhile isIdentifierRest with
    | [] => referencesIn rest
    | c :: cs =>
      if isIdentifierStart c then String.ofList (c :: cs) :: referencesIn rest
      else referencesIn rest
  | _ :: rest => referencesIn rest

def references (statement : String) : List String :=
  referencesIn statement.toList

end CypherCompiler.Text
