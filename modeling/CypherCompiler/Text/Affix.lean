namespace CypherCompiler.Text

-- What stands before an ending.
def beforeSuffix? (s ending : String) : Option String :=
  if ending.toList.isSuffixOf s.toList then
    some (String.ofList (s.toList.take (s.toList.length - ending.toList.length)))
  else none

-- What stands after a beginning.
def afterPrefix? (s beginning : String) : Option String :=
  if beginning.toList.isPrefixOf s.toList then
    some (String.ofList (s.toList.drop beginning.toList.length))
  else none

-- The pieces between the separators. There is one piece more than there are separators.
def splitAt (separator : Char) : List Char → List (List Char)
  | [] => [[]]
  | c :: rest =>
    if c = separator then [] :: splitAt separator rest
    else match splitAt separator rest with
      | [] => [[c]]
      | piece :: pieces => (c :: piece) :: pieces

def pieces (s : String) (separator : Char) : List String :=
  (splitAt separator s.toList).map String.ofList

end CypherCompiler.Text
