import CypherCompiler.Text.Identifier

namespace CypherCompiler.Cypher

-- A backtick inside a quoted identifier is written twice.
def escapeBackticks : List Char → List Char
  | [] => []
  | c :: rest => if c = '`' then '`' :: '`' :: escapeBackticks rest else c :: escapeBackticks rest

def quoteIdentifier (name : String) : String :=
  String.ofList ('`' :: escapeBackticks name.toList ++ ['`'])

-- The key of a map or of a property: bare where that is possible.
def propertyKey (name : String) : String :=
  if Text.isPlainIdentifier name then name else quoteIdentifier name

def propertyRead (node field : String) : String :=
  quoteIdentifier node ++ "." ++ propertyKey field

def escapeLiteral : List Char → List Char
  | [] => []
  | '\\' :: rest => '\\' :: '\\' :: escapeLiteral rest
  | '"' :: rest => '\\' :: '"' :: escapeLiteral rest
  | '\n' :: rest => '\\' :: 'n' :: escapeLiteral rest
  | '\r' :: rest => '\\' :: 'r' :: escapeLiteral rest
  | '\t' :: rest => '\\' :: 't' :: escapeLiteral rest
  | c :: rest => c :: escapeLiteral rest

-- Text of the schema, such as the name of an index. Values of a request never become one.
def stringLiteral (text : String) : String :=
  String.ofList ('"' :: escapeLiteral text.toList ++ ['"'])

def reference (parameter : String) : String :=
  "$" ++ parameter

-- Text between braces.
def braced (text : String) : String :=
  "\x7b" ++ text ++ "\x7d"

def commaList (items : List String) : String :=
  String.intercalate ", " items

end CypherCompiler.Cypher
