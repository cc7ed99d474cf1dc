import CypherCompiler.Cypher.Statement

namespace CypherCompiler.Cypher

def SearchCall.render (c : SearchCall) : String :=
  "CALL db.index.fulltext.queryNodes(" ++ stringLiteral c.index ++ ", " ++
    reference c.parameter ++ ") YIELD node AS " ++ quoteIdentifier c.node ++ ", score AS " ++
    quoteIdentifier c.score

def Source.render (s : Source) : String :=
  let call := match s.search with
    | some c => c.render ++ " "
    | none => ""
  let condition :=
    if s.conditions.isEmpty then ""
    else " WHERE " ++ String.intercalate " AND " (Condition.renderAll s.conditions)
  call ++ "MATCH " ++ s.pattern.render ++ condition

def OrderTerm.render (t : OrderTerm) : String :=
  let read := match t.read with
    | .property node field => propertyRead node field
    | .nodeId node => "ID(" ++ quoteIdentifier node ++ ")"
    | .score name => quoteIdentifier name
  read ++ (if t.descending then " DESC" else " ASC")

-- The ordering, if there is any.
def renderOrder? (order : List OrderTerm) : Option String :=
  if order.isEmpty then none else some ("ORDER BY " ++ commaList (order.map OrderTerm.render))

-- The bounds of a window, if there are any.
def Window.render? (w : Window) : Option String :=
  let parts := (w.skip.map ("SKIP " ++ reference ·)).toList ++
    (w.limit.map ("LIMIT " ++ reference ·)).toList
  if parts.isEmpty then none else some (String.intercalate " " parts)

def Part.render (read : String) : Part → String
  | .constituent key name => propertyKey key ++ ": " ++ read ++ "." ++ name
  | .formatted key => propertyKey key ++ ": toString(" ++ read ++ ")"

def Binding.render : Binding → String
  | .node name => quoteIdentifier name
  | .parameter name => reference name
  | .null => "null"

-- Only a call for many values may return more than one.
def CustomCall.render (c : CustomCall) (many : Bool) : String :=
  let bindings := c.bindings.map fun (key, binding) => propertyKey key ++ ": " ++ binding.render
  "apoc.cypher.runFirstColumn" ++ (if many then "Many" else "Single") ++ "(" ++
    stringLiteral c.statement ++ ", " ++ braced (commaList bindings) ++ ")"

-- A single value is the head of a list.
def asList (list : Bool) (text : String) : String :=
  if list then text else "head(" ++ text ++ ")"

def renderMap (node : String) (entries : List String) : String :=
  quoteIdentifier node ++ " " ++ braced (commaList entries)

def renderResult (node : String) (entries : List String) (key : String) : String :=
  "RETURN " ++ renderMap node entries ++ " AS " ++ quoteIdentifier key

mutual

def Item.render : Item → String
  | .shorthand field => "." ++ propertyKey field
  | .typeName key type => propertyKey key ++ ": " ++ stringLiteral type
  | .nodeId key node => propertyKey key ++ ": ID(" ++ quoteIdentifier node ++ ")"
  | .property key node field => propertyKey key ++ ": " ++ propertyRead node field
  | .compound key node field parts =>
    let read := propertyRead node field
    propertyKey key ++ ": " ++ braced (commaList (parts.map (Part.render read)))
  | .related key list query =>
    propertyKey key ++ ": " ++ asList list ("COLLECT " ++ braced (" " ++ query.render ++ " "))
  | .computed key list call => propertyKey key ++ ": " ++ call.render list
  | .computedNodes key list node call items =>
    propertyKey key ++ ": " ++ asList list ("[" ++ quoteIdentifier node ++ " IN " ++
      call.render true ++ " | " ++ renderMap node (Item.renderAll items) ++ "]")

def Item.renderAll : List Item → List String
  | [] => []
  | i :: rest => i.render :: Item.renderAll rest

def ReadQuery.render : ReadQuery → String
  | ⟨source, node, items, key, order, window⟩ =>
    String.intercalate " "
      ([source.render, renderResult node (Item.renderAll items) key] ++
        (renderOrder? order).toList ++ window.render?.toList)

end

-- Entries that are no aggregates make up the groups.
def renderCounts (node : String) (group : Option (String × String)) : String :=
  let count := "count: count(" ++ quoteIdentifier node ++ ")"
  match group with
  | some (node, field) => braced ("group: " ++ propertyRead node field ++ ", " ++ count)
  | none => braced count

def CountQuery.render (q : CountQuery) : String :=
  q.source.render ++ " RETURN " ++ renderCounts q.node q.group ++ " AS " ++
    quoteIdentifier q.key

def Written.render : Written → String
  | .parameter name => reference name
  | .compound c name => c.constructor ++ "(" ++ reference name ++ ")"
  | .compounds c name => "[value IN " ++ reference name ++ " | " ++ c.constructor ++ "(value)]"

def renderProperties (properties : List (String × Written)) : String :=
  braced (commaList (properties.map fun (key, v) => propertyKey key ++ ": " ++ v.render))

def renderKeys (keys : List (String × String)) : String :=
  braced (commaList (keys.map fun (key, name) => propertyKey key ++ ": " ++ reference name))

-- A node to be written. Without properties it is a bare node pattern.
def NodeWith.renderWritten (n : NodeWith Written) : String :=
  if n.properties.isEmpty then nodePattern n.name n.labels
  else "(" ++ quoteIdentifier n.name ++ labelList n.labels ++ " " ++
    renderProperties n.properties ++ ")"

def NodeWith.renderMatched (n : NodeWith String) : String :=
  "(" ++ quoteIdentifier n.name ++ labelList n.labels ++ " " ++ renderKeys n.properties ++ ")"

def Clause.render : Clause → String
  | .create node => "CREATE " ++ node.renderWritten
  | .createRelated parent relation node =>
    "CREATE " ++ nodePattern parent [] ++ arrow relation none ++ node.renderWritten
  | .find node => "MATCH " ++ node.renderMatched
  | .merge node => "MERGE " ++ node.renderMatched
  | .set node properties =>
    "SET " ++ quoteIdentifier node ++ " += " ++ renderProperties properties
  | .connect parent relation node =>
    "CALL " ++ braced (" WITH " ++ quoteIdentifier parent ++ " MATCH " ++ node.renderMatched ++
      " MERGE " ++ nodePattern parent [] ++ arrow relation none ++ nodePattern node.name [] ++
      " ")
  | .disconnect parent relation edge labels keys =>
    "CALL " ++ braced (" WITH " ++ quoteIdentifier parent ++ " MATCH " ++ nodePattern parent [] ++
      arrow relation (some edge) ++ "(" ++ labelList labels ++ " " ++ renderKeys keys ++
      ") DELETE " ++ quoteIdentifier edge ++ " ")

-- A deleted node is shown as it was, so its map is made before it goes.
def Statement.render : Statement → String
  | .read query => query.render
  | .count query => query.render
  | .write clauses node items key =>
    String.intercalate " "
      (clauses.map Clause.render ++ [renderResult node (Item.renderAll items) key])
  | .delete node deleted items key =>
    String.intercalate " "
      ["MATCH " ++ node.renderMatched,
       "WITH " ++ quoteIdentifier node.name ++ " AS " ++ quoteIdentifier deleted ++ ", " ++
         renderMap node.name (Item.renderAll items) ++ " AS " ++ quoteIdentifier node.name,
       "DETACH DELETE " ++ quoteIdentifier deleted,
       "RETURN " ++ quoteIdentifier node.name ++ " AS " ++ quoteIdentifier key]

end CypherCompiler.Cypher
