import CypherCompiler.Cypher.Render

namespace CypherCompiler

-- The text stands somewhere in another one.
def Text.Occurs (part text : String) : Prop := ∃ before after, text = before ++ part ++ after

namespace Text.Occurs

variable {part text : String}

theorem refl (text : String) : Occurs text text := ⟨"", "", by simp⟩

theorem append_left (h : Occurs part text) (first : String) : Occurs part (first ++ text) := by
  obtain ⟨before, after, rfl⟩ := h
  exact ⟨first ++ before, after, by simp [String.append_assoc]⟩

theorem append_right (h : Occurs part text) (last : String) : Occurs part (text ++ last) := by
  obtain ⟨before, after, rfl⟩ := h
  exact ⟨before, after ++ last, by simp [String.append_assoc]⟩

theorem intercalate (h : Occurs part text) (separator : String) {texts : List String}
    (htext : text ∈ texts) : Occurs part (String.intercalate separator texts) := by
  induction texts with
  | nil => cases htext
  | cons first rest ih =>
      cases rest with
      | nil =>
          obtain rfl := List.mem_singleton.mp htext
          simpa using h
      | cons second others =>
          rw [String.intercalate_cons_cons]
          obtain rfl | hrest := List.mem_cons.mp htext
          · exact (h.append_right _).append_right _
          · exact (ih hrest).append_left _

end Text.Occurs

namespace Cypher

-- The texts that statements are to have, sign by sign. Only names, keys and literals are quoted by
-- the functions of the statements themselves, and a condition is taken with the text that it has.
namespace Wording

-- An edge as it is seen from the node on its left.
def edge (direction : Direction) (name type : String) : String :=
  match direction with
  | .out => "-[" ++ name ++ ":" ++ quoteIdentifier type ++ "]->"
  | .into => "<-[" ++ name ++ ":" ++ quoteIdentifier type ++ "]-"

def labels (types : List String) : String :=
  String.join (types.map fun type => ":" ++ quoteIdentifier type)

-- The edge of a hop and the node that it leads to.
def onward (h : Hop) : String :=
  edge h.relation.direction "" h.relation.name ++
    "(" ++ quoteIdentifier h.child ++ ":" ++ quoteIdentifier h.relation.target ++ ")"

def hop (h : Hop) : String :=
  "(" ++ quoteIdentifier h.parent ++ ")" ++ onward h

def start : Start → String
  | .node name types => "(" ++ quoteIdentifier name ++ labels types ++ ")"
  | .hop h => hop h

def conditions : List Condition → String
  | [] => ""
  | cs => " WHERE " ++ String.intercalate " AND " (cs.map Condition.render)

def parameter (name : String) : String := "$" ++ name

def search (c : SearchCall) : String :=
  "CALL db.index.fulltext.queryNodes(" ++ stringLiteral c.index ++ ", " ++
    parameter c.parameter ++ ") YIELD node AS " ++ quoteIdentifier c.node ++ ", score AS " ++
    quoteIdentifier c.score ++ " "

-- The hops of the chain follow each other, the first one behind the start.
def source (s : Source) : String :=
  (s.search.map search).getD "" ++ "MATCH " ++ start s.pattern.start ++
    String.join (s.pattern.chain.map onward) ++ conditions s.conditions

-- A map with the text of each value behind its key.
def map (entries : List (String × String)) : String :=
  "\x7b" ++ String.intercalate ", " (entries.map fun (key, text) =>
    propertyKey key ++ ": " ++ text) ++ "\x7d"

-- The map that is shown for a node, and its return.
def shown (node : String) (entries : List String) : String :=
  quoteIdentifier node ++ " \x7b" ++ String.intercalate ", " entries ++ "\x7d"

def result (node : String) (entries : List String) (key : String) : String :=
  "RETURN " ++ shown node entries ++ " AS " ++ quoteIdentifier key

def property (node field : String) : String :=
  quoteIdentifier node ++ "." ++ propertyKey field

def orderTerm (t : OrderTerm) : String :=
  (match t.read with
    | .property node field => property node field
    | .nodeId node => "ID(" ++ quoteIdentifier node ++ ")"
    | .score name => quoteIdentifier name) ++
    if t.descending then " DESC" else " ASC"

def order : List OrderTerm → List String
  | [] => []
  | terms => ["ORDER BY " ++ String.intercalate ", " (terms.map orderTerm)]

def window (w : Window) : List String :=
  (w.skip.map fun name => "SKIP " ++ parameter name).toList ++
    (w.limit.map fun name => "LIMIT " ++ parameter name).toList

-- A read statement with these entries in its map.
def read (s : Source) (node : String) (entries : List String) (key : String)
    (terms : List OrderTerm) (w : Window) : String :=
  String.intercalate " " ([source s, result node entries key] ++ order terms ++ window w)

-- What a count returns, by the groups of a property if there are any.
def counted (node : String) (group : Option (String × String)) : String :=
  match group with
  | some (owner, field) =>
    "\x7bgroup: " ++ property owner field ++ ", count: count(" ++ quoteIdentifier node ++ ")\x7d"
  | none => "\x7bcount: count(" ++ quoteIdentifier node ++ ")\x7d"

def count (q : CountQuery) : String :=
  source q.source ++ " RETURN " ++ counted q.node q.group ++ " AS " ++ quoteIdentifier q.key

def binding : Binding → String
  | .node name => quoteIdentifier name
  | .parameter name => parameter name
  | .null => "null"

-- A call of a custom statement with the texts that its names are bound to.
def call (many : Bool) (template : String) (bindings : List (String × String)) : String :=
  (if many then "apoc.cypher.runFirstColumnMany(" else "apoc.cypher.runFirstColumnSingle(") ++
    stringLiteral template ++ ", " ++ map bindings ++ ")"

-- All values of a list, or the first of them.
def values (many : Bool) (list : String) : String :=
  if many then list else "head(" ++ list ++ ")"

def constructor : Compound → String
  | .date => "date"
  | .time => "time"
  | .localTime => "localtime"
  | .dateTime => "datetime"
  | .localDateTime => "localdatetime"
  | .point => "point"

def written : Written → String
  | .parameter name => parameter name
  | .compound c name => constructor c ++ "(" ++ parameter name ++ ")"
  | .compounds c name => "[value IN " ++ parameter name ++ " | " ++ constructor c ++ "(value)]"

def assigned (properties : List (String × Written)) : String :=
  map (properties.map fun (key, v) => (key, written v))

-- A node that is created. It has no map without properties.
def created (n : NodeWith Written) : String :=
  "(" ++ quoteIdentifier n.name ++ labels n.labels ++
    (if n.properties = [] then "" else " " ++ assigned n.properties) ++ ")"

-- The labels and the keys by which a node is looked for.
def keys (types : List String) (properties : List (String × String)) : String :=
  labels types ++ " " ++ map (properties.map fun (key, name) => (key, parameter name))

def matched (n : NodeWith String) : String :=
  "(" ++ quoteIdentifier n.name ++ keys n.labels n.properties ++ ")"

-- A node that is created with an edge from the node on its left.
def createdBelow (parent : String) (relation : Relation) (n : NodeWith Written) : String :=
  "CREATE (" ++ quoteIdentifier parent ++ ")" ++ edge relation.direction "" relation.name ++
    created n

def connected (parent : String) (relation : Relation) (n : NodeWith String) : String :=
  "CALL \x7b WITH " ++ quoteIdentifier parent ++ " MATCH " ++ matched n ++ " MERGE (" ++
    quoteIdentifier parent ++ ")" ++ edge relation.direction "" relation.name ++ "(" ++
    quoteIdentifier n.name ++ ") \x7d"

def disconnected (parent : String) (relation : Relation) (name : String) (types : List String)
    (properties : List (String × String)) : String :=
  "CALL \x7b WITH " ++ quoteIdentifier parent ++ " MATCH (" ++ quoteIdentifier parent ++ ")" ++
    edge relation.direction (quoteIdentifier name) relation.name ++ "(" ++ keys types properties ++
    ") DELETE " ++ quoteIdentifier name ++ " \x7d"

def clause : Clause → String
  | .create node => "CREATE " ++ created node
  | .createRelated parent relation node => createdBelow parent relation node
  | .find node => "MATCH " ++ matched node
  | .merge node => "MERGE " ++ matched node
  | .set node properties => "SET " ++ quoteIdentifier node ++ " += " ++ assigned properties
  | .connect parent relation node => connected parent relation node
  | .disconnect parent relation name types properties =>
    disconnected parent relation name types properties

-- The texts of a statement with blanks between them. The entries of its map are those of its items.
def lines : Statement → List String
  | .read q => [read q.source q.node (Item.renderAll q.items) q.key q.order q.window]
  | .count q => [count q]
  | .write clauses node items key =>
    clauses.map clause ++ [result node (Item.renderAll items) key]
  | .delete node deleted items key =>
    ["MATCH " ++ matched node,
      "WITH " ++ quoteIdentifier node.name ++ " AS " ++ quoteIdentifier deleted ++ ", " ++
        shown node.name (Item.renderAll items) ++ " AS " ++ quoteIdentifier node.name,
      "DETACH DELETE " ++ quoteIdentifier deleted,
      "RETURN " ++ quoteIdentifier node.name ++ " AS " ++ quoteIdentifier key]

end Wording

-- Where the parts of a text begin elsewhere, it is compared sign by sign.
theorem arrow_eq (relation : Relation) (name : Option String) :
    arrow relation name =
      Wording.edge relation.direction ((name.map quoteIdentifier).getD "") relation.name := by
  unfold arrow Wording.edge
  cases relation.direction <;> simp [← String.toList_inj]

theorem nodePattern_eq (node : String) (types : List String) :
    nodePattern node types = "(" ++ quoteIdentifier node ++ Wording.labels types ++ ")" := rfl

theorem Hop.continuation_eq (h : Hop) : h.continuation = Wording.onward h := by
  rw [continuation, Wording.onward, arrow_eq]
  simp [nodePattern, labelList, ← String.toList_inj]

theorem Hop.render_eq (h : Hop) : h.render = Wording.hop h := by
  rw [render, Wording.hop, continuation_eq]
  simp [nodePattern, labelList]

theorem Pattern.render_eq (p : Pattern) :
    p.render = Wording.start p.start ++ String.join (p.chain.map Wording.onward) := by
  have hchain : p.chain.map Hop.continuation = p.chain.map Wording.onward :=
    List.map_congr_left fun h _ => h.continuation_eq
  rw [render, hchain]
  cases p.start with
  | node name types => rfl
  | hop h =>
      rw [Wording.start, ← Hop.render_eq]

theorem Condition.renderAll_eq_map (cs : List Condition) :
    renderAll cs = cs.map render := by
  induction cs with
  | nil => rfl
  | cons c rest ih => rw [renderAll, ih, List.map_cons]

theorem Source.render_eq (s : Source) : s.render = Wording.source s := by
  obtain ⟨call, pattern, cs⟩ := s
  have hconditions : (if cs.isEmpty then ""
      else " WHERE " ++ String.intercalate " AND " (Condition.renderAll cs)) =
      Wording.conditions cs := by
    rw [Condition.renderAll_eq_map]
    cases cs <;> rfl
  unfold render Wording.source
  simp only [hconditions, Pattern.render_eq, String.append_assoc]
  cases call <;> rfl

theorem OrderTerm.render_eq (t : OrderTerm) : t.render = Wording.orderTerm t := by
  obtain ⟨read, descending⟩ := t
  cases read <;> rfl

theorem renderMap_eq (node : String) (entries : List String) :
    renderMap node entries = Wording.shown node entries := by
  simp [renderMap, Wording.shown, braced, commaList, ← String.toList_inj]

theorem renderResult_eq (node : String) (entries : List String) (key : String) :
    renderResult node entries key = Wording.result node entries key := by
  rw [renderResult, Wording.result, renderMap_eq]

theorem ReadQuery.render_eq (q : ReadQuery) :
    q.render = Wording.read q.source q.node (Item.renderAll q.items) q.key q.order q.window := by
  obtain ⟨source, node, items, key, order, skip, limit⟩ := q
  have horder : (renderOrder? order).toList = Wording.order order := by
    have hterms : order.map OrderTerm.render = order.map Wording.orderTerm :=
      List.map_congr_left fun t _ => t.render_eq
    rw [renderOrder?, hterms]
    cases order <;> rfl
  rw [render, Source.render_eq, renderResult_eq, horder, Wording.read]
  cases order <;> cases skip <;> cases limit <;>
    simp [Wording.order, Wording.window, Window.render?, reference, Wording.parameter,
      String.append_assoc]

theorem renderCounts_eq (node : String) (group : Option (String × String)) :
    renderCounts node group = Wording.counted node group := by
  cases group <;>
    simp [renderCounts, Wording.counted, Wording.property, braced, propertyRead,
      ← String.toList_inj]

theorem CountQuery.render_eq (q : CountQuery) : q.render = Wording.count q := by
  rw [render, Wording.count, Source.render_eq, renderCounts_eq]

theorem CustomCall.render_eq (c : CustomCall) (many : Bool) :
    c.render many =
      Wording.call many c.statement (c.bindings.map fun (key, b) => (key, Wording.binding b)) := by
  have hbinding (b : Binding) : b.render = Wording.binding b := by cases b <;> rfl
  have hbindings : (c.bindings.map fun (key, b) => propertyKey key ++ ": " ++ b.render) =
      (c.bindings.map fun (key, b) => (key, Wording.binding b)).map fun (key, text) =>
        propertyKey key ++ ": " ++ text := by
    simp [hbinding, Function.comp_def]
  have hname : "apoc.cypher.runFirstColumn" ++ (if many then "Many" else "Single") ++ "(" =
      if many then "apoc.cypher.runFirstColumnMany(" else "apoc.cypher.runFirstColumnSingle(" := by
    cases many <;> rfl
  unfold render Wording.call Wording.map
  rw [hname, hbindings]
  rfl

theorem asList_eq (list : Bool) (text : String) : asList list text = Wording.values list text := rfl

theorem Written.render_eq (v : Written) : v.render = Wording.written v := by
  have hconstructor (c : Compound) : c.constructor = Wording.constructor c := by cases c <;> rfl
  cases v <;> simp only [render, Wording.written, hconstructor] <;> rfl

theorem renderProperties_eq (properties : List (String × Written)) :
    renderProperties properties = Wording.assigned properties := by
  simp [renderProperties, Wording.assigned, Wording.map, Written.render_eq, braced, commaList,
    Function.comp_def]

theorem renderKeys_eq (properties : List (String × String)) :
    renderKeys properties =
      Wording.map (properties.map fun (key, name) => (key, Wording.parameter name)) := by
  simp [renderKeys, Wording.map, reference, Wording.parameter, braced, commaList,
    Function.comp_def]

theorem NodeWith.renderWritten_eq (n : NodeWith Written) :
    n.renderWritten = Wording.created n := by
  obtain ⟨name, types, properties⟩ := n
  cases properties <;>
    simp [renderWritten, Wording.created, nodePattern_eq, renderProperties_eq, labelList,
      Wording.labels, String.append_assoc]

theorem NodeWith.renderMatched_eq (n : NodeWith String) :
    n.renderMatched = Wording.matched n := by
  simp [renderMatched, Wording.matched, Wording.keys, renderKeys_eq, labelList, Wording.labels,
    String.append_assoc]

theorem Clause.render_eq (c : Clause) : c.render = Wording.clause c := by
  cases c with
  | create node => rw [render, Wording.clause, NodeWith.renderWritten_eq]
  | createRelated parent relation node =>
      unfold render Wording.clause Wording.createdBelow
      simp [NodeWith.renderWritten_eq, arrow_eq, nodePattern_eq, Wording.labels,
        ← String.toList_inj]
  | find node => rw [render, Wording.clause, NodeWith.renderMatched_eq]
  | merge node => rw [render, Wording.clause, NodeWith.renderMatched_eq]
  | set node properties => rw [render, Wording.clause, renderProperties_eq]
  | connect parent relation node =>
      unfold render Wording.clause Wording.connected
      simp [NodeWith.renderMatched_eq, arrow_eq, nodePattern_eq, Wording.labels, braced,
        ← String.toList_inj]
  | disconnect parent relation name types properties =>
      unfold render Wording.clause Wording.disconnected Wording.keys
      simp [renderKeys_eq, arrow_eq, nodePattern_eq, Wording.labels, labelList, braced,
        ← String.toList_inj]

theorem Statement.render_eq (s : Statement) :
    s.render = String.intercalate " " (Wording.lines s) := by
  cases s with
  | read q => rw [render, Wording.lines, String.intercalate_singleton, ReadQuery.render_eq]
  | count q => rw [render, Wording.lines, String.intercalate_singleton, CountQuery.render_eq]
  | write clauses node items key =>
      have hclauses : clauses.map Clause.render = clauses.map Wording.clause :=
        List.map_congr_left fun c _ => c.render_eq
      rw [render, Wording.lines, renderResult_eq, hclauses]
  | delete node deleted items key =>
      rw [render, Wording.lines, renderMap_eq, NodeWith.renderMatched_eq]

end Cypher

end CypherCompiler
