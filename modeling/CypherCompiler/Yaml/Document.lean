import CypherCompiler.Yaml.Node

namespace CypherCompiler.Yaml

-- What can be open around a node. A pair is a map of one entry that stands in a flow list
-- without braces; a bare list stands at the column of the keys around it.
inductive Group where
  | document
  | blockSeq
  | bareSeq
  | blockMap
  | flowSeq
  | flowMap
  | pair
  deriving DecidableEq, Repr

-- What comes next in an open group: its first or a further entry, a key, the colon after a key,
-- a value, or the end of an entry.
inductive Slot where
  | first
  | further
  | key
  | colon
  | value
  | filled
  deriving DecidableEq, Repr

-- An open group with its nodes last to first. Those of a map are keys and values in turn.
structure Frame where
  group : Group
  slot : Slot
  anchor : Option Nat
  nodes : List Node
  deriving Repr

namespace Frame

def isBlock (f : Frame) : Bool :=
  [Group.document, .blockSeq, .bareSeq, .blockMap].contains f.group

def isFlow (f : Frame) : Bool := f.group == .flowSeq || f.group == .flowMap

-- Whether a node can stand next.
def takesNode (f : Frame) : Bool :=
  match f.slot with
  | .key | .value | .first => true
  | .further => f.isFlow
  | .colon | .filled => false

-- A node takes its place. In a flow map a node without a colon is a key without a value.
def put (f : Frame) (v : Node) : Frame :=
  match f.slot with
  | .key => { f with slot := .colon, nodes := v :: f.nodes }
  | .first | .further =>
    let nodes := if f.group = .flowMap then .absent :: v :: f.nodes else v :: f.nodes
    { f with slot := .filled, nodes := nodes }
  | _ => { f with slot := .filled, nodes := v :: f.nodes }

def entries : List Node → List (Node × Node)
  | key :: value :: rest => (key, value) :: entries rest
  | _ => []

-- The node that the group makes once it is complete.
def node (f : Frame) : Node :=
  match f.group with
  | .blockMap | .flowMap | .pair => .map (entries f.nodes.reverse)
  | _ => .seq f.nodes.reverse

-- Whether the node that is expected is left out when a token comes instead.
def leavesOut (f : Frame) (t : Token) : Bool :=
  match f.group, f.slot with
  | .document, .value =>
    match t with
    | .directive _ | .documentStart | .documentEnd | .endOfText => true
    | _ => false
  | .blockSeq, .value => t == .dash || t == .closeBlock
  | .bareSeq, .value => t == .dash || t == .key || t == .value || t == .closeBlock
  | .blockMap, .key | .blockMap, .value => t == .key || t == .value || t == .closeBlock
  | .flowMap, .key => t == .value || t == .comma || t == .closeMap
  | .flowMap, .value => t == .comma || t == .closeMap
  | .pair, .value => t == .comma || t == .closeSeq
  | _, _ => false

-- Whether a token is a node, the start of one or a part of one.
def isContent (f : Frame) (t : Token) : Bool :=
  match t with
  | .scalar .. | .openSeq | .openMap | .anchor _ | .tag _ | .reference _ => true
  | .openBlockSeq | .openBlockMap => f.isBlock
  | .dash => f.group == .blockMap
  | _ => false

end Frame

-- What stands in front of a node.
structure Properties where
  anchor : Option String
  tag : Option WrittenTag
  deriving DecidableEq, Repr

def Properties.none : Properties := ⟨.none, .none⟩

-- A document that is being read. The number of an anchor is that of the names before it. A name
-- that is given again takes a new number, which the next new name shares.
structure Building where
  versioned : Bool
  handles : List (String × String)
  anchors : List (String × Nat)
  anchored : List (Nat × Node)
  properties : Properties
  top : Frame
  outer : List Frame
  deriving Repr

namespace Building

def start : Building :=
  ⟨false, [], [], [], .none, ⟨.document, .first, none, []⟩, []⟩

-- A finished node takes its place. A pair is complete with its value.
def put (b : Building) (v : Node) : Building :=
  let top := b.top.put v
  match b.outer with
  | parent :: outer =>
    if top.group = .pair ∧ top.slot = .filled then
      { b with top := parent.put top.node, outer := outer }
    else { b with top := top }
  | [] => { b with top := top }

-- The name of the tag of the next node, if it has one.
def tag? (b : Building) : Option (Option String) :=
  match b.properties.tag with
  | none => some none
  | some t => some <$> t.name b.handles

-- The properties are those of the node that begins, which takes its number from any other node.
def takeAnchor (b : Building) : Building × Option Nat :=
  match b.properties.anchor with
  | none => ({ b with properties := .none }, none)
  | some name =>
    let number := b.anchors.length
    ({ b with
        properties := .none
        anchors := (name, number) :: b.anchors.filter (·.1 != name)
        anchored := b.anchored.filter (·.1 != number) }, some number)

-- A node is complete. Its number may belong to a node inside it by now.
def record (b : Building) (anchor : Option Nat) (v : Node) : Building :=
  match anchor with
  | some number =>
    if (b.anchored.lookup number).isSome then b
    else { b with anchored := (number, v) :: b.anchored }
  | none => b

def putScalar (b : Building) (s : Scalar) : Building :=
  let (b, anchor) := b.takeAnchor
  (b.record anchor (.scalar s)).put (.scalar s)

-- A scalar that is marked as untagged has no tag.
def scalar? (b : Building) (text : String) (style : Style) : Option Building := do
  let tag ← b.tag?
  return b.putScalar ⟨text, style, tag.filter (· != "!")⟩

def putAbsent? (b : Building) : Option Building := do
  let tag ← b.tag?
  return b.putScalar ⟨"", .plain, tag⟩

def open? (b : Building) (group : Group) (slot : Slot) : Option Building := do
  let _ ← b.tag?
  let (b, anchor) := b.takeAnchor
  return { b with top := ⟨group, slot, anchor, []⟩, outer := b.top :: b.outer }

-- The innermost group is complete.
def close? (b : Building) : Option Building :=
  match b.outer with
  | [] => none
  | parent :: outer =>
    let v := b.top.node
    some (({ b with top := parent, outer := outer }.record b.top.anchor v).put v)

def within (b : Building) (group : Group) (slot : Slot) : Bool :=
  b.top.group == group && b.top.slot == slot

def move (b : Building) (slot : Slot) : Building := { b with top := { b.top with slot := slot } }

-- Fill in what is left out in front of a token: a node, the end of a bare list, and the value
-- of a key.
def settle? (b : Building) (t : Token) : Option Building := do
  let isBare := b.properties = .none
  let b ← if b.top.takesNode && (if isBare then b.top.leavesOut t else !b.top.isContent t) then
      b.putAbsent?
    else some b
  let b ← if b.within .bareSeq .filled && t != .dash then b.close? else some b
  if b.top.slot = .colon ∧ t ≠ .value then return b.put .absent else return b

def directive? (b : Building) (d : Directive) : Option Building :=
  match d with
  | .version .. =>
    if b.versioned || !d.isSupported then none else some { b.move .further with versioned := true }
  | .shorthand handle start =>
    if (b.handles.lookup handle).isSome then none
    else some { b.move .further with handles := (handle, start) :: b.handles }

-- A token in a place where a node can stand.
def node? (b : Building) : Token → Option Building
  | .scalar text style => b.scalar? text style
  | .openSeq => b.open? .flowSeq .first
  | .openMap => b.open? .flowMap .first
  | .openBlockSeq => if b.top.isBlock then b.open? .blockSeq .filled else none
  | .openBlockMap => if b.top.isBlock then b.open? .blockMap .filled else none
  | .dash => if b.top.group = .blockMap then b.open? .bareSeq .value else none
  | .anchor name =>
    if b.properties.anchor.isNone then
      some { b with properties := { b.properties with anchor := some name } }
    else none
  | .tag t =>
    if b.properties.tag.isNone then
      some { b with properties := { b.properties with tag := some t } }
    else none
  | .reference name => do
    if b.properties ≠ .none then none
    return b.put (.reference (← b.anchors.lookup name))
  | _ => none

-- The marks of each group.
def mark? (b : Building) (t : Token) : Option Building :=
  match b.top.group, b.top.slot, t with
  | .document, .first, .directive d | .document, .further, .directive d => b.directive? d
  | .document, .first, .documentStart | .document, .further, .documentStart =>
    some (b.move .value)
  | .document, .filled, .documentEnd | .document, .filled, .endOfText => some b
  | .document, .first, .endOfText => some (b.put .absent)
  | .blockSeq, .filled, .dash | .bareSeq, .filled, .dash => some (b.move .value)
  | .blockSeq, .filled, .closeBlock | .blockMap, .filled, .closeBlock => b.close?
  | .blockMap, .filled, .key => some (b.move .key)
  | .flowMap, .first, .key | .flowMap, .further, .key => some (b.move .key)
  | .flowSeq, .first, .key | .flowSeq, .further, .key => b.open? .pair .key
  | .blockMap, .colon, .value | .flowMap, .colon, .value | .pair, .colon, .value =>
    some (b.move .value)
  | .flowSeq, .filled, .comma | .flowMap, .filled, .comma => some (b.move .further)
  | .flowSeq, .first, .closeSeq | .flowSeq, .further, .closeSeq | .flowSeq, .filled, .closeSeq =>
    b.close?
  | .flowMap, .first, .closeMap | .flowMap, .further, .closeMap | .flowMap, .filled, .closeMap =>
    b.close?
  -- A pair without a key swallows the token that shows it.
  | .pair, .key, .value | .pair, .key, .comma | .pair, .key, .closeSeq => some (b.put .absent)
  | _, _, _ => none

def step? (b : Building) (t : Token) : Option Building := do
  let b ← b.settle? t
  if b.top.takesNode && b.top.isContent t then b.node? t else b.mark? t

def document? (b : Building) : Option Document :=
  match b.top.group, b.top.nodes with
  | .document, [root] => some ⟨root, b.anchored⟩
  | _, _ => none

end Building

-- The document that tokens make up.
def Document.ofTokens? (tokens : List Token) : Option Document := do
  (← tokens.foldlM Building.step? .start).document?

end CypherCompiler.Yaml
