import CypherCompiler.Document.Format
import CypherCompiler.Yaml.Document
import CypherCompiler.Yaml.Reading

namespace CypherCompiler

-- A value within a document. A scalar is text until something is asked of it.
structure Yaml where
  node : Yaml.Node
  anchored : List (Nat × Yaml.Node)

namespace Yaml

-- The node that is meant, which is no reference.
def target (v : Yaml) : Node :=
  match v.node with
  | .reference number => (v.anchored.lookup number).getD .absent
  | node => node

def part (v : Yaml) (node : Node) : Yaml := { v with node := node }

def nullTag : String := "tag:yaml.org,2002:null"
def flagTag : String := "tag:yaml.org,2002:bool"

-- Only plain scalars can stand for nothing, and then without a tag, or with that of null: such
-- a scalar must be null.
def isNull? (v : Yaml) : Option Bool :=
  match v.target with
  | .scalar ⟨text, .plain, tag⟩ =>
    let isNull := ["~", "null", "Null", "NULL"].contains text
    match tag with
    | none => some (isNull || text.isEmpty)
    | some tag => if tag ≠ nullTag then some false else if isNull then some true else none
  | _ => some false

def text? (v : Yaml) : Option String :=
  match v.target with
  | .scalar s => some s.text
  | _ => none

-- A flag is a plain scalar, or a literal one that is tagged as a flag.
def flag? (v : Yaml) : Option Bool :=
  match v.target with
  | .scalar s =>
    if s.style = .plain ∨ (s.style = .literal ∧ s.tag = some flagTag) then
      if ["true", "True", "TRUE"].contains s.text then some true
      else if ["false", "False", "FALSE"].contains s.text then some false
      else none
    else none
  | _ => none

-- A value that is left out has no items.
def items? (v : Yaml) : Option (List Yaml) :=
  match v.target with
  | .seq items => some (items.map v.part)
  | .scalar ⟨"", .plain, _⟩ => some []
  | _ => none

-- A value that is left out has no members. All keys are scalars, and none of those asked for
-- may be written twice.
def record? (names : List String) (v : Yaml) : Option (List (String × Yaml)) :=
  match v.target with
  | .map entries => do
    let members ← entries.mapM fun (key, value) => do return (← (v.part key).text?, v.part value)
    let known := members.filter fun (key, _) => names.contains key
    if (known.map Prod.fst).Nodup then some known else none
  | .scalar ⟨"", .plain, _⟩ => some []
  | _ => none

def format : DocumentFormat Yaml where
  text? := text?
  flag? := flag?
  isNull? := isNull?
  items? := items?
  record? := record?

-- The value that a text holds as a whole.
def read? (text : String) : Option Yaml := do
  let document ← Document.ofTokens? (← tokens? text)
  return ⟨document.root, document.anchored⟩

end Yaml

end CypherCompiler
