import CypherCompiler.Filter.Key
import CypherCompiler.Filter.Predicate
import CypherCompiler.Filter.Value
import CypherCompiler.Name.ParameterPath
import CypherCompiler.Request.Basic

namespace CypherCompiler

-- A step that takes values out of the request.
abbrev Hoist := StateT Parameters (Except RequestError)

namespace Hoist

def value (path : ParameterPath) (v : Json) : Hoist String := fun ps =>
  (ps.insert path.name v).map fun next => (path.name, next)

def refuse {α : Type} (key : String) : Hoist α :=
  throw (.invalidFilterField key)

-- Leave out what is refused as a filter field, unless the request is read strictly. Nothing
-- is taken out by a step that is left out.
def orSkip {α : Type} (strict : Bool) (step : Hoist α) : Hoist (Option α) := fun ps =>
  match step ps with
  | .ok (a, next) => .ok (some a, next)
  | .error (.invalidFilterField key) =>
    if strict then .error (.invalidFilterField key) else .ok (none, ps)
  | .error e => .error e

end Hoist

namespace Predicate

-- A comparison with a value. Null is allowed only where it asks for absence or presence.
def comparison (field : Field) (op : Comparator) (key : String) (v : Json) (hops : List String)
    (path : ParameterPath) : Hoist Predicate := do
  let target := CompareTarget.property field.name field.compound?
  if v.isNull then
    if op = .eq ∨ op = .not then return .compare ⟨hops, target, op, .null⟩
    else Hoist.refuse key
  else
    match field.comparedValue? op v with
    | none => Hoist.refuse key
    | some value => return .compare ⟨hops, target, op, .parameter (← Hoist.value path value)⟩

-- The segment of a hop. Only a hop that some node has to match, and that stands under no
-- negation, may share its node with other parts of the statement; all others are named apart.
def hopSegment (field : String) (quantifier : Quantifier) (negated : Bool) : String :=
  if quantifier = .some ∧ !negated then field else field ++ "_" ++ quantifier.suffix

-- Whether a relationship filter is given as null, with the quantifier that this leaves.
def effectiveQuantifier? (quantifier : Quantifier) (v : Json) : Option Quantifier :=
  if v.isNull then quantifier.flip? else some quantifier

variable (catalog : Catalog)

mutual

-- The conditions written by the members of a filter object.
def ofMembers (type : NodeType) (hops : List String) (negated : Bool) (path : ParameterPath) :
    List (String × Json) → Hoist (List Predicate)
  | [] => return []
  | (key, v) :: rest => do
    let p ← ofMember type hops negated path key v
    return p :: (← ofMembers type hops negated path rest)

def ofMember (type : NodeType) (hops : List String) (negated : Bool) (path : ParameterPath)
    (key : String) (v : Json) : Hoist Predicate := do
  match ← FilterKey.read type key with
  | .combinator .and =>
    match v with
    | .arr items => return .all (← ofItems type hops negated path key 0 items)
    | _ => Hoist.refuse key
  | .combinator .or =>
    match v with
    | .arr items => return .any (← ofItems type hops negated path key 0 items)
    | _ => Hoist.refuse key
  | .combinator .not =>
    match v with
    | .obj members => return .not (.all (← ofMembers type hops true (path.child key) members))
    | _ => Hoist.refuse key
  | .comparison field op => comparison field op key v hops (path.child key)
  | .relationship field relation quantifier =>
    let target ← catalog.require relation.target
    match effectiveQuantifier? quantifier v with
    | none => Hoist.refuse key
    | some quantifier =>
      let inner := hops ++ [hopSegment field.name quantifier negated]
      let hop : FilterHop := ⟨inner, field.name, relation, quantifier⟩
      match v with
      | .null => return .related hop (.all [])
      | .obj members =>
        return .related hop (.all (← ofMembers target inner negated (path.child key) members))
      | _ => Hoist.refuse key

-- The filter objects in a list, counted from `index`.
def ofItems (type : NodeType) (hops : List String) (negated : Bool) (path : ParameterPath)
    (key : String) (index : Nat) : List Json → Hoist (List Predicate)
  | [] => return []
  | .obj members :: rest => do
    let p ← ofMembers type hops negated (path.indexed key index) members
    return .all p :: (← ofItems type hops negated path key (index + 1) rest)
  | _ :: _ => Hoist.refuse key

end

-- The conditions of a filter, all of which have to hold.
def ofFilter (type : NodeType) (path : ParameterPath) : Json → Hoist (List Predicate)
  | .obj members => ofMembers catalog type [] false path members
  | _ => Hoist.refuse Argument.filter

-- The equality test written by an argument. A list of values for a single-valued field asks
-- for one of them.
def ofArgument (type : NodeType) (path : ParameterPath) (name : String) (v : Json) :
    Hoist Predicate := do
  if name = Argument.nodeId then
    let parameter ← Hoist.value (path.child name) (Scalar.id.normalize v)
    return .compare ⟨[], .nodeId, .eq, .parameter parameter⟩
  else
    match (type.field? name).filter (·.isProperty) with
    | none => Hoist.refuse name
    | some field =>
      let op := if v.isArray && !field.list then Comparator.isIn else Comparator.eq
      comparison field op name v [] (path.child name)

def ofArguments (type : NodeType) (path : ParameterPath) (strict : Bool) :
    List (String × Json) → Hoist (List Predicate)
  | [] => return []
  | (name, v) :: rest => do
    if Argument.reserved.contains name || v.isNull then ofArguments type path strict rest
    else
      let p ← Hoist.orSkip strict (ofArgument type path name v)
      return p.toList ++ (← ofArguments type path strict rest)

-- The condition on the nodes of a field that is read: its equality tests, then its filter.
def ofSelection (type : NodeType) (path : ParameterPath) (strict : Bool) (s : Selection) :
    Hoist Predicate := do
  let tests ← ofArguments type path strict s.arguments
  let filter ← match s.argument? Argument.filter with
    | some v => ofFilter catalog type (path.child Argument.filter) v
    | none => pure []
  return .all (tests ++ filter)

end Predicate

end CypherCompiler
