import CypherCompiler.Filter.Reading
import CypherCompiler.Traversal.Planning

namespace CypherCompiler

-- What the parts of one statement share while it is put together.
structure Draft where
  aliases : AliasRegistry
  parameters : Parameters

namespace Draft

def empty : Draft := ⟨.empty, .empty⟩

end Draft

-- A step in putting a statement together.
abbrev Drafting := StateT Draft (Except RequestError)

namespace Drafting

-- Steps that leave one half of the draft alone.
def hoist {α : Type} (step : Hoist α) : Drafting α := fun d =>
  (step d.parameters).map fun (a, parameters) => (a, { d with parameters })

def value (path : ParameterPath) (v : Json) : Drafting String :=
  hoist (Hoist.value path v)

def share (name : String) (v : Json) : Drafting Unit :=
  modify fun d => { d with parameters := d.parameters.share name v }

def plan (make : AliasRegistry → Except RequestError (Plan × AliasRegistry)) :
    Drafting Plan := fun d =>
  (make d.aliases).map fun (p, aliases) => (p, { d with aliases })

def claim (base : String) : Drafting String := fun d =>
  let (name, aliases) := d.aliases.claim base
  .ok (name, { d with aliases })

def reserve (name : String) : Drafting Unit :=
  modify fun d => { d with aliases := d.aliases.reserve name }

end Drafting

-- What a compilation goes by.
structure Setting where
  catalog : Catalog
  strictArguments : Bool
  cypherParams : Json.Members

end CypherCompiler
