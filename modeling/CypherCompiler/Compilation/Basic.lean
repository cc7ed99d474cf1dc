import CypherCompiler.Authorization
import CypherCompiler.Config
import CypherCompiler.Cypher.Render
import CypherCompiler.Compilation.Mutation

namespace CypherCompiler

open Cypher

-- A statement with the values that it refers to.
structure StatementPlan where
  statement : Statement
  parameters : Parameters

namespace StatementPlan

def text (p : StatementPlan) : String := p.statement.render

def toJson (p : StatementPlan) : Json :=
  .obj [("text", .str p.text), ("parameters", p.parameters.toJson)]

end StatementPlan

namespace Request

-- The type that a request starts from. The field of a count consists of the prefix and the
-- name of the type.
def rootType (r : Request) (catalog : Catalog) (config : Config) :
    Except RequestError NodeType :=
  if r.operation = .count then
    match (Text.afterPrefix? r.field.name config.countPrefix).bind catalog.type? with
    | some type => .ok type
    | none => .error (.unknownCountTarget r.field.name)
  else
    match r.typeName with
    | some name => catalog.require name
    | none => .error (.schemaInconsistency ("no return type given for `" ++ r.field.name ++ "`"))

-- The caller's variables come first among the parameters, if there are any.
def initialDraft (r : Request) : Draft :=
  if r.cypherParams.isEmpty then .empty
  else ⟨.empty, Parameters.empty.share cypherParamsName (.obj r.cypherParams)⟩

def statement (r : Request) (setting : Setting) (type : NodeType) : Drafting Statement :=
  match r.operation with
  | .query => do
    let query ← r.field.readQuery setting ⟨Alias.root type.name, type.name, none⟩ .root
    return .read query
  | .count => do return .count (← r.field.countQuery setting type)
  | operation => Mutation.statement setting type operation r.field

-- One statement for one request. Scopes are asked for before anything else is looked at.
def compile (r : Request) (catalog : Catalog) (config : Config) :
    Except RequestError StatementPlan := do
  let type ← r.rootType catalog config
  if config.authScopes then r.authorize catalog type
  let setting : Setting := ⟨catalog, config.strictArguments, r.cypherParams⟩
  let (statement, draft) ← r.statement setting type r.initialDraft
  return ⟨statement, draft.parameters⟩

end Request

end CypherCompiler
