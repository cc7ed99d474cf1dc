import CypherCompiler.CommandLine.Arguments
import CypherCompiler.CommandLine.EnvironmentFile
import CypherCompiler.CommandLine.Files
import CypherCompiler.Json.Reader
import CypherCompiler.Request.Document
import CypherCompiler.Schema.Document
import CypherCompiler.Compilation.Basic
import CypherCompiler.Yaml.Basic

namespace CypherCompiler

-- The configuration that a text holds.
def Config.ofText (text : String) : Except ConfigError Config :=
  match (Yaml.read? text).bind (Config.read? Yaml.format) with
  | some c => c.validate
  | none => .error .invalidDocument

-- The declarations that a text holds.
def SchemaDeclaration.ofText (text : String) : Except SchemaError SchemaDeclaration :=
  match (Yaml.read? text).bind (SchemaDeclaration.read? Yaml.format) with
  | some d => .ok d
  | none => .error (.malformed "invalid schema document")

namespace CommandLine

-- What a run leaves behind.
structure Outcome where
  status : Nat
  stdout : String
  stderr : String
  deriving DecidableEq, Repr

-- Where a run finds its files and variables.
structure World where
  file : String → Except FileFault String
  set : Variables

def environmentFile : String := ".env"

-- Variables of the environment file come after those that are set already.
def World.environment (w : World) : Variables :=
  match w.file environmentFile with
  | .ok text => w.set.withFile text
  | .error _ => w.set

-- An error with what it was met at, and then its cause.
def inContext (context : String) (message : String) : String := context ++ ": " ++ message

def configMessage (e : ConfigError) : String := inContext e.message e.cause

def loadConfig (w : World) : Option String → Except String Config
  | none =>
    (Config.ofEnvironment fun name => w.environment.lookup name).mapError fun e =>
      inContext "reading config from environment" (configMessage e)
  | some path =>
    (match w.file path with
      | .ok text => Config.ofText text
      | .error fault => .error (.unreadableFile fault.message)).mapError fun e =>
      inContext ("loading config " ++ path) (configMessage e)

def loadSchema (w : World) (path : String) : Except String Catalog :=
  (do
    let text ← (w.file path).mapError fun fault =>
      SchemaError.unreadable (path ++ ": " ++ fault.message)
    let declaration ← SchemaDeclaration.ofText text
    declaration.toCatalog : Except SchemaError Catalog).mapError fun e =>
      inContext ("loading schema " ++ path) e.message

def loadRequest (w : World) (path : String) : Except String Request := do
  let text ← (w.file path).mapError fun fault =>
    inContext ("reading request " ++ path) fault.message
  match (Json.Written.read? text).bind Request.read? with
  | some r => return r
  | none => throw (inContext "parsing resolution context" "invalid request document")

-- The plan that a command line asks for, as text, or why there is none.
def compile (w : World) (o : Options) : Except String String := do
  let config ← loadConfig w o.config
  let (config, fault) := config.merge ⟨o.countPrefix, o.authScopes⟩
  if let some e := fault then throw (configMessage e)
  let catalog ← loadSchema w o.schema
  let request ← loadRequest w o.request
  let plan ← (request.compile catalog config).mapError RequestError.message
  return if o.pretty then plan.toJson.pretty else plan.toJson.compact

def usage : String :=
  "Usage: cyphergen [OPTIONS] --schema <SCHEMA> --request <REQUEST>\n"

def helpText : String :=
  "Cyphergen - translate a resolved GraphQL operation into Cypher\n\n" ++ usage ++
  "\nOptions:\n" ++
  "      --schema <SCHEMA>              Schema metadata YAML file\n" ++
  "      --request <REQUEST>            Resolution context JSON file (one operation field)\n" ++
  "      --config <CONFIG>              " ++
  "Translator configuration YAML file (environment is used otherwise)\n" ++
  "      --count-prefix <COUNT_PREFIX>  Prefix stripped from count field names\n" ++
  "      --auth-scopes                  Enforce declared auth scopes\n" ++
  "      --pretty                       Pretty-print the statement plan\n" ++
  "  -h, --help                         Print help\n" ++
  "  -V, --version                      Print version\n"

def versionText : String := "cyphergen 0.3.1-dev\n"

def run (w : World) (args : List String) : Outcome :=
  match Command.ofArguments args with
  | .compile options =>
    match compile w options with
    | .ok text => ⟨0, text ++ "\n", ""⟩
    | .error message => ⟨1, "", "Error: " ++ message ++ "\n"⟩
  | .help => ⟨0, helpText, ""⟩
  | .version => ⟨0, versionText, ""⟩
  | .invalid => ⟨2, "", "error: invalid arguments\n\n" ++ usage⟩

-- The files that a run may read.
def filesOf (args : List String) : List String :=
  match Command.ofArguments args with
  | .compile o => [environmentFile, o.schema, o.request] ++ o.config.toList
  | _ => []

end CommandLine

end CypherCompiler
