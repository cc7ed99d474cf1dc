import CypherCompiler.Document.Format

namespace CypherCompiler

-- How requests are compiled: what stands before the type's name in the field of a count,
-- whether scopes are asked for, and whether unknown arguments are refused.
structure Config where
  countPrefix : String
  authScopes : Bool
  strictArguments : Bool
  deriving DecidableEq, Repr

-- Why a configuration is refused.
inductive ConfigError where
  | invalidCountPrefix
  | unreadableFile (reason : String)
  | invalidDocument
  | invalidFlag (name value : String)
  deriving DecidableEq, Repr

namespace ConfigError

def prefixFault : String :=
  "count_prefix: Count prefix must be between 1 and 32 characters"

def flagFault : String := "provided string was not `true` or `false`"

-- What lies behind an error, in its own words.
def cause : ConfigError → String
  | .invalidCountPrefix => prefixFault
  | .unreadableFile reason => reason
  | .invalidDocument => ""
  | .invalidFlag .. => flagFault

def message (e : ConfigError) : String :=
  match e with
  | .invalidCountPrefix => "Validation error: " ++ e.cause
  | .unreadableFile _ => "Parse error for yaml_file: file read failed - " ++ e.cause
  | .invalidDocument => "Parse error for yaml_content: "
  | .invalidFlag name value => "Parse error for " ++ name ++ ": " ++ value ++ " - " ++ e.cause

end ConfigError

-- Settings of a command line, which win over those of a configuration.
structure ConfigOverride where
  countPrefix : Option String
  authScopes : Bool
  deriving DecidableEq, Repr

namespace Config

def default : Config := ⟨"Count", false, true⟩

-- The length counts characters.
def isValid (c : Config) : Bool :=
  1 ≤ c.countPrefix.length && c.countPrefix.length ≤ 32

def validate (c : Config) : Except ConfigError Config :=
  if c.isValid then .ok c else .error .invalidCountPrefix

-- Scopes can be switched on but not off.
def override (c : Config) (o : ConfigOverride) : Config :=
  { c with
    countPrefix := o.countPrefix.getD c.countPrefix
    authScopes := c.authScopes || o.authScopes }

-- The configuration after an override, and what is wrong with it. A refused override stays in
-- force.
def merge (c : Config) (o : ConfigOverride) : Config × Option ConfigError :=
  let next := c.override o
  (next, if next.isValid then none else some .invalidCountPrefix)

-- The configuration that a document holds. Members that are left out have their defaults.
def read? {α : Type} (format : DocumentFormat α) (v : α) : Option Config := do
  let r ← format.record? ["count_prefix", "auth_scopes", "strict_arguments"] v
  return {
    countPrefix := ← memberOr? r "count_prefix" default.countPrefix format.text?
    authScopes := ← memberOr? r "auth_scopes" default.authScopes format.flag?
    strictArguments := ← memberOr? r "strict_arguments" default.strictArguments format.flag? }

-- A flag is exactly `true` or `false`.
def flag (name : String) (fallback : Bool) (value : Option String) : Except ConfigError Bool :=
  match value with
  | none => .ok fallback
  | some "true" => .ok true
  | some "false" => .ok false
  | some other => .error (.invalidFlag name other)

def countPrefixVariable : String := "CYPHERGEN_COUNT_PREFIX"
def authScopesVariable : String := "CYPHERGEN_AUTH_SCOPES"
def strictArgumentsVariable : String := "CYPHERGEN_STRICT_ARGUMENTS"

-- The configuration that environment variables hold.
def ofEnvironment (value? : String → Option String) : Except ConfigError Config := do
  let authScopes ← flag authScopesVariable default.authScopes (value? authScopesVariable)
  let strictArguments ←
    flag strictArgumentsVariable default.strictArguments (value? strictArgumentsVariable)
  validate ⟨(value? countPrefixVariable).getD default.countPrefix, authScopes,
    strictArguments⟩

end Config

end CypherCompiler
