import CypherCompiler.Text.Affix

namespace CypherCompiler.CommandLine

-- What a command line asks for.
structure Options where
  schema : String
  request : String
  config : Option String
  countPrefix : Option String
  authScopes : Bool
  pretty : Bool
  deriving DecidableEq, Repr

inductive Command where
  | compile (options : Options)
  | help
  | version
  | invalid
  deriving DecidableEq, Repr

-- Options that take a value. All but the prefix are paths, which are never empty.
inductive Setting where
  | schema
  | request
  | config
  | countPrefix
  deriving DecidableEq, Repr

inductive Flag where
  | authScopes
  | pretty
  deriving DecidableEq, Repr

def settings : List (String × Setting) :=
  [("schema", .schema), ("request", .request), ("config", .config),
   ("count-prefix", .countPrefix)]

def flags : List (String × Flag) :=
  [("auth-scopes", .authScopes), ("pretty", .pretty)]

-- The arguments read so far.
structure Given where
  values : List (Setting × String)
  flags : List Flag

namespace Given

def empty : Given := ⟨[], []⟩

def get? (g : Given) (s : Setting) : Option String := g.values.lookup s

-- No option may be given twice.
def set? (g : Given) (s : Setting) (value : String) : Option Given :=
  if (g.get? s).isSome || (s != .countPrefix && value.isEmpty) then none
  else some { g with values := (s, value) :: g.values }

def raise? (g : Given) (f : Flag) : Option Given :=
  if g.flags.contains f then none else some { g with flags := f :: g.flags }

def command (g : Given) : Command :=
  match g.get? .schema, g.get? .request with
  | some schema, some request =>
    .compile ⟨schema, request, g.get? .config, g.get? .countPrefix,
      g.flags.contains .authScopes, g.flags.contains .pretty⟩
  | _, _ => .invalid

end Given

-- An argument as an option name, and the value that is attached to it.
def splitOption (written : List Char) : String × Option String :=
  let name := String.ofList (written.takeWhile (· != '='))
  match written.dropWhile (· != '=') with
  | [] => (name, none)
  | _ :: value => (name, some (String.ofList value))

-- A value that stands alone does not look like an option. A lone dash is a value.
def isDetachedValue (arg : String) : Bool :=
  !arg.startsWith "-" || arg == "-"

def readArguments (g : Given) : List String → Command
  | [] => g.command
  | arg :: rest =>
    match arg.toList with
    | ['-', '-'] => if rest.isEmpty then g.command else .invalid
    | '-' :: '-' :: written =>
      let (name, attached) := splitOption written
      match settings.lookup name, flags.lookup name, attached with
      | some s, _, some value =>
        match g.set? s value with
        | some g => readArguments g rest
        | none => .invalid
      | some s, _, none =>
        match rest with
        | [] => .invalid
        | value :: rest =>
          if isDetachedValue value then
            match g.set? s value with
            | some g => readArguments g rest
            | none => .invalid
          else .invalid
      | none, some f, none =>
        match g.raise? f with
        | some g => readArguments g rest
        | none => .invalid
      | none, some _, some _ => .invalid
      | none, none, attached =>
        if attached.isSome then .invalid
        else if name == "help" then .help
        else if name == "version" then .version
        else .invalid
    | '-' :: 'h' :: _ => .help
    | '-' :: 'V' :: _ => .version
    | _ => .invalid

def Command.ofArguments (args : List String) : Command :=
  readArguments .empty args

end CypherCompiler.CommandLine
