import CypherCompiler.CommandLine.Run

namespace CypherCompiler.CommandLine

def readFile (path : String) : IO (Except FileFault String) := do
  match ← (IO.FS.readFile path).toBaseIO with
  | .ok text => return .ok text
  | .error (.noFileOrDirectory ..) => return .error .missing
  | .error (.inappropriateType _ 20 _) => return .error .notDirectory
  | .error (.inappropriateType _ 21 _) => return .error .directory
  | .error (.invalidArgument _ 36 _) => return .error .longName
  | .error e => return .error (.other (toString e))

def readVariables : IO Variables := do
  let mut found := []
  for name in [Config.countPrefixVariable, Config.authScopesVariable,
      Config.strictArgumentsVariable] do
    if let some value ← IO.getEnv name then found := found ++ [(name, value)]
  return found

-- The world as far as the arguments reach into it.
def readWorld (args : List String) : IO World := do
  let files ← (filesOf args).mapM fun path => do return (path, ← readFile path)
  let set ← readVariables
  return ⟨fun path => (files.lookup path).getD (.error .missing), set⟩

end CypherCompiler.CommandLine

open CypherCompiler CommandLine

def main (args : List String) : IO UInt32 := do
  let outcome := run (← readWorld args) args
  IO.print outcome.stdout
  IO.eprint outcome.stderr
  return outcome.status.toUInt32
