import CypherCompiler.Text.Affix

namespace CypherCompiler.CommandLine

-- Why a file cannot be read.
inductive FileFault where
  | missing
  | notDirectory
  | directory
  | longName
  | other (reason : String)
  deriving DecidableEq, Repr

def FileFault.message : FileFault → String
  | .missing => "No such file or directory (os error 2)"
  | .notDirectory => "Not a directory (os error 20)"
  | .directory => "Is a directory (os error 21)"
  | .longName => "File name too long (os error 36)"
  | .other reason => reason

-- The files below a working directory, with the names that lead to them.
structure Files where
  contents : List (List String × String)

namespace Files

-- Where a path has led so far. Outside of the working directory nothing is known but the
-- directories above it.
inductive Place where
  | below (directory : List String)
  | outside
  | file (content : String)
  deriving DecidableEq, Repr

-- Lengths are counted in bytes.
def longestName : Nat := 255
def longestPath : Nat := 4095

def enter (files : Files) (directory : List String) (name : String) : Except FileFault Place :=
  let path := directory ++ [name]
  if longestName < name.utf8ByteSize then .error .longName
  else match files.contents.lookup path with
    | some content => .ok (.file content)
    | none =>
      if files.contents.any (path.isPrefixOf ·.1) then .ok (.below path) else .error .missing

-- Names that lead nowhere else.
def staysThere (name : String) : Bool := name == "" || name == "."

-- Follow one name of a path.
def follow (files : Files) (name : String) : Place → Except FileFault Place
  | .file _ => .error .notDirectory
  | .outside =>
    if staysThere name || name == ".." then .ok .outside
    else if longestName < name.utf8ByteSize then .error .longName
    else .error .missing
  | .below directory =>
    if staysThere name then .ok (.below directory)
    else if name == ".." then
      .ok (if directory.isEmpty then .outside else .below directory.dropLast)
    else files.enter directory name

-- The file of this path is empty on every system.
def nullDevice : String := "/dev/null"

def read (files : Files) (path : String) : Except FileFault String := do
  if path = nullDevice then return ""
  if longestPath < path.utf8ByteSize then throw .longName
  let start := if path.startsWith "/" then Place.outside else .below []
  match ← (Text.pieces path '/').foldlM (fun place name => files.follow name place) start with
  | .file content => return content
  | _ => throw .directory

def ofList (contents : List (String × String)) : Files :=
  ⟨contents.map fun (path, content) =>
    ((Text.pieces path '/').filter (!staysThere ·), content)⟩

end Files

end CypherCompiler.CommandLine
