import CypherCompiler.Text.Lowercase

namespace CypherCompiler

namespace Alias

-- The node a statement starts from is called like its type, the first letter lowered.
def root (typeName : String) : String :=
  match typeName.toList with
  | [] => ""
  | c :: rest => String.ofList (Text.lowercase c ++ rest)

-- A node reached from `parent` under `key`.
def child (parent key : String) : String :=
  parent ++ "_" ++ key

-- A node reached from `parent` by the entry `index` of the list under `key`.
def indexed (parent key : String) (index : Nat) : String :=
  parent ++ "_" ++ key ++ "_" ++ toString index

end Alias

-- The names that are bound somewhere in one statement.
structure AliasRegistry where
  taken : List String
  deriving Repr

namespace AliasRegistry

def empty : AliasRegistry := ⟨[]⟩

def contains (r : AliasRegistry) (name : String) : Bool :=
  r.taken.contains name

-- Bind a name as it is.
def reserve (r : AliasRegistry) (name : String) : AliasRegistry :=
  ⟨r.taken.insert name⟩

-- The names tried for `base`, in order: `base`, `base_2`, `base_3` and so on.
def candidate (base : String) : Nat → String
  | 0 => base
  | n + 1 => base ++ "_" ++ toString (n + 2)

-- The first candidate that is free. The candidates differ, so one more of them than there
-- are bound names always contains a free one.
def fresh (r : AliasRegistry) (base : String) : String :=
  (((List.range (r.taken.length + 1)).map (candidate base)).find? (!r.contains ·)).getD base

def claim (r : AliasRegistry) (base : String) : String × AliasRegistry :=
  let name := r.fresh base
  (name, r.reserve name)

end AliasRegistry

end CypherCompiler
