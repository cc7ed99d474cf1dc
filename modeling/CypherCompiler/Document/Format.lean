namespace CypherCompiler

-- How the values of a document format are read. A record is asked for by the names of its
-- members; members of other names are passed over. A value can be at fault already when it is
-- asked whether it is null.
structure DocumentFormat (α : Type) where
  text? : α → Option String
  flag? : α → Option Bool
  isNull? : α → Option Bool
  items? : α → Option (List α)
  record? : List String → α → Option (List (String × α))

namespace DocumentFormat

variable {α β : Type} (format : DocumentFormat α)

def list? (read : α → Option β) (v : α) : Option (List β) := do
  (← format.items? v).mapM read

def texts? (v : α) : Option (List String) :=
  format.list? format.text? v

-- A null counts as an absent value.
def nullable? (read : α → Option β) (v : α) : Option (Option β) := do
  if ← format.isNull? v then return none else some <$> read v

end DocumentFormat

-- A member that must be there.
def requiredMember? {α β : Type} (record : List (String × α)) (key : String)
    (read : α → Option β) : Option β := do
  read (← record.lookup key)

-- A member that has a value of its own when it is left out.
def memberOr? {α β : Type} (record : List (String × α)) (key : String) (fallback : β)
    (read : α → Option β) : Option β :=
  match record.lookup key with
  | none => some fallback
  | some v => read v

end CypherCompiler
