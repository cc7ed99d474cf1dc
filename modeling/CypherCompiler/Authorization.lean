import CypherCompiler.Error
import CypherCompiler.Request.Basic

namespace CypherCompiler

mutual

-- Ask for the scopes of every selected field, outer fields before those inside them. Names
-- that belong to no field ask for nothing.
def Selection.authorize (catalog : Catalog) (grants : Grants) (type : NodeType) :
    Selection → Except RequestError Unit
  | ⟨name, _, _, selections⟩ =>
    match type.field? name with
    | none => .ok ()
    | some field =>
      if !grants.permits field.scopes then .error (.forbidden field.name)
      else match field.target? with
        | none => .ok ()
        | some target => do
          authorizeAll catalog grants (← catalog.require target) selections

def Selection.authorizeAll (catalog : Catalog) (grants : Grants) (type : NodeType) :
    List Selection → Except RequestError Unit
  | [] => .ok ()
  | s :: rest => do
    Selection.authorize catalog grants type s
    authorizeAll catalog grants type rest

end

-- Ask for the scopes of the operation on its type, then for those of the selected fields.
def Request.authorize (request : Request) (catalog : Catalog) (type : NodeType) :
    Except RequestError Unit :=
  if !request.grants.permits (type.scopes.required request.operation.access) then
    .error (.forbidden request.field.name)
  else Selection.authorizeAll catalog request.grants type request.field.selections

end CypherCompiler
