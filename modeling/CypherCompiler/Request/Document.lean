import CypherCompiler.Json.Document
import CypherCompiler.Request.Basic

namespace CypherCompiler

open Json (Written)

-- The selection that a document holds, as long as its groups nest at most as deep as given, or
-- `none` when a member has the wrong form.
def Selection.read? : Nat → Written → Option Selection
  | 0, _ => none
  | levels + 1, v => do
    let r ← v.record? ["name", "alias", "arguments", "selections"]
    let name ← requiredMember? r "name" Written.text?
    let aliasName ← memberOr? r "alias" none (Written.format.nullable? Written.text?)
    let arguments ← memberOr? r "arguments" [] (Written.members? levels)
    let selections ← memberOr? r "selections" [] fun v => do
      match levels with
      | 0 => none
      | levels + 1 => (← v.items?).mapM (read? levels)
    return ⟨name, aliasName, arguments, selections⟩

-- An operation is written by its name, or as an object with the name as its only key.
def Operation.read? : Written → Option Operation
  | .str s | .obj [(s, .null)] => do ofName? (← s.text?)
  | _ => none

def Grants.read? (v : Written) : Option Grants := do
  let r ← v.record? ["granted_scopes"]
  return ⟨← memberOr? r "granted_scopes" [] Written.format.texts?⟩

def Request.read? (v : Written) : Option Request := do
  let r ← v.record? ["operation", "field", "type_name", "cypher_params", "auth"]
  let levels := Written.maxDepth - 1
  return {
    operation := ← requiredMember? r "operation" Operation.read?
    field := ← requiredMember? r "field" (Selection.read? levels)
    typeName := ← memberOr? r "type_name" none (Written.format.nullable? Written.text?)
    cypherParams := ← memberOr? r "cypher_params" [] (Written.members? levels)
    grants := ← memberOr? r "auth" ⟨[]⟩ Grants.read? }

end CypherCompiler
