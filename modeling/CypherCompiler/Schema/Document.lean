import CypherCompiler.Document.Format
import CypherCompiler.Schema.Declaration

namespace CypherCompiler

variable {α : Type}

def RelationDeclaration.read? (format : DocumentFormat α) (v : α) :
    Option RelationDeclaration := do
  let r ← format.record? ["name", "direction"] v
  return {
    name := ← memberOr? r "name" none (format.nullable? format.text?)
    direction := ← memberOr? r "direction" none (format.nullable? format.text?) }

def FieldDeclaration.memberNames : List String :=
  ["name", "type", "list", "required", "id", "unique", "search", "scopes", "relation", "cypher",
    "arguments"]

def FieldDeclaration.read? (format : DocumentFormat α) (v : α) : Option FieldDeclaration := do
  let r ← format.record? memberNames v
  let text (key : String) := memberOr? r key none (format.nullable? format.text?)
  let flag (key : String) := memberOr? r key false format.flag?
  let texts (key : String) := memberOr? r key [] format.texts?
  return {
    name := ← requiredMember? r "name" format.text?
    typeName := ← requiredMember? r "type" format.text?
    list := ← flag "list"
    required := ← flag "required"
    id := ← flag "id"
    unique := ← flag "unique"
    search := ← text "search"
    scopes := ← texts "scopes"
    relation := ← memberOr? r "relation" none
      (format.nullable? (RelationDeclaration.read? format))
    statement := ← text "cypher"
    arguments := ← texts "arguments" }

def AccessScopes.read? (format : DocumentFormat α) (v : α) : Option AccessScopes := do
  let r ← format.record? ["read", "create", "update", "delete", "merge"] v
  let texts (key : String) := memberOr? r key [] format.texts?
  return {
    read := ← texts "read"
    create := ← texts "create"
    update := ← texts "update"
    delete := ← texts "delete"
    merge := ← texts "merge" }

def TypeDeclaration.read? (format : DocumentFormat α) (v : α) : Option TypeDeclaration := do
  let r ← format.record? ["name", "additional_labels", "primary_key", "auth", "fields"] v
  return {
    name := ← requiredMember? r "name" format.text?
    additionalLabels := ← memberOr? r "additional_labels" [] format.texts?
    primaryKey := ← memberOr? r "primary_key" none (format.nullable? format.text?)
    scopes := ← memberOr? r "auth" .unrestricted (AccessScopes.read? format)
    fields := ← requiredMember? r "fields" (format.list? (FieldDeclaration.read? format)) }

-- The declarations that a document holds, or `none` when a member has the wrong form.
def SchemaDeclaration.read? (format : DocumentFormat α) (v : α) : Option SchemaDeclaration := do
  let r ← format.record? ["name", "types"] v
  return {
    name := ← memberOr? r "name" none (format.nullable? format.text?)
    types := ← requiredMember? r "types" (format.list? (TypeDeclaration.read? format)) }

end CypherCompiler
