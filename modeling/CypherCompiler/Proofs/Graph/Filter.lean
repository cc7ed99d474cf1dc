import CypherCompiler.Proofs.Graph.Basic
import CypherCompiler.Proofs.Outcome.Filter

namespace CypherCompiler

namespace Graph

variable (g : Graph)

-- The node has what a member of a filter object asks of one of its fields.
def MeetsComparison (field : Field) (op : Comparator) (v : Json) (n : g.Node) : Prop :=
  let target := CompareTarget.property field.name field.compound?
  if v.isNull then g.PassesNull n target op
  else ∃ given, field.comparedValue? op v = some given ∧ g.Passes n target op (some given)

-- A relationship filter that is given as null asks whether there is any related node.
def MeetsAbsence (relation : Relation) (n : g.Node) : Quantifier → Prop
  | .some => ¬ ∃ e, g.Fits relation e ∧ g.start relation e = n
  | .none => ∃ e, g.Fits relation e ∧ g.start relation e = n
  | _ => False

mutual

-- A filter object is read as the conjunction of its members.
def Meets (catalog : Catalog) (type : NodeType) : List (String × Json) → g.Node → Prop
  | [], _ => True
  | (key, v) :: rest, n => MeetsMember catalog type key v n ∧ Meets catalog type rest n

def MeetsMember (catalog : Catalog) (type : NodeType) (key : String) (v : Json)
    (n : g.Node) : Prop :=
  match FilterKey.read? type key with
  | some (.combinator .and) =>
    match v with
    | .arr items => MeetsAll catalog type items n
    | _ => False
  | some (.combinator .or) =>
    match v with
    | .arr items => MeetsAny catalog type items n
    | _ => False
  | some (.combinator .not) =>
    match v with
    | .obj members => ¬ Meets catalog type members n
    | _ => False
  | some (.comparison field op) => g.MeetsComparison field op v n
  | some (.relationship _ relation quantifier) =>
    match v with
    | .null => g.MeetsAbsence relation n quantifier
    | .obj members =>
      match catalog.type? relation.target with
      | some target => g.Related relation quantifier n (Meets catalog target members)
      | none => False
    | _ => False
  | none => False

def MeetsAll (catalog : Catalog) (type : NodeType) : List Json → g.Node → Prop
  | [], _ => True
  | .obj members :: rest, n => Meets catalog type members n ∧ MeetsAll catalog type rest n
  | _ :: _, _ => False

def MeetsAny (catalog : Catalog) (type : NodeType) : List Json → g.Node → Prop
  | [], _ => False
  | .obj members :: rest, n => Meets catalog type members n ∨ MeetsAny catalog type rest n
  | _ :: rest, n => MeetsAny catalog type rest n

end

-- The filter as it is written: no plan, no names and no parameters.
def MeetsFilter (catalog : Catalog) (type : NodeType) (filter : Json) (n : g.Node) : Prop :=
  match filter with
  | .obj members => g.Meets catalog type members n
  | _ => False

end Graph

end CypherCompiler
