import CypherCompiler.Filter.Operator
import CypherCompiler.Parameters

namespace CypherCompiler

-- A temporal value is given as text, as a `formatted` text, or by some of its constituents.
def Compound.temporalValue? (compound : Compound) : Json → Option Json
  | .str s => some (.str s)
  | .obj members =>
    match Json.Members.get? members formatted with
    | some text => if text.isString then some text else none
    | none =>
      if !members.isEmpty &&
          members.all (fun (key, v) => compound.constituents.contains key && !v.isNull) then
        some (.obj members)
      else none
  | _ => none

namespace Field

-- One value of the field's kind, in the form in which it is compared.
def singleValue? (f : Field) (v : Json) : Option Json :=
  match f.kind with
  | .scalar s => if v.isObject then none else some (s.normalize v)
  | .compound .point => if v.isObject then some v else none
  | .compound compound => compound.temporalValue? v
  | .relationship _ | .computed .. => none

-- The bound of a distance test: a point, and how far from it.
def distanceValue? (v : Json) : Option Json := do
  let members ← v.asObject?
  let point ← Json.Members.get? members "point"
  let distance ← Json.Members.get? members "distance"
  if point.isObject && distance.isNumber then some v else none

-- The value that a comparison is made with, or `none` if its shape fits neither the
-- comparator nor the field.
def comparedValue? (f : Field) (op : Comparator) (v : Json) : Option Json :=
  match op with
  | .distance _ => distanceValue? v
  | .isIn | .notIn => do Json.arr <$> (← v.asArray?).mapM f.singleValue?
  | _ => if v.isArray && !f.list then none else f.singleValue? v

end Field

end CypherCompiler
