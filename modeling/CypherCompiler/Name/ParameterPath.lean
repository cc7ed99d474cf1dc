namespace CypherCompiler

-- Where a hoisted value stands in the request. The segments make up the parameter's name.
structure ParameterPath where
  segments : List String
  deriving DecidableEq, Repr

namespace ParameterPath

def root : ParameterPath := ⟨[]⟩

-- The start of the paths below a nested selection, whose node is called `node`.
def below (node : String) : ParameterPath := ⟨[node]⟩

def child (p : ParameterPath) (segment : String) : ParameterPath :=
  ⟨p.segments ++ [segment]⟩

def indexed (p : ParameterPath) (segment : String) (index : Nat) : ParameterPath :=
  p.child (segment ++ "_" ++ toString index)

def name (p : ParameterPath) : String :=
  String.intercalate "_" p.segments

end ParameterPath

end CypherCompiler
