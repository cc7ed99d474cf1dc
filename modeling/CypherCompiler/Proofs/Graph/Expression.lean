import CypherCompiler.Proofs.Graph.Basic

namespace CypherCompiler

namespace Cypher

-- The Boolean expressions that the text of a condition consists of.
inductive Expression where
  | truth (value : Bool)
  | isNull (node : String) (target : CompareTarget)
  | isNotNull (node : String) (target : CompareTarget)
  | compare (node : String) (target : CompareTarget) (op : Comparator) (parameter : String)
  | all (first : Expression) (rest : List Expression)
  | any (first : Expression) (rest : List Expression)
  | not (child : Expression)
  | group (child : Expression)
  | someMatch (hop : Hop) (inner : Option Expression)
  | oneMatch (hop : Hop) (inner : Option Expression)

-- The nodes that the names of a statement are bound to.
abbrev Env (g : Graph) := String → Option g.Node

namespace Env

variable {g : Graph}

def bind (env : Env g) (name : String) (n : g.Node) : Env g :=
  fun other => if other = name then some n else env other

-- Nothing but the root is bound.
def root (name : String) (n : g.Node) : Env g :=
  bind (fun _ => none) name n

-- A bound name stands for its node only, and an unbound one for any.
def Admits (env : Env g) (name : String) (n : g.Node) : Prop := ∀ m ∈ env name, m = n

def bindHop (env : Env g) (hop : Hop) (e : g.Edge) : Env g :=
  (env.bind hop.parent (g.start hop.relation e)).bind hop.child (g.stop hop.relation e)

-- The edge is a match of the hop that keeps to the names that are bound already.
def Matches (env : Env g) (hop : Hop) (e : g.Edge) : Prop :=
  g.Fits hop.relation e ∧ env.Admits hop.parent (g.start hop.relation e) ∧
    (env.bind hop.parent (g.start hop.relation e)).Admits hop.child (g.stop hop.relation e)

end Env

namespace Expression

def compareText (node : String) (target : CompareTarget) (parameter : String) :
    Comparator → String
  | .distance test =>
    "distance(" ++ target.subject node ++ ", point(" ++ reference parameter ++ ".point)) " ++
      test.symbol ++ " " ++ reference parameter ++ ".distance"
  | op => target.subject node ++ " " ++ op.symbol ++ " " ++ target.value op parameter

mutual

def text : Expression → String
  | truth value => if value then "true" else "false"
  | isNull node target => target.subject node ++ " IS NULL"
  | isNotNull node target => target.subject node ++ " IS NOT NULL"
  | compare node target op parameter => compareText node target parameter op
  | all first rest => "(" ++ String.intercalate " AND " (text first :: texts rest) ++ ")"
  | any first rest => "(" ++ String.intercalate " OR " (text first :: texts rest) ++ ")"
  | not child => "NOT " ++ text child
  | group child => "(" ++ text child ++ ")"
  | someMatch hop none => "EXISTS " ++ braced (" MATCH " ++ hop.render ++ " ")
  | someMatch hop (some inner) =>
    "EXISTS " ++ braced (" MATCH " ++ hop.render ++ " WHERE " ++ text inner ++ " ")
  | oneMatch hop none => "COUNT " ++ braced (" MATCH " ++ hop.render ++ " ") ++ " = 1"
  | oneMatch hop (some inner) =>
    "COUNT " ++ braced (" MATCH " ++ hop.render ++ " WHERE " ++ text inner ++ " ") ++ " = 1"

def texts : List Expression → List String
  | [] => []
  | e :: rest => text e :: texts rest

end

variable (g : Graph)

mutual

-- The value of an expression in two-valued logic. Names of a nested query that are not bound
-- yet range over the graph.
def Holds (ps : Parameters) : Expression → Env g → Prop
  | truth value, _ => value = true
  | isNull node target, env => ∃ n, env node = some n ∧ (g.read n target).isNone = true
  | isNotNull node target, env => ∃ n, env node = some n ∧ (g.read n target).isSome = true
  | compare node target op parameter, env =>
    ∃ n, env node = some n ∧ g.Compare n target op (ps.get? parameter)
  | all first rest, env => Holds ps first env ∧ AllHold ps rest env
  | any first rest, env => Holds ps first env ∨ SomeHolds ps rest env
  | not child, env => ¬ Holds ps child env
  | group child, env => Holds ps child env
  | someMatch hop none, env => ∃ e, env.Matches hop e
  | someMatch hop (some inner), env =>
    ∃ e, env.Matches hop e ∧ Holds ps inner (env.bindHop hop e)
  | oneMatch hop none, env => ∃! e, env.Matches hop e
  | oneMatch hop (some inner), env =>
    ∃! e, env.Matches hop e ∧ Holds ps inner (env.bindHop hop e)

def AllHold (ps : Parameters) : List Expression → Env g → Prop
  | [], _ => True
  | e :: rest, env => Holds ps e env ∧ AllHold ps rest env

def SomeHolds (ps : Parameters) : List Expression → Env g → Prop
  | [], _ => False
  | e :: rest, env => Holds ps e env ∨ SomeHolds ps rest env

end

end Expression

end Cypher

end CypherCompiler
