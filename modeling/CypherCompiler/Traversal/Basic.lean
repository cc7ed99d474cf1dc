import CypherCompiler.Name.Alias
import CypherCompiler.Schema.Basic

namespace CypherCompiler

-- The parts of a read field that ask for a hop.
inductive HopSource where
  | selection
  | groupBy
  | predicate
  deriving DecidableEq, Repr

-- Which of them asked for one hop.
structure HopOrigin where
  selection : Bool
  groupBy : Bool
  predicate : Bool
  deriving DecidableEq, Repr

namespace HopOrigin

def has (o : HopOrigin) : HopSource → Bool
  | .selection => o.selection
  | .groupBy => o.groupBy
  | .predicate => o.predicate

def add (o : HopOrigin) : HopSource → HopOrigin
  | .selection => { o with selection := true }
  | .groupBy => { o with groupBy := true }
  | .predicate => { o with predicate := true }

def ofSource (source : HopSource) : HopOrigin :=
  (⟨false, false, false⟩ : HopOrigin).add source

end HopOrigin

-- The hop through which the root of a nested selection is reached.
structure Incoming where
  parent : String
  relation : Relation
  deriving DecidableEq, Repr

-- The node from which a plan starts.
structure Root where
  node : String
  typeName : String
  incoming : Option Incoming
  deriving DecidableEq, Repr

-- One hop of a plan. Without a related node a required hop removes its row.
structure Step where
  node : String
  typeName : String
  path : List String
  incoming : Incoming
  required : Bool
  origin : HopOrigin
  deriving DecidableEq, Repr

-- The property by which rows are grouped.
structure GroupKey where
  node : String
  field : String
  deriving DecidableEq, Repr

-- Every hop of one read field has one step, found by its path from the root.
structure Plan where
  root : Root
  steps : List Step
  groupKey : Option GroupKey
  deriving DecidableEq, Repr

-- Paths of the selection consist of response keys and all others of field names, so the same
-- path may belong to two steps.
def findStep? (steps : List Step) (path : List String) (source : HopSource) : Option Step :=
  steps.find? fun s => s.path == path && s.origin.has source

-- The node that a path leads to. The empty path stays at the root.
def findNode? (root : Root) (steps : List Step) (path : List String) (source : HopSource) :
    Option String :=
  if path.isEmpty then some root.node else (findStep? steps path source).map Step.node

namespace Plan

def step? (p : Plan) (path : List String) (source : HopSource) : Option Step :=
  findStep? p.steps path source

def node? (p : Plan) (path : List String) (source : HopSource) : Option String :=
  findNode? p.root p.steps path source

-- The step of a selected relationship.
def selectionStep? (p : Plan) (responseKey : String) : Option Step :=
  p.step? [responseKey] .selection

-- The steps that the outer pattern follows.
def groupBySteps (p : Plan) : List Step :=
  p.steps.filter (·.origin.groupBy)

end Plan

end CypherCompiler
