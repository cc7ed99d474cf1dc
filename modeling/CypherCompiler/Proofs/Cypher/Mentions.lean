import CypherCompiler.Cypher.Render

namespace CypherCompiler.Cypher

-- A place where a statement gives a name its meaning. A hop names the node that it leads to.
inductive Mention where
  | root (name : String)
  | hop (hop : Hop)
  | score (name : String)
  | listItem (name : String)
  | deleted (name : String)
  | connected (name : String)
  | disconnected (name : String)
  deriving DecidableEq, Repr

namespace Mention

def name : Mention → String
  | hop h => h.child
  | root name | score name | listItem name | deleted name | connected name
  | disconnected name => name

def hop? : Mention → Option Hop
  | hop h => some h
  | _ => none

end Mention

mutual

-- The hops in the text of a condition. A condition that every node meets is written without
-- its hop.
def Condition.hops : Condition → List Hop
  | .compare .. => []
  | .all children => hopsOfAll children
  | .any children => hopsOfAll children
  | .not child => hops child
  | .related hop quantifier child =>
    if quantifier = .every ∧ child.isVacuous = true then [] else hop :: hops child

def Condition.hopsOfAll : List Condition → List Hop
  | [] => []
  | c :: rest => hops c ++ hopsOfAll rest

end

theorem Condition.hopsOfAll_append (cs more : List Condition) :
    hopsOfAll (cs ++ more) = hopsOfAll cs ++ hopsOfAll more := by
  induction cs with
  | nil => rfl
  | cons c rest ih => rw [List.cons_append, hopsOfAll, hopsOfAll, ih, List.append_assoc]

-- The presence of a related node is written as its hop alone.
theorem Condition.hopsOfAll_leadsSomewhere (hops : List Hop) :
    hopsOfAll (hops.map leadsSomewhere) = hops := by
  induction hops with
  | nil => rfl
  | cons hop rest ih =>
      have hone : (leadsSomewhere hop).hops = [hop] := rfl
      rw [List.map_cons, hopsOfAll, hone, ih, List.singleton_append]

-- The hops of a chain, each of which is written from the node before it.
def chainHops (previous : String) : List Hop → List Hop
  | [] => []
  | h :: rest => ⟨previous, h.relation, h.child⟩ :: chainHops h.child rest

def Pattern.hops (p : Pattern) : List Hop :=
  match p.start with
  | .node name _ => chainHops name p.chain
  | .hop h => h :: chainHops h.child p.chain

def Source.mentions (s : Source) : List Mention :=
  (s.search.map fun c => .score c.score).toList ++
    (s.pattern.hops ++ Condition.hopsOfAll s.conditions).map .hop

mutual

def Item.mentions : Item → List Mention
  | .related _ _ query => query.mentions
  | .computedNodes _ _ node _ items => .listItem node :: Item.mentionsOfAll items
  | _ => []

def Item.mentionsOfAll : List Item → List Mention
  | [] => []
  | i :: rest => i.mentions ++ Item.mentionsOfAll rest

def ReadQuery.mentions : ReadQuery → List Mention
  | ⟨source, _, items, _, _, _⟩ => source.mentions ++ Item.mentionsOfAll items

end

-- The type of a node that is created with an edge is its first label.
def Clause.mentions : Clause → List Mention
  | .createRelated parent relation node =>
    [.hop ⟨parent, ⟨relation.name, relation.direction, node.labels.headD ""⟩, node.name⟩]
  | .connect _ _ node => [.connected node.name]
  | .disconnect _ _ edge _ _ => [.disconnected edge]
  | _ => []

namespace Statement

def mentions : Statement → List Mention
  | .read query => .root query.node :: query.mentions
  | .count query => .root query.node :: query.source.mentions
  | .write clauses node items _ =>
    .root node :: (clauses.flatMap Clause.mentions ++ Item.mentionsOfAll items)
  | .delete node deleted items _ =>
    .root node.name :: .deleted deleted :: Item.mentionsOfAll items

-- All hops of a statement, at any depth and in any clause.
def hops (s : Statement) : List Hop :=
  s.mentions.filterMap Mention.hop?

-- The names of a statement that stand for something else than the end of a hop.
def otherNames (s : Statement) : List String :=
  (s.mentions.filter (·.hop?.isNone)).map Mention.name

end Statement

end CypherCompiler.Cypher
