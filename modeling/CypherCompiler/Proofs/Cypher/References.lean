import CypherCompiler.Cypher.Render

namespace CypherCompiler

def Operand.references : Operand → List String
  | .parameter name => [name]
  | .null => []

namespace Cypher

mutual

-- The parameters that a condition refers to. No condition at all refers to none, so nothing is
-- lost where the text leaves one out.
def Condition.references : Condition → List String
  | .compare _ _ _ operand => operand.references
  | .all children => referencesOfAll children
  | .any children => referencesOfAll children
  | .not child => references child
  | .related _ _ child => references child

def Condition.referencesOfAll : List Condition → List String
  | [] => []
  | c :: rest => references c ++ referencesOfAll rest

end

theorem Condition.isVacuous_iff {c : Condition} : c.isVacuous = true ↔ c = .all [] := by
  unfold isVacuous
  split
  · simp
  · rename_i h
    simp only [Bool.false_eq_true, false_iff]
    exact h

theorem Condition.referencesOfAll_append (cs more : List Condition) :
    referencesOfAll (cs ++ more) = referencesOfAll cs ++ referencesOfAll more := by
  induction cs with
  | nil => rfl
  | cons c rest ih => rw [List.cons_append, referencesOfAll, referencesOfAll, ih, List.append_assoc]

def Source.references (s : Source) : List String :=
  (s.search.map SearchCall.parameter).toList ++ Condition.referencesOfAll s.conditions

def Window.references (w : Window) : List String :=
  w.skip.toList ++ w.limit.toList

def Binding.references : Binding → List String
  | .parameter name => [name]
  | _ => []

def CustomCall.references (c : CustomCall) : List String :=
  c.bindings.flatMap fun b => b.2.references

mutual

def Item.references : Item → List String
  | .related _ _ query => query.references
  | .computed _ _ call => call.references
  | .computedNodes _ _ _ call items => call.references ++ Item.referencesOfAll items
  | _ => []

def Item.referencesOfAll : List Item → List String
  | [] => []
  | i :: rest => i.references ++ Item.referencesOfAll rest

def ReadQuery.references : ReadQuery → List String
  | ⟨source, _, items, _, _, window⟩ =>
    source.references ++ Item.referencesOfAll items ++ window.references

end

def Part.constituents : Part → List String
  | .constituent _ name => [name]
  | .formatted _ => []

mutual

-- The sub-fields of compound values that are read, whose names stand without quotes.
def Item.constituents : Item → List String
  | .compound _ _ _ parts => parts.flatMap Part.constituents
  | .related _ _ query => query.constituents
  | .computedNodes _ _ _ _ items => Item.constituentsOfAll items
  | _ => []

def Item.constituentsOfAll : List Item → List String
  | [] => []
  | i :: rest => i.constituents ++ Item.constituentsOfAll rest

def ReadQuery.constituents : ReadQuery → List String
  | ⟨_, _, items, _, _, _⟩ => Item.constituentsOfAll items

end

def Written.references : Written → List String
  | .parameter name => [name]
  | .compound _ name => [name]
  | .compounds _ name => [name]

def NodeWith.written (n : NodeWith Written) : List String :=
  n.properties.flatMap fun p => p.2.references

def NodeWith.matched (n : NodeWith String) : List String :=
  n.properties.map Prod.snd

def Clause.references : Clause → List String
  | .create node => node.written
  | .createRelated _ _ node => node.written
  | .find node => node.matched
  | .merge node => node.matched
  | .set _ properties => properties.flatMap fun p => p.2.references
  | .connect _ _ node => node.matched
  | .disconnect _ _ _ _ keys => keys.map Prod.snd

def Statement.references : Statement → List String
  | .read query => query.references
  | .count query => query.source.references
  | .write clauses _ items _ => clauses.flatMap Clause.references ++ Item.referencesOfAll items
  | .delete node _ items _ => node.matched ++ Item.referencesOfAll items

def Statement.constituents : Statement → List String
  | .read query => query.constituents
  | .count _ => []
  | .write _ _ items _ => Item.constituentsOfAll items
  | .delete _ _ items _ => Item.constituentsOfAll items

end Cypher

end CypherCompiler
