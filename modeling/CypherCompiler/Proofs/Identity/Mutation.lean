import CypherCompiler.Proofs.Identity.Key
import CypherCompiler.Proofs.Outcome.Compilation
import CypherCompiler.Proofs.Supply.Mutation

namespace CypherCompiler

open Cypher

-- A value of a mutation that has to identify one node of a type.
structure KeySite where
  type : NodeType
  path : ParameterPath
  argument : Option Json

def KeySite.read (site : KeySite) : Drafting (List (String × String)) :=
  KeyMatch.readArgument site.type site.path site.argument

namespace Drafting

variable {α β : Type} {run : Drafting α} {d c : Draft} {site : KeySite} {ps : Parameters}

-- A run that comes to a value of a mutation, with the parameters that were taken out before. It
-- goes on with the keys of the value, or fails as the value does.
def ComesTo (run : Drafting α) (d : Draft) (site : KeySite) (ps : Parameters) : Prop :=
  ∃ e, e.parameters = ps ∧
    ∃ next : List (String × String) × Draft → Except RequestError (α × Draft),
      run d = site.read e >>= next

theorem comesTo_read (site : KeySite) (d : Draft) : ComesTo site.read d site d.parameters :=
  ⟨d, rfl, .ok, (bind_pure (site.read d)).symm⟩

theorem ComesTo.bind (h : ComesTo run d site ps) (f : α → Drafting β) :
    ComesTo (run >>= f) d site ps := by
  obtain ⟨e, hps, next, hrun⟩ := h
  refine ⟨e, hps, fun r => next r >>= fun p => f p.1 p.2, ?_⟩
  change (run d >>= fun p => f p.1 p.2) = _
  rw [hrun, bind_assoc]

theorem ComesTo.after {f : α → Drafting β} {a : α} (hrun : run d = .ok (a, c))
    (h : ComesTo (f a) c site ps) : ComesTo (run >>= f) d site ps := by
  obtain ⟨e, hps, next, hnext⟩ := h
  refine ⟨e, hps, next, ?_⟩
  change (run d >>= fun p => f p.1 p.2) = _
  rw [hrun]
  exact hnext

theorem ComesTo.lift_after {check : Except RequestError α} {f : α → Drafting β} {a : α}
    (hcheck : check = .ok a) (h : ComesTo (f a) d site ps) :
    ComesTo ((liftM check : Drafting α) >>= f) d site ps :=
  .after (lift_eq_ok.mpr ⟨a, hcheck, rfl⟩) h

end Drafting

open Drafting

namespace Mutation

variable {catalog : Catalog} {type target : NodeType} {path : ParameterPath} {d : Draft}

-- Lists are worked through from the front.
section Append

variable {operation : NestedOperation} {clause : String → List (String × String) → Clause}
  {base : String} {relation : Relation}

theorem matchEach_append (index : Nat) (before rest : List Json.Members) :
    matchEach operation clause base target path index (before ++ rest) = do
      let clauses ← matchEach operation clause base target path index before
      return clauses ++
        (← matchEach operation clause base target path (index + before.length) rest) := by
  induction before generalizing index with
  | nil => simp [matchEach]
  | cons members before ih =>
      have hindex : index + 1 + before.length = index + (members :: before).length := by
        rw [List.length_cons]
        omega
      rw [List.cons_append, matchEach, matchEach]
      simp only [ih, hindex, bind_assoc, pure_bind, List.cons_append]

variable {field : Field} {node : String} {level : Level} {skip : List String}

theorem operations_append (before rest : List (String × Json)) :
    operations catalog field relation target node level path (before ++ rest) = do
      let clauses ← operations catalog field relation target node level path before
      return clauses ++
        (← operations catalog field relation target node level path rest) := by
  induction before with
  | nil => simp [operations]
  | cons member before ih =>
      obtain ⟨key, v⟩ := member
      rw [List.cons_append, operations, operations, bind_assoc]
      congr 1
      funext objects
      simp only [ih]
      cases NestedOperation.ofName? key with
      | none => simp only [bind_assoc, pure_bind, List.append_assoc]
      | some operation =>
          cases operation with
          | create =>
              cases v <;> simp only [bind_assoc, pure_bind, List.append_assoc]
          | connect => simp only [bind_assoc, pure_bind, List.append_assoc]
          | disconnect =>
              by_cases hlevel : level = .created <;>
                simp only [hlevel, ite_true, ite_false, bind_assoc, pure_bind, List.append_assoc]

theorem relations_append (before rest : List (String × Json)) :
    relations catalog type node level path skip (before ++ rest) = do
      let clauses ← relations catalog type node level path skip before
      return clauses ++ (← relations catalog type node level path skip rest) := by
  induction before with
  | nil => simp [relations]
  | cons member before ih =>
      obtain ⟨key, v⟩ := member
      rw [List.cons_append, relations, relations]
      simp only [ih]
      cases (type.field? key).filter fun _ => !skip.contains key && !v.isNull with
      | none => simp only [bind_assoc, pure_bind, List.append_assoc]
      | some field =>
          cases hrelation : field.relation? <;>
            simp only [hrelation, bind_assoc, pure_bind, List.append_assoc]

end Append

-- The items of a connect or a disconnect that a run comes to, with everything before them.
inductive OperationsExamine (catalog : Catalog) (field : Field) (relation : Relation)
    (target : NodeType) (node : String) (level : Level) (path : ParameterPath) :
    List (String × Json) → Draft → KeySite → Parameters → Prop
  | connect {before after : List (String × Json)} {key : String} {v : Json}
      {earlier later : List Json.Members} {members : Json.Members}
      {done connected : List Clause} {d e f : Draft}
      (hbefore : operations catalog field relation target node level path before d =
        .ok (done, e))
      (hkey : NestedOperation.ofName? key = some .connect)
      (hitems : relatedItems field v = .ok (earlier ++ members :: later))
      (hearlier : connectEach node (Alias.child node field.name) relation target path 0 earlier e =
        .ok (connected, f)) :
      OperationsExamine catalog field relation target node level path
        (before ++ (key, v) :: after) d
        ⟨target, path.indexed NestedOperation.connect.name earlier.length, some (.obj members)⟩
        f.parameters
  | disconnect {before after : List (String × Json)} {key : String} {v : Json}
      {earlier later : List Json.Members} {members : Json.Members}
      {done disconnected : List Clause} {d e f : Draft}
      (hbefore : operations catalog field relation target node level path before d =
        .ok (done, e))
      (hkey : NestedOperation.ofName? key = some .disconnect) (hlevel : level ≠ .created)
      (hitems : relatedItems field v = .ok (earlier ++ members :: later))
      (hearlier : disconnectEach node (Alias.child node field.name) relation target path 0
        earlier e = .ok (disconnected, f)) :
      OperationsExamine catalog field relation target node level path
        (before ++ (key, v) :: after) d
        ⟨target, path.indexed NestedOperation.disconnect.name earlier.length,
          some (.obj members)⟩
        f.parameters

-- Operations stand right below the members of the data.
inductive RelationsExamine (catalog : Catalog) (type : NodeType) (node : String) (level : Level)
    (path : ParameterPath) (skip : List String) :
    List (String × Json) → Draft → KeySite → Parameters → Prop
  | operations {before after : List (String × Json)} {key : String} {named : Json.Members}
      {field : Field} {relation : Relation} {target : NodeType} {done : List Clause} {d e : Draft}
      {site : KeySite} {ps : Parameters}
      (hbefore : relations catalog type node level path skip before d = .ok (done, e))
      (hfield : type.field? key = some field) (hskip : skip.contains key = false)
      (hrelation : field.relation? = some relation)
      (htarget : catalog.type? relation.target = some target)
      (hnamed : NestedOperation.areNamedBy named target = true)
      (hlevel : level.allowsOperations = true)
      (h : OperationsExamine catalog field relation target node level (path.child field.name)
        named e site ps) :
      RelationsExamine catalog type node level path skip (before ++ (key, .obj named) :: after) d
        site ps

-- The values that the statement of a mutation comes to: the argument that holds its keys, and the
-- items among its data.
inductive Examines (setting : Setting) (type : NodeType) (node : String) (s : Selection) :
    Operation → Draft → KeySite → Parameters → Prop
  | argument {operation : Operation} {d : Draft}
      (h : operation = .update ∨ operation = .merge ∨ operation = .delete) :
      Examines setting type node s operation d ⟨type, keyPath, s.argument? Argument.key⟩
        d.parameters
  | created {members : Json.Members} {written : List (String × Written)} {d e : Draft}
      {site : KeySite} {ps : Parameters}
      (hdata : s.argument? Argument.data = some (.obj members))
      (hwritten : properties type dataPath [] members d = .ok (written, e))
      (h : RelationsExamine setting.catalog type node .created dataPath [] members e site ps) :
      Examines setting type node s .create d site ps
  | changed {operation : Operation} {keys : List (String × String)} {members : Json.Members}
      {skip : List String} {written : List (String × Written)} {d c e : Draft} {site : KeySite}
      {ps : Parameters}
      (hoperation : (operation = .update ∧ skip = []) ∨
        (operation = .merge ∧ skip = keys.map Prod.fst))
      (hkeys : KeyMatch.readArgument type keyPath (s.argument? Argument.key) d = .ok (keys, c))
      (hdata : s.argument? Argument.data = some (.obj members))
      (hwritten : properties type dataPath skip members c = .ok (written, e))
      (h : RelationsExamine setting.catalog type node .changed dataPath skip members e site ps) :
      Examines setting type node s operation d site ps

section ComesTo

variable {node base : String} {relation : Relation} {field : Field}
  {level : Level} {skip : List String} {site : KeySite} {ps : Parameters}

theorem matchEach_comesTo {operation : NestedOperation}
    {clause : String → List (String × String) → Clause} {earlier : List Json.Members}
    {done : List Clause} {f : Draft}
    (hearlier : matchEach operation clause base target path 0 earlier d = .ok (done, f))
    (members : Json.Members) (later : List Json.Members) :
    ComesTo (matchEach operation clause base target path 0 (earlier ++ members :: later)) d
      ⟨target, path.indexed operation.name earlier.length, some (.obj members)⟩
      f.parameters := by
  rw [matchEach_append, Nat.zero_add, matchEach]
  exact .after hearlier (.bind (.after (Drafting.claim_eq_ok.mpr rfl)
    (.bind (comesTo_read ⟨target, _, some (.obj members)⟩ _) _)) _)

theorem operations_comesTo {members : List (String × Json)}
    (h : OperationsExamine catalog field relation target node level path members d site ps) :
    ComesTo (operations catalog field relation target node level path members) d site ps := by
  cases h with
  | connect hbefore hkey hitems hearlier =>
      rw [connectEach_eq] at hearlier
      rw [operations_append, operations]
      refine .after hbefore (.bind (.lift_after hitems ?_) _)
      simp only [hkey, connectEach_eq]
      exact .bind (matchEach_comesTo hearlier _ _) _
  | disconnect hbefore hkey hlevel hitems hearlier =>
      rw [disconnectEach_eq] at hearlier
      rw [operations_append, operations]
      refine .after hbefore (.bind (.lift_after hitems ?_) _)
      simp only [hkey, if_neg hlevel, disconnectEach_eq]
      exact .bind (matchEach_comesTo hearlier _ _) _

theorem relations_comesTo {members : List (String × Json)}
    (h : RelationsExamine catalog type node level path skip members d site ps) :
    ComesTo (relations catalog type node level path skip members) d site ps := by
  cases h with
  | @operations before after key named field relation target done _ e _ _ hbefore hfield hskip
      hrelation htarget hnamed hlevel h =>
      have hread : (type.field? key).filter
          (fun _ => !skip.contains key && !(Json.obj named).isNull) = some field := by
        rw [hfield, Option.filter_some, hskip]
        rfl
      rw [relations_append, relations]
      refine .after hbefore (.bind ?_ _)
      simp only [hread, hrelation]
      refine .bind ?_ _
      rw [relationInput]
      refine .lift_after (Catalog.require_eq_ok.mpr htarget) ?_
      simp only [hnamed, hlevel, ite_true, Bool.not_true, Bool.false_eq_true, ite_false]
      exact operations_comesTo h

variable {setting : Setting} {s : Selection} {operation : Operation}

theorem statement_comesTo
    (harguments : s.arguments.keys.find? (!(allowedArguments operation).contains ·) = none)
    (h : Examines setting type (Alias.root type.name) s operation
      ⟨d.aliases.reserve (Alias.root type.name), d.parameters⟩ site ps) :
    ComesTo (Mutation.statement setting type operation s) d site ps := by
  unfold Mutation.statement
  refine .after (Drafting.reserve_eq_ok.mpr rfl) ?_
  rw [harguments]
  cases h with
  | argument hoperation =>
      obtain rfl | rfl | rfl := hoperation
      all_goals exact .bind (comesTo_read ⟨type, keyPath, s.argument? Argument.key⟩ _) _
  | created hdata hwritten h =>
      exact .lift_after (data_eq_ok.mpr hdata) (.after hwritten (.bind (relations_comesTo h) _))
  | changed hoperation hkeys hdata hwritten h =>
      obtain ⟨rfl, rfl⟩ | ⟨rfl, rfl⟩ := hoperation
      all_goals exact .after hkeys (.lift_after (data_eq_ok.mpr hdata)
        (.after hwritten (.bind (relations_comesTo h) _)))

end ComesTo

end Mutation

end CypherCompiler
