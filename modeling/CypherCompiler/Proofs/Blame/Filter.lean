import CypherCompiler.Proofs.Blame.Step
import CypherCompiler.Proofs.Outcome.Filter
import CypherCompiler.Proofs.Schema.Lookup

namespace CypherCompiler.Predicate

variable {P : String → Prop} {catalog : Catalog}

theorem comparison_blames (field : Field) (op : Comparator) (key : String) (v : Json)
    (hops : List String) (path : ParameterPath) :
    Blames P (comparison field op key v hops path) := by
  unfold comparison
  split
  · split
    · exact .of_pure _
    · exact Hoist.refuse_blames key
  · cases field.comparedValue? op v with
    | none => exact Hoist.refuse_blames key
    | some value => exact (Hoist.value_blames path value).followedBy fun _ => .of_pure _

mutual

-- A filter never blames the schema, as each relationship leads to a type that there is.
theorem ofMembers_blames {type : NodeType} (htype : type ∈ catalog.types) (hops : List String)
    (negated : Bool) (path : ParameterPath) (members : List (String × Json)) :
    Blames P (ofMembers catalog type hops negated path members) := by
  match members with
  | [] =>
      rw [ofMembers]
      exact .of_pure _
  | (key, v) :: rest =>
      rw [ofMembers]
      exact (ofMember_blames htype hops negated path key v).followedBy fun _ =>
        (ofMembers_blames htype hops negated path rest).followedBy fun _ => .of_pure _
termination_by sizeOf members

theorem ofMember_blames {type : NodeType} (htype : type ∈ catalog.types) (hops : List String)
    (negated : Bool) (path : ParameterPath) (key : String) (v : Json) :
    Blames P (ofMember catalog type hops negated path key v) := by
  rw [ofMember.eq_def]
  refine .lift_bind (FilterKey.read_faultsRequest type key).gives fun k hread => ?_
  have hk := FilterKey.read_eq_ok.mp hread
  cases k with
  | combinator c =>
      cases c with
      | and =>
          cases v with
          | arr items =>
              exact (ofItems_blames htype hops negated path key 0 items).followedBy fun _ =>
                .of_pure _
          | _ => exact Hoist.refuse_blames key
      | or =>
          cases v with
          | arr items =>
              exact (ofItems_blames htype hops negated path key 0 items).followedBy fun _ =>
                .of_pure _
          | _ => exact Hoist.refuse_blames key
      | not =>
          cases v with
          | obj members =>
              exact (ofMembers_blames htype hops true (path.child key) members).followedBy
                fun _ => .of_pure _
          | _ => exact Hoist.refuse_blames key
  | comparison field op => exact comparison_blames field op key v hops (path.child key)
  | relationship field relation quantifier =>
      obtain ⟨hfield, hrelation⟩ := FilterKey.relationship_of_read? hk
      obtain ⟨target, htarget, hrequire⟩ :=
        Catalog.require_target htype hfield (Field.target?_of_relation? hrelation)
      refine .lift_ok hrequire ?_
      cases effectiveQuantifier? quantifier v with
      | none => exact Hoist.refuse_blames key
      | some effective =>
          cases v with
          | null => exact .of_pure _
          | obj members =>
              exact (ofMembers_blames htarget _ negated (path.child key) members).followedBy
                fun _ => .of_pure _
          | _ => exact Hoist.refuse_blames key
termination_by sizeOf v

theorem ofItems_blames {type : NodeType} (htype : type ∈ catalog.types) (hops : List String)
    (negated : Bool) (path : ParameterPath) (key : String) (index : Nat) (items : List Json) :
    Blames P (ofItems catalog type hops negated path key index items) := by
  match items with
  | [] =>
      rw [ofItems]
      exact .of_pure _
  | .obj members :: rest =>
      rw [ofItems]
      exact (ofMembers_blames htype hops negated (path.indexed key index) members).followedBy
        fun _ => (ofItems_blames htype hops negated path key (index + 1) rest).followedBy
          fun _ => .of_pure _
  | .null :: _ | .bool _ :: _ | .number _ :: _ | .str _ :: _ | .arr _ :: _ =>
      rw [ofItems]
      · exact Hoist.refuse_blames key
      · simp
termination_by sizeOf items

end

theorem ofArgument_blames (type : NodeType) (path : ParameterPath) (name : String) (v : Json) :
    Blames P (ofArgument type path name v) := by
  unfold ofArgument
  split
  · exact (Hoist.value_blames _ _).followedBy fun _ => .of_pure _
  · split
    · exact Hoist.refuse_blames name
    · exact comparison_blames _ _ name v [] (path.child name)

theorem ofArguments_blames (type : NodeType) (path : ParameterPath) (strict : Bool)
    (arguments : List (String × Json)) :
    Blames P (ofArguments type path strict arguments) := by
  induction arguments with
  | nil => exact .of_pure _
  | cons argument rest ih =>
      rw [ofArguments]
      split
      · exact ih
      · exact (Hoist.orSkip_blames (ofArgument_blames type path _ _)).followedBy fun _ =>
          ih.followedBy fun _ => .of_pure _

theorem ofSelection_blames {type : NodeType} (htype : type ∈ catalog.types) (path : ParameterPath)
    (strict : Bool) (s : Selection) : Blames P (ofSelection catalog type path strict s) := by
  unfold ofSelection
  refine (ofArguments_blames type path strict s.arguments).followedBy fun tests => ?_
  cases s.argument? Argument.filter with
  | none => exact (StepFailsOnly.of_pure _).followedBy fun _ => .of_pure _
  | some v =>
      refine StepFailsOnly.followedBy ?_ fun _ => .of_pure _
      unfold ofFilter
      split
      · exact ofMembers_blames htype [] false _ _
      · exact Hoist.refuse_blames Argument.filter

end CypherCompiler.Predicate
