import CypherCompiler.Proofs.Outcome.Failure
import CypherCompiler.Proofs.Text.PlainNames

namespace CypherCompiler

-- The equality tests that the arguments of a read field may be: on the number of the node, or on
-- one of its properties.
def NodeType.hasTest (t : NodeType) (name : String) : Bool :=
  name == Argument.nodeId || ((t.field? name).filter (·.isProperty)).isSome

-- The comparator of an equality test.
def Field.testedWith (f : Field) (v : Json) : Comparator :=
  if v.isArray && !f.list then .isIn else .eq

-- A test whose value has a shape that the property can be compared with.
def NodeType.fitsTest (t : NodeType) (name : String) (v : Json) : Bool :=
  name == Argument.nodeId || ((t.field? name).filter (·.isProperty)).any fun f =>
    (f.comparedValue? (f.testedWith v) v).isSome

-- Arguments that are no tests at all, and arguments that are null, are kept with the tests.
def Argument.isKept (keep : String → Json → Bool) (argument : String × Json) : Bool :=
  argument.2.isNull || reserved.contains argument.1 || keep argument.1 argument.2

namespace Selection

-- The field with only some of its tests.
def keepTests (s : Selection) (keep : String → Json → Bool) : Selection :=
  { s with arguments := s.arguments.filter (Argument.isKept keep) }

-- The field without the arguments that its type has no test for.
def withoutUnknown (s : Selection) (type : NodeType) : Selection :=
  s.keepTests fun name _ => type.hasTest name

-- The field without those, and without the tests whose value does not fit.
def withoutUnfit (s : Selection) (type : NodeType) : Selection :=
  s.keepTests type.fitsTest

-- Every test that the type has is given a value that fits.
def TestsFit (s : Selection) (type : NodeType) : Prop :=
  ∀ argument ∈ s.arguments, argument.2.isNull = false →
    Argument.reserved.contains argument.1 = false → type.hasTest argument.1 = true →
    type.fitsTest argument.1 argument.2 = true

end Selection

-- Entries that stay whatever their value is are found as before.
theorem Json.Members.get?_filter {test : String × Json → Bool} {key : String}
    (h : ∀ v, test (key, v) = true) (ms : Json.Members) :
    Json.Members.get? (ms.filter test) key = ms.get? key := by
  unfold get?
  induction ms with
  | nil => rfl
  | cons entry rest ih =>
      by_cases hkey : key = entry.1
      · subst hkey
        rw [List.filter_cons_of_pos (h entry.2), List.lookup_cons, List.lookup_cons]
        simp
      · have hother : (key == entry.1) = false := beq_false_of_ne hkey
        rw [List.lookup_cons, hother]
        by_cases hentry : test entry = true
        · rw [List.filter_cons_of_pos hentry, List.lookup_cons, hother]
          exact ih
        · rw [List.filter_cons_of_neg hentry]
          exact ih

theorem Selection.keepTests_argument? (s : Selection) (keep : String → Json → Bool) {name : String}
    (hname : name ∈ Argument.reserved) : (s.keepTests keep).argument? name = s.argument? name := by
  have hkept : ∀ v, Argument.isKept keep (name, v) = true := by
    intro v
    simp [Argument.isKept, hname]
  exact congrArg (Option.filter (!·.isNull)) (Json.Members.get?_filter hkept s.arguments)

-- Taking out a value fails only where its name was given out before.
theorem Hoist.value_fails (path : ParameterPath) (v : Json) :
    StepFailsOnly (· = .parameterCollision path.name) (Hoist.value path v) := by
  intro ps
  refine FailsOnly.map ?_ _
  unfold Parameters.insert
  split
  · exact .error rfl
  · exact .ok _

namespace Hoist

variable {α : Type} {step : Hoist α} {ps : Parameters}

-- A step that refuses nothing is read the same way in both modes.
theorem orSkip_eq {name : String} (h : StepFailsOnly (· = .parameterCollision name) step) :
    orSkip false step = orSkip true step := by
  funext ps
  unfold orSkip
  cases hstep : step ps with
  | ok r => rfl
  | error e =>
      obtain rfl := h ps e hstep
      rfl

theorem orSkip_refuse {key : String} (h : step = refuse key) : orSkip false step = pure none := by
  subst h
  rfl

end Hoist

namespace Predicate

variable {catalog : Catalog} {type : NodeType} {path : ParameterPath} {name : String} {v : Json}

-- A test either refuses its argument, whatever was taken out before, or never refuses it.
theorem ofArgument_fails (hv : v.isNull = false) (h : type.fitsTest name v = true) :
    StepFailsOnly (· = .parameterCollision (path.child name).name)
      (ofArgument type path name v) := by
  unfold ofArgument
  split
  · exact (Hoist.value_fails _ _).followedBy fun _ => .of_pure _
  · rename_i hname
    simp only [NodeType.fitsTest, beq_eq_false_iff_ne.mpr hname, Bool.false_or] at h
    cases hfield : (type.field? name).filter (·.isProperty) with
    | none => simp [hfield] at h
    | some field =>
        simp only [hfield, Option.any_some, Option.isSome_iff_exists, Field.testedWith] at h
        obtain ⟨value, hvalue⟩ := h
        simp only [comparison, hv, hvalue]
        exact (Hoist.value_fails _ _).followedBy fun _ => .of_pure _

theorem ofArgument_refuses (hv : v.isNull = false) (h : type.fitsTest name v = false) :
    ofArgument type path name v = Hoist.refuse name := by
  unfold NodeType.fitsTest at h
  rw [Bool.or_eq_false_iff, beq_eq_false_iff_ne] at h
  obtain ⟨hname, hfit⟩ := h
  rw [ofArgument, if_neg hname]
  cases hfield : (type.field? name).filter (·.isProperty) with
  | none => rfl
  | some field =>
      have hnone : field.comparedValue? (field.testedWith v) v = none := by
        simpa [hfield] using hfit
      unfold Field.testedWith at hnone
      simp only [comparison, hv, hnone]
      rfl

-- Reading the arguments leniently leaves out the tests that do not fit, and does nothing else.
theorem ofArguments_lenient {keep : String → Json → Bool} (arguments : Json.Members)
    (hkeep : ∀ argument ∈ arguments, argument.2.isNull = false →
      Argument.reserved.contains argument.1 = false →
      keep argument.1 argument.2 = type.fitsTest argument.1 argument.2) :
    ofArguments type path false arguments =
      ofArguments type path true (arguments.filter (Argument.isKept keep)) := by
  induction arguments with
  | nil => rfl
  | cons argument rest ih =>
      obtain ⟨name, v⟩ := argument
      obtain ⟨hfirst, hrest⟩ := List.forall_mem_cons.mp hkeep
      have hih := ih hrest
      by_cases hskip : (Argument.reserved.contains name || v.isNull) = true
      · -- no mode looks at the argument
        have hkept : Argument.isKept keep (name, v) = true := by
          rw [Argument.isKept, Bool.or_comm v.isNull, hskip, Bool.true_or]
        rw [List.filter_cons_of_pos hkept, ofArguments, ofArguments, if_pos hskip, if_pos hskip]
        exact hih
      · obtain ⟨hreserved, hv⟩ := Bool.or_eq_false_iff.mp (Bool.eq_false_iff.mpr hskip)
        have hkept : Argument.isKept keep (name, v) = type.fitsTest name v := by
          rw [Argument.isKept, hv, hreserved, hfirst hv hreserved, Bool.false_or, Bool.false_or]
        cases hfit : type.fitsTest name v with
        | true =>
            rw [List.filter_cons_of_pos (hkept.trans hfit), ofArguments, ofArguments,
              if_neg hskip, if_neg hskip, Hoist.orSkip_eq (ofArgument_fails hv hfit), hih]
        | false =>
            -- nothing was taken out when the test was refused
            have hdropped : ¬ Argument.isKept keep (name, v) = true := by simp [hkept, hfit]
            rw [List.filter_cons_of_neg hdropped, ofArguments, if_neg hskip,
              Hoist.orSkip_refuse (ofArgument_refuses hv hfit), ← hih]
            simp

theorem ofSelection_keepTests {keep : String → Json → Bool} {s : Selection}
    (hkeep : ∀ argument ∈ s.arguments, argument.2.isNull = false →
      Argument.reserved.contains argument.1 = false →
      keep argument.1 argument.2 = type.fitsTest argument.1 argument.2) :
    ofSelection catalog type path false s =
      ofSelection catalog type path true (s.keepTests keep) := by
  have hfilter : (s.keepTests keep).argument? Argument.filter = s.argument? Argument.filter :=
    s.keepTests_argument? keep (by decide)
  rw [ofSelection, ofSelection, hfilter, ofArguments_lenient s.arguments hkeep]
  rfl

-- Read leniently, a field is the same, with its condition, its parameters and its error, as
-- the field without the tests that do not fit is when it is read strictly. Where every property
-- is given a value that fits, these are the arguments that the type has no test for.
theorem ofSelection_lenient (catalog : Catalog) (type : NodeType) (path : ParameterPath)
    (s : Selection) (ps : Parameters) :
    ofSelection catalog type path false s ps =
        ofSelection catalog type path true (s.withoutUnfit type) ps ∧
      (s.TestsFit type → ofSelection catalog type path false s ps =
        ofSelection catalog type path true (s.withoutUnknown type) ps) := by
  refine ⟨congrFun (ofSelection_keepTests fun _ _ _ _ => rfl) ps, fun hfit => ?_⟩
  refine congrFun (ofSelection_keepTests fun argument hargument hv hreserved => ?_) ps
  rw [Bool.eq_iff_iff]
  refine ⟨hfit argument hargument hv hreserved, fun h => ?_⟩
  rw [NodeType.fitsTest, Bool.or_eq_true] at h
  rw [NodeType.hasTest, Bool.or_eq_true]
  refine h.imp id fun hvalue => ?_
  cases hfield : (type.field? argument.1).filter (·.isProperty) with
  | none => simp [hfield] at hvalue
  | some field => rfl

-- Movies called something that is no title at all.
def untitledMovies : Selection where
  name := "movies"
  aliasName := none
  arguments := [("title", .obj [("a", .str "Up")])]
  selections := []

-- An ill-shaped value on a property is left out with the test, and all movies are read.
theorem ofSelection_lenient_widens :
    ofSelection movies movieType ⟨[]⟩ false untitledMovies .empty = .ok (.all [], .empty) ∧
      ofSelection movies movieType ⟨[]⟩ true (untitledMovies.withoutUnknown movieType) .empty =
        .error (.invalidFilterField "title") :=
  ⟨rfl, rfl⟩

-- Movies of some years, with a misspelt argument beside the test.
def releasedMovies : Selection where
  name := "movies"
  aliasName := none
  arguments := [("yaer", .ofInt 1999), ("released", .arr [.ofInt 1999, .ofInt 2003]),
    ("first", .ofInt 3)]
  selections := []

theorem ofSelection_lenient_releasedMovies :
    releasedMovies.TestsFit movieType ∧
      ofSelection movies movieType ⟨[]⟩ false releasedMovies .empty =
        ofSelection movies movieType ⟨[]⟩ true (releasedMovies.withoutUnknown movieType)
          .empty := by
  have hfit : releasedMovies.TestsFit movieType := by
    unfold Selection.TestsFit releasedMovies
    decide
  exact ⟨hfit, (ofSelection_lenient movies movieType ⟨[]⟩ releasedMovies .empty).2 hfit⟩

end Predicate

end CypherCompiler
