import CypherCompiler.Proofs.Filter.Counting
import CypherCompiler.Proofs.Text.PlainNames

namespace CypherCompiler

namespace Predicate

-- The parts that a predicate is made of.
def parts : Predicate → List Predicate
  | compare _ => []
  | all children => children
  | any children => children
  | not child => [child]
  | related _ child => [child]

-- A part that stands somewhere in the whole, with all that it stands in, the innermost first.
inductive Inside (whole : Predicate) : List Predicate → Predicate → Prop
  | whole : Inside whole [] whole
  | part {above p q} (hp : Inside whole above p) (hq : q ∈ p.parts) : Inside whole (p :: above) q

def hop? : Predicate → Option FilterHop
  | related hop _ => some hop
  | _ => none

def isNegation : Predicate → Bool
  | not _ => true
  | _ => false

-- The path of the innermost relationship that a part stands in.
def pathAbove (above : List Predicate) : List String :=
  match above.findSome? hop? with
  | some hop => hop.path
  | none => []

def negatedBy (above : List Predicate) : Bool := above.any isNegation

theorem pathAbove_cons (p : Predicate) (above : List Predicate) :
    pathAbove (p :: above) = match p.hop? with
      | some hop => hop.path
      | none => pathAbove above := by
  unfold pathAbove
  rw [List.findSome?_cons]
  cases p.hop? <;> rfl

theorem negatedBy_cons (p : Predicate) (above : List Predicate) :
    negatedBy (p :: above) = (p.isNegation || negatedBy above) := rfl

end Predicate

open Predicate

-- A relationship that the filter asks for under a key. The last segment of its path is the bare
-- name of the field where a node has to match and no negation stands above, and else has the
-- quantifier at its end.
structure FilterHop.Recorded (above : List Predicate) (type : NodeType) (key : String) (v : Json)
    (hop : FilterHop) : Prop where
  asked : ∃ field quantifier,
    FilterKey.read? type key = some (.relationship field hop.relation quantifier) ∧
      field.name = hop.field ∧ effectiveQuantifier? quantifier v = some hop.quantifier
  path : ∃ segment, hop.path = pathAbove above ++ [segment] ∧
    (segment = hop.field ↔ hop.quantifier = .some ∧ ∀ p ∈ above, p.isNegation = false) ∧
    (segment ≠ hop.field → segment = hop.field ++ "_" ++ hop.quantifier.suffix)

theorem FilterHop.recorded {above : List Predicate} {type : NodeType} {key : String} {v : Json}
    {field : Field} {relation : Relation} {quantifier effective : Quantifier}
    (hkey : FilterKey.read? type key = some (.relationship field relation quantifier))
    (heffective : effectiveQuantifier? quantifier v = some effective) :
    FilterHop.Recorded above type key v
      ⟨pathAbove above ++ [hopSegment field.name effective (negatedBy above)], field.name,
        relation, effective⟩ where
  asked := ⟨field, quantifier, hkey, rfl, heffective⟩
  path := by
    refine ⟨_, rfl, ?_, hopSegment_of_ne⟩
    rw [hopSegment_eq_self_iff, negatedBy, List.any_eq_false]
    simp only [Bool.not_eq_true]

-- The piece of a filter that a part is read from.
inductive FilterPiece where
  | object (members : List (String × Json))
  | member (key : String) (v : Json)

namespace FilterPiece

variable (catalog : Catalog)

-- How the pieces of a filter on a type, and what is read from them, stand in each other.
inductive Opens : NodeType → FilterPiece → Predicate → NodeType → FilterPiece → Predicate → Prop
  | member {type members children key v p} (hp : ((key, v), p) ∈ members.zip children) :
      Opens type (.object members) (.all children) type (.member key v) p
  | all {type key items children members p}
      (hkey : FilterKey.read? type key = some (.combinator .and))
      (hp : (.obj members, p) ∈ items.zip children) :
      Opens type (.member key (.arr items)) (.all children) type (.object members) p
  | any {type key items children members p}
      (hkey : FilterKey.read? type key = some (.combinator .or))
      (hp : (.obj members, p) ∈ items.zip children) :
      Opens type (.member key (.arr items)) (.any children) type (.object members) p
  | not {type key members p} (hkey : FilterKey.read? type key = some (.combinator .not)) :
      Opens type (.member key (.obj members)) (.not p) type (.object members) p
  | related {type target key field relation quantifier members hop p}
      (hkey : FilterKey.read? type key = some (.relationship field relation quantifier))
      (htarget : catalog.type? relation.target = some target) :
      Opens type (.member key (.obj members)) (.related hop p) target (.object members) p
  | absent {type target key field relation quantifier hop p}
      (hkey : FilterKey.read? type key = some (.relationship field relation quantifier))
      (htarget : catalog.type? relation.target = some target) :
      Opens type (.member key .null) (.related hop p) target (.object []) p

-- Where in a filter a part of the predicate comes from, and of which type its nodes are.
inductive ReadFrom (type : NodeType) (members : List (String × Json)) (whole : Predicate) :
    List Predicate → NodeType → FilterPiece → Predicate → Prop
  | whole : ReadFrom type members whole [] type (.object members) whole
  | opens {above t source p t' source' q}
      (hp : ReadFrom type members whole above t source p)
      (hq : Opens catalog t source p t' source' q) :
      ReadFrom type members whole (p :: above) t' source' q

-- A piece of a filter is read to a part of the predicate, somewhere in the request.
inductive Reads (type : NodeType) (hops : List String) (negated : Bool) :
    FilterPiece → Predicate → Prop
  | object {path members children ps qs}
      (h : ofMembers catalog type hops negated path members ps = .ok (children, qs)) :
      Reads type hops negated (.object members) (.all children)
  | member {path key v p ps qs}
      (h : ofMember catalog type hops negated path key v ps = .ok (p, qs)) :
      Reads type hops negated (.member key v) p

variable {catalog : Catalog} {type : NodeType} {hops : List String} {negated : Bool}
  {path : ParameterPath} {key : String} {ps qs : Parameters}

theorem reads_nil : Reads catalog type hops negated (.object []) (.all []) := by
  have hnone : ofMembers catalog type hops negated .root [] .empty = .ok ([], .empty) :=
    ofMembers_nil_eq_ok.mpr rfl
  exact .object hnone

theorem reads_of_mem_ofMembers {members : List (String × Json)} {children : List Predicate}
    {p : Predicate} (h : ofMembers catalog type hops negated path members ps = .ok (children, qs))
    (hp : p ∈ children) :
    ∃ key v, ((key, v), p) ∈ members.zip children ∧
      Reads catalog type hops negated (.member key v) p := by
  induction members generalizing ps qs children with
  | nil =>
      cases ofMembers_nil_eq_ok.mp h
      simp at hp
  | cons entry rest ih =>
      obtain ⟨first, more, ms, hfirst, hmore, rfl⟩ := ofMembers_cons_eq_ok.mp h
      rw [List.zip_cons_cons]
      obtain rfl | hp := List.mem_cons.mp hp
      · exact ⟨entry.1, entry.2, List.mem_cons_self, .member hfirst⟩
      · obtain ⟨key, v, hzip, hread⟩ := ih hmore hp
        exact ⟨key, v, List.mem_cons_of_mem _ hzip, hread⟩

theorem reads_of_mem_ofItems {index : Nat} {items : List Json} {children : List Predicate}
    {p : Predicate}
    (h : ofItems catalog type hops negated path key index items ps = .ok (children, qs))
    (hp : p ∈ children) :
    ∃ members, (.obj members, p) ∈ items.zip children ∧
      Reads catalog type hops negated (.object members) p := by
  induction items generalizing index ps qs children with
  | nil =>
      cases ofItems_nil_eq_ok.mp h
      simp at hp
  | cons item rest ih =>
      obtain ⟨members, inner, more, ms, rfl, hinner, hmore, rfl⟩ := ofItems_cons_cases h
      rw [List.zip_cons_cons]
      obtain rfl | hp := List.mem_cons.mp hp
      · exact ⟨members, List.mem_cons_self, .object hinner⟩
      · obtain ⟨members, hzip, hread⟩ := ih hmore hp
        exact ⟨members, List.mem_cons_of_mem _ hzip, hread⟩

-- A part of what is read is read from a piece of the source, below the relationship and under the
-- negation that the whole may be.
theorem Reads.part {source : FilterPiece} {above : List Predicate} {p q : Predicate}
    (h : source.Reads catalog type (pathAbove above) (negatedBy above) p) (hq : q ∈ p.parts) :
    ∃ t piece, Opens catalog type source p t piece q ∧
      piece.Reads catalog t (pathAbove (p :: above)) (negatedBy (p :: above)) q := by
  rw [pathAbove_cons, negatedBy_cons]
  cases h with
  | object h =>
      obtain ⟨key, v, hzip, hread⟩ := reads_of_mem_ofMembers h hq
      exact ⟨type, _, .member hzip, hread⟩
  | member h =>
      cases ofMember_cases h with
      | all hkey hitems =>
          obtain ⟨members, hzip, hread⟩ := reads_of_mem_ofItems hitems hq
          exact ⟨type, _, .all hkey hzip, hread⟩
      | any hkey hitems =>
          obtain ⟨members, hzip, hread⟩ := reads_of_mem_ofItems hitems hq
          exact ⟨type, _, .any hkey hzip, hread⟩
      | not hkey hmembers =>
          obtain rfl := List.mem_singleton.mp hq
          exact ⟨type, _, .not hkey, .object hmembers⟩
      | comparison hkey hcompare =>
          obtain ⟨-, -, rfl, -⟩ | ⟨-, _, -, rfl, -⟩ := comparison_cases hcompare <;> cases hq
      | absent hkey htarget _ =>
          obtain rfl := List.mem_singleton.mp hq
          exact ⟨_, _, .absent hkey htarget, reads_nil⟩
      | related hkey htarget hmembers =>
          obtain rfl := List.mem_singleton.mp hq
          exact ⟨_, _, .related hkey htarget, .object hmembers⟩

theorem ReadFrom.of_inside {members : List (String × Json)} {whole p : Predicate}
    {above : List Predicate} (hwhole : Reads catalog type [] false (.object members) whole)
    (h : Inside whole above p) :
    ∃ t source, ReadFrom catalog type members whole above t source p ∧
      source.Reads catalog t (pathAbove above) (negatedBy above) p := by
  induction h with
  | whole => exact ⟨type, _, .whole, hwhole⟩
  | part _ hq ih =>
      obtain ⟨t, source, hfrom, hread⟩ := ih
      obtain ⟨t', piece, hopens, hpart⟩ := hread.part hq
      exact ⟨t', piece, hfrom.opens hopens, hpart⟩

-- A comparison stands on the nodes that the innermost relationship above leads to.
structure PathRecorded (above : List Predicate) (type : NodeType) (source : FilterPiece)
    (part : Predicate) : Prop where
  compare : ∀ c, part = .compare c → c.path = pathAbove above
  related : ∀ hop inner, part = .related hop inner →
    ∃ key v, source = .member key v ∧ FilterHop.Recorded above type key v hop

theorem Reads.pathRecorded {source : FilterPiece} {above : List Predicate} {p : Predicate}
    (h : source.Reads catalog type (pathAbove above) (negatedBy above) p) :
    source.PathRecorded above type p := by
  cases h with
  | object _ => exact ⟨nofun, nofun⟩
  | member h =>
      cases ofMember_cases h with
      | all | any | not => exact ⟨nofun, nofun⟩
      | comparison _ hcompare =>
          obtain ⟨-, -, rfl, -⟩ | ⟨-, _, -, rfl, -⟩ := comparison_cases hcompare <;>
            exact ⟨fun _ hp => (by cases hp; rfl), nofun⟩
      | absent hkey _ hflip =>
          refine ⟨nofun, fun hop inner hp => ?_⟩
          cases hp
          exact ⟨_, _, rfl, FilterHop.recorded hkey hflip⟩
      | related hkey _ _ =>
          refine ⟨nofun, fun hop inner hp => ?_⟩
          cases hp
          exact ⟨_, _, rfl, FilterHop.recorded hkey rfl⟩

end FilterPiece

namespace Predicate

-- Every path in a filter that is accepted tells which relationships lead there, with which
-- quantifiers, and whether under a negation. The count of negations that tells this is right
-- again whenever the reading ends.
theorem ofFilter_paths_recorded (catalog : Catalog) (type : NodeType) (path : ParameterPath)
    (filter : Json) (ps : Parameters) :
    (∀ n, ((countingFilter catalog type path filter).runOn ⟨ps, n⟩).2.negations = n) ∧
    Counting.Mirrors 0 (ofFilter catalog type path filter)
      (countingFilter catalog type path filter) ∧
    ∀ children qs, ofFilter catalog type path filter ps = .ok (children, qs) →
      ∃ members, filter = .obj members ∧
        ∀ above part, Inside (.all children) above part →
          ∃ t source,
            FilterPiece.ReadFrom catalog type members (.all children) above t source part ∧
              source.PathRecorded above t part := by
  refine ⟨negations_countingFilter filter ps, countingFilter_mirrors filter,
    fun children qs h => ?_⟩
  obtain ⟨members, rfl, hmembers⟩ := ofFilter_cases h
  refine ⟨members, rfl, fun above part hinside => ?_⟩
  obtain ⟨t, source, hfrom, hread⟩ :=
    FilterPiece.ReadFrom.of_inside (.object hmembers) hinside
  exact ⟨t, source, hfrom, hread.pathRecorded⟩

-- Movies with Ann, or in which nobody acts whose movies are all of one year.
def annFilter : Json := .obj
  [("OR", .arr
    [.obj [("actors", .obj [("name", .str "Ann")])],
      .obj [("NOT", .obj [("actors", .obj [("movies_every", .obj [("released",
        .ofInt 1999)])])])]])]

def actorsShared : FilterHop := ⟨["actors"], "actors", ⟨"ACTED_IN", .into, "Person"⟩, .some⟩

def actorsApart : FilterHop :=
  ⟨["actors_some"], "actors", ⟨"ACTED_IN", .into, "Person"⟩, .some⟩

def everyMovie : FilterHop :=
  ⟨["actors_some", "movies_every"], "movies", ⟨"ACTED_IN", .out, "Movie"⟩, .every⟩

def isAnn : Predicate := .compare
  ⟨["actors"], .property "name" none, .eq, .parameter "filter_OR_0_actors_name"⟩

def isOfTheYear : Predicate := .compare
  ⟨["actors_some", "movies_every"], .property "released" none, .eq,
    .parameter "filter_OR_1_NOT_actors_movies_every_released"⟩

def annPredicate : Predicate := .any
  [.all [.related actorsShared (.all [isAnn])],
    .all [.not (.all [.related actorsApart (.all [.related everyMovie (.all [isOfTheYear])])])]]

-- Both branches ask for actors, and the one under the negation names them apart.
theorem ofFilter_paths_recorded_annFilter :
    ∃ qs, ofFilter movies movieType ⟨["filter"]⟩ annFilter .empty = .ok ([annPredicate], qs) ∧
      (∃ above t key v inner, Inside (.all [annPredicate]) above (.related actorsShared inner) ∧
        FilterHop.Recorded above t key v actorsShared) ∧
      ∃ above t key v inner, Inside (.all [annPredicate]) above (.related actorsApart inner) ∧
        FilterHop.Recorded above t key v actorsApart := by
  obtain ⟨qs, h⟩ : ∃ qs, ofFilter movies movieType ⟨["filter"]⟩ annFilter .empty =
      .ok ([annPredicate], qs) := ⟨_, rfl⟩
  obtain ⟨-, -, hpaths⟩ :=
    ofFilter_paths_recorded movies movieType ⟨["filter"]⟩ annFilter .empty
  obtain ⟨members, -, hparts⟩ := hpaths _ _ h
  have hany : Inside (.all [annPredicate]) _ annPredicate := .part .whole List.mem_cons_self
  have hshared : Inside (.all [annPredicate]) _ (.related actorsShared (.all [isAnn])) :=
    (hany.part List.mem_cons_self).part List.mem_cons_self
  have hapart : Inside (.all [annPredicate]) _
      (.related actorsApart (.all [.related everyMovie (.all [isOfTheYear])])) :=
    (((hany.part (List.mem_cons_of_mem _ List.mem_cons_self)).part
      List.mem_cons_self).part List.mem_cons_self).part List.mem_cons_self
  obtain ⟨t, source, -, hrecorded⟩ := hparts _ _ hshared
  obtain ⟨key, v, -, hfirst⟩ := hrecorded.related _ _ rfl
  obtain ⟨t', source', -, hrecorded'⟩ := hparts _ _ hapart
  obtain ⟨key', v', -, hsecond⟩ := hrecorded'.related _ _ rfl
  exact ⟨qs, h, ⟨_, t, key, v, _, hshared, hfirst⟩, _, t', key', v', _, hapart, hsecond⟩

end Predicate

end CypherCompiler
