import CypherCompiler.Proofs.Blame.Projection

namespace CypherCompiler

-- What a compilation says where it finds itself in a state that it should never be in: a hop or a
-- step is not there, the group-by steps do not follow each other, a read is taken for a mutation,
-- or a field leads to a type that there is not.
inductive IsDefect (catalog : Catalog) : String → Prop
  | unplanned (path : String) :
      IsDefect catalog ("no traversal step planned for `" ++ path ++ "`")
  | ungrouped (written : String) : IsDefect catalog ("no step for `" ++ written ++ "`")
  | unrooted (node : String) : IsDefect catalog ("group-by step `" ++ node ++ "` has no parent")
  | detached (node previous : String) :
      IsDefect catalog
        ("group-by step `" ++ node ++ "` does not continue `" ++ previous ++ "`")
  | unwritten (name : String) : IsDefect catalog ("`" ++ name ++ "` is not a mutation")
  | unknownTarget {type : NodeType} {field : Field} {target : String} (htype : type ∈ catalog.types)
      (hfield : field ∈ type.fields) (htarget : field.target? = some target) :
      IsDefect catalog (SchemaError.unknownType target).message

-- A request that gives no type, or one that there is not, and the reason that says so.
inductive Request.LacksType (catalog : Catalog) (r : Request) : String → Prop
  | absent (hnone : r.typeName = none) :
      LacksType catalog r ("no return type given for `" ++ r.field.name ++ "`")
  | unknown {name : String} (hname : r.typeName = some name)
      (hmissing : catalog.type? name = none) :
      LacksType catalog r (SchemaError.unknownType name).message

-- The text starts with another one.
abbrev Text.Opens (opening text : String) : Prop := opening.toList <+: text.toList

namespace Text.Opens

variable {a b text : String}

theorem append (h : Opens a text) (rest : String) : Opens a (text ++ rest) := by
  rw [Opens, String.toList_append]
  exact h.trans (List.prefix_append _ _)

-- Of two openings of one text, one opens the other.
theorem not_opens (h : Opens a text) (hapart : ¬ (Opens a b ∨ Opens b a)) : ¬ Opens b text :=
  fun hb => hapart (List.prefix_or_prefix_of_prefix h hb)

end Text.Opens

open Text

variable {catalog : Catalog} {reason : String}

theorem SchemaError.unknownType_opens (name : String) : Opens "No" (unknownType name).message :=
  .append (.append (by decide) _) _

theorem SchemaError.unknownType_injective {name name' : String}
    (h : (unknownType name).message = (unknownType name').message) : name = name' :=
  (String.append_right_inj _).mp ((String.append_left_inj _).mp h)

-- What the texts of defects look like: those in which no backtick comes first are told apart by
-- their openings.
theorem IsDefect.text_cases (h : IsDefect catalog reason) :
    (∃ opening ∈ ["no t", "no s", "gr"], Opens opening reason) ∨
      (Opens "`" reason ∧ reason.toList.getLast? = some 'n') ∨
      ∃ target type, catalog.type? target = some type ∧
        reason = (SchemaError.unknownType target).message := by
  cases h with
  | unplanned path => exact .inl ⟨"no t", by simp, .append (.append (by decide) _) _⟩
  | ungrouped written => exact .inl ⟨"no s", by simp, .append (.append (by decide) _) _⟩
  | unrooted node => exact .inl ⟨"gr", by simp, .append (.append (by decide) _) _⟩
  | detached node previous =>
      exact .inl ⟨"gr", by simp, .append (.append (.append (.append (by decide) _) _) _) _⟩
  | unwritten name =>
      refine .inr (.inl ⟨.append (.append (by decide) _) _, ?_⟩)
      rw [String.toList_append, List.getLast?_append]
      rfl
  | unknownTarget htype hfield htarget =>
      obtain ⟨type, -, hfound⟩ := Catalog.exists_target htype hfield htarget
      exact .inr (.inr ⟨_, type, hfound, rfl⟩)

-- A text that opens otherwise is that of no defect.
theorem not_isDefect_of_opens {opening : String} (h : Opens opening reason)
    (hapart : ∀ other ∈ ["no t", "no s", "gr", "`", "No"],
      ¬ (Opens opening other ∨ Opens other opening)) : ¬ IsDefect catalog reason := by
  intro hdefect
  obtain ⟨other, hother, hopens⟩ | ⟨hopens, -⟩ | ⟨target, _, -, rfl⟩ := hdefect.text_cases
  · exact h.not_opens (hapart other (List.mem_append_left ["`", "No"] hother)) hopens
  · exact h.not_opens (hapart "`" (by simp)) hopens
  · exact h.not_opens (hapart "No" (by simp)) (SchemaError.unknownType_opens target)

theorem SelectsUnknown.not_isDefect {type : NodeType} {selections : List Selection}
    (h : SelectsUnknown catalog type selections reason) : ¬ IsDefect catalog reason := by
  induction h with
  | nested _ _ _ _ _ _ ih => exact ih
  | field =>
      exact not_isDefect_of_opens (.append (.append (.append (.append
        (by decide : Opens "ty" "type `") _) _) _) _) (by decide)
  | @subField type selections s t field compound =>
      have hself : Opens "`" ("`" ++ compound.name ++ "` has no sub-field `" ++ t.name ++ "`") :=
        .append (.append (.append (.append (by decide) _) _) _) _
      have hothers : ∀ other ∈ ["no t", "no s", "gr"], ¬ (Opens "`" other ∨ Opens other "`") := by
        decide
      intro hdefect
      obtain ⟨other, hother, hopens⟩ | ⟨-, hlast⟩ | ⟨target, _, -, htext⟩ := hdefect.text_cases
      · exact hself.not_opens (hothers other hother) hopens
      · -- only the text of a sub-field ends with a backtick
        rw [String.toList_append, List.getLast?_append] at hlast
        cases hlast
      · rw [htext] at hself
        exact hself.not_opens (by decide) (SchemaError.unknownType_opens target)

theorem Request.LacksType.not_isDefect {r : Request} (h : r.LacksType catalog reason) :
    ¬ IsDefect catalog reason := by
  cases h with
  | absent =>
      exact not_isDefect_of_opens (.append (.append
        (by decide : Opens "no r" "no return type given for `") _) _) (by decide)
  | @unknown name hname hmissing =>
      intro hdefect
      have hself := SchemaError.unknownType_opens name
      have hothers : ∀ other ∈ ["no t", "no s", "gr"], ¬ (Opens "No" other ∨ Opens other "No") := by
        decide
      obtain ⟨other, hother, hopens⟩ | ⟨hopens, -⟩ | ⟨target, type, hfound, htext⟩ :=
        hdefect.text_cases
      · exact hself.not_opens (hothers other hother) hopens
      · exact hself.not_opens (by decide) hopens
      · -- a field leads to types of the catalog only
        obtain rfl := SchemaError.unknownType_injective htext
        cases hmissing.symm.trans hfound

end CypherCompiler
