import CypherCompiler.Proofs.Collision.Filter
import CypherCompiler.Proofs.Outcome.Projection
import CypherCompiler.Proofs.Selection.Nodes
import CypherCompiler.Proofs.Traversal.Selected

namespace CypherCompiler

open Cypher Json Text

-- The arguments of a read field whose values have names of their own.
def namedArguments : List String := [Argument.search, Argument.offset, Argument.first]

-- The name of a single argument.
def argumentNames (start : List String) (argument : String) : Region :=
  {w | w = start ++ [argument]}

-- The names that a read field gives out, apart from those of its selections.
def readNames (start : List String) : Region :=
  conditionNames start ∪ eachOf (argumentNames start) namedArguments

-- The names that a selection below a node gives out: something follows its response key.
def childNames (start : List String) (key : String) : Region :=
  {w | ∃ first more, IsSimple key ∧ key ≠ Argument.filter ∧ w = start ++ key :: first :: more}

-- The names that stand at least two tokens deeper.
def innerNames (start : List String) : Region :=
  {w | ∃ first second more, w = start ++ first :: second :: more}

section

variable {start : List String}

theorem argumentNames_tellsKeys : TellsKeys (argumentNames start) := by
  rintro key key' w rfl heq
  exact (List.cons.inj (List.append_cancel_left heq)).1

theorem childNames_tellsKeys : TellsKeys (childNames start) := by
  rintro key key' w ⟨first, more, -, -, rfl⟩ ⟨first', more', -, -, heq⟩
  exact (List.cons.inj (List.append_cancel_left heq)).1

-- Equality tests have no argument with a meaning of its own, and a filter goes on.
theorem conditionNames_disjoint_named :
    Disjoint (conditionNames start) (eachOf (argumentNames start) namedArguments) := by
  have hnamed : ∀ x ∈ namedArguments, tokens x = [x] ∧ x ∈ Argument.reserved := by decide
  rw [Set.disjoint_left]
  rintro w (⟨name, htest, rfl⟩ | ⟨first, more, rfl⟩) ⟨x, hx, heq⟩
  · obtain ⟨hx, hreserved⟩ := hnamed x hx
    have hname : tokens name = tokens x := hx.symm ▸ List.append_cancel_left heq
    exact htest.1 (tokens_injective hname ▸ hreserved)
  · cases List.append_cancel_left heq

-- Behind a node stands the response key of a selection or something that no key is.
theorem readNames_disjoint_childNames (keys : List String) :
    Disjoint (readNames start) (eachOf (childNames start) keys) := by
  rw [Set.disjoint_left]
  rintro w hread ⟨key, -, first, more, hkey, hfilter, rfl⟩
  obtain (⟨name, htest, heq⟩ | ⟨first', more', heq⟩) | ⟨x, -, heq⟩ := hread
  · have hname := List.append_cancel_left heq
    obtain hid | hsingle := htest.tokens_cases
    · exact hkey.1 (List.cons.inj (hname.trans hid)).1
    · cases hname.trans hsingle
  · exact hfilter (List.cons.inj (List.append_cancel_left heq)).1
  · cases List.append_cancel_left heq

-- At the root of a statement no node stands before the arguments.
theorem rootNames_disjoint_childNames {node : String} (hnode : node ≠ Argument.filter)
    (keys : List String) : Disjoint (readNames []) (eachOf (childNames [node]) keys) := by
  rw [Set.disjoint_left]
  rintro w hread ⟨key, -, first, more, -, -, rfl⟩
  obtain (⟨name, htest, heq⟩ | ⟨first', more', heq⟩) | ⟨x, -, heq⟩ := hread
  · obtain hid | hsingle := htest.tokens_cases
    · cases heq.trans hid
    · cases heq.trans hsingle
  · exact hnode (List.cons.inj heq).1
  · cases heq

-- What is read below the node of a selection has names below its response key.
theorem names_subset_childNames {key : String} (hkey : IsSimple key)
    (hfilter : key ≠ Argument.filter) {node : List String} (hnode : start ++ [key] <+: node)
    (keys : List String) :
    readNames node ∪ eachOf (childNames node) keys ⊆ childNames start key := by
  obtain ⟨rest, rfl⟩ := hnode
  -- a fresh name of the node may have put a number behind the key
  have hmem : ∀ more : List String, more ≠ [] →
      start ++ [key] ++ rest ++ more ∈ childNames start key := by
    intro more hmore
    obtain ⟨first, others, hfirst⟩ :=
      List.exists_cons_of_ne_nil (l := rest ++ more) (by simp [hmore])
    refine ⟨first, others, hkey, hfilter, ?_⟩
    simp [hfirst]
  rintro w (((⟨name, -, rfl⟩ | ⟨first, more, rfl⟩) | ⟨x, -, rfl⟩) | ⟨k, -, first, more, -, -, rfl⟩)
  · exact hmem _ (tokens_ne_nil name)
  all_goals exact hmem _ (by simp)

-- What is selected below a computed field goes on where the arguments of the field end.
theorem argumentNames_disjoint_innerNames (arguments : List String) :
    Disjoint (eachOf (argumentNames start) arguments) (innerNames start) := by
  rw [Set.disjoint_left]
  rintro w ⟨a, -, rfl⟩ ⟨first, second, more, heq⟩
  cases List.append_cancel_left heq

theorem childNames_subset_innerNames {node : List String} (hnode : start <+: node)
    (keys : List String) : eachOf (childNames node) keys ⊆ innerNames start := by
  obtain ⟨rest, rfl⟩ := hnode
  rintro w ⟨key, -, first, more, -, -, rfl⟩
  obtain ⟨first', others, hfirst⟩ :=
    List.exists_cons_of_ne_nil (l := rest ++ [key]) (by simp)
  obtain ⟨second, others', hsecond⟩ :=
    List.exists_cons_of_ne_nil (l := others ++ first :: more) (by simp)
  refine ⟨first', second, others', ?_⟩
  rw [← hsecond, ← List.cons_append, ← hfirst]
  simp

theorem call_subset_childNames (start : List String) {key : String} (hkey : IsSimple key)
    (hfilter : key ≠ Argument.filter) (arguments : List String) :
    eachOf (argumentNames (start ++ [key])) arguments ∪ innerNames (start ++ [key]) ⊆
      childNames start key := by
  rintro w (⟨a, -, rfl⟩ | ⟨first, second, more, rfl⟩)
  · exact ⟨a, [], hkey, hfilter, by simp⟩
  · exact ⟨first, second :: more, hkey, hfilter, by simp⟩

theorem tokens_mem_argumentNames (path : ParameterPath) {name : String} (h : IsSimple name) :
    tokens (path.child name).name ∈ argumentNames path.tokens name := by
  rw [path.tokens_name_child, h.tokens_eq]
  rfl

end

-- The node of every selected relationship is named after the node of the plan and a key.
def Plan.NamesBelow (plan : Plan) (node : String) : Prop :=
  ∀ key step, plan.selectionStep? key = some step →
    tokens (Alias.child node key) <+: tokens step.node

theorem Plan.make_namesBelow {catalog : Catalog} {root : Root} {selections : List Selection}
    {groupBy : Option String} {predicate : Predicate} {aliases aliases' : AliasRegistry}
    {plan : Plan}
    (h : make catalog root selections groupBy predicate aliases = .ok (plan, aliases')) :
    plan.NamesBelow root.node := by
  intro key step hstep
  obtain ⟨hmem, hpath, horigin⟩ := findStep?_eq_some hstep
  obtain ⟨type, -, t, -, field, -, htpath, r, hnode⟩ := make_selected h hmem horigin
  obtain rfl := List.singleton_inj.mp (htpath.symm.trans hpath)
  rw [hnode]
  exact r.tokens_prefix_fresh _

namespace Selection

-- The words with which a selection asks: its name, and the keys of its arguments at any depth.
def words (s : Selection) : List String := s.name :: membersKeys s.arguments

variable {s : Selection} {setting : Setting} {root : Root} {path : ParameterPath}
  {words : List String}

theorem searchCall_draws (type : NodeType) (path : ParameterPath) :
    DraftDraws (argumentNames path.tokens Argument.search) (s.searchCall root type path) := by
  have hsearch : IsSimple Argument.search := by decide
  have hmem := tokens_mem_argumentNames path hsearch
  unfold searchCall
  split
  · exact draws_pure _
  · split
    · exact (Drafting.value_draws hmem).before fun _ =>
        (Drafting.reserve_draws _).after fun _ _ _ _ => (Drafting.claim_draws _).after
          fun _ _ _ _ => draws_pure _
    · exact draws_throw (by simp)

theorem planRead_draws {catalog : Catalog} (hcatalog : catalog.HasSimpleNames words)
    {strict : Bool} (path : ParameterPath) (hwords : membersKeys s.arguments ⊆ words)
    (harguments : (Json.obj s.arguments).HasDistinctKeys) (selections : List Selection)
    (groupBy : Option String) :
    DraftDraws (conditionNames path.tokens)
      (s.planRead catalog strict root path selections groupBy) := by
  unfold planRead
  apply (draws_lift (catalog.require_neverCollides _)).after
  intro type _ _ hrun
  obtain ⟨_, hrequire, hr⟩ := lift_eq_ok.mp hrun
  cases hr
  have htype := hcatalog.type (Catalog.require_eq_ok.mp hrequire)
  exact (Drafting.hoist_draws
    (Predicate.ofSelection_draws hcatalog htype hwords harguments)).before
    fun predicate => (Drafting.plan_draws (Plan.make_neverCollides _ _ _ _ _)).after
      fun _ _ _ _ => draws_pure _

theorem search_disjoint_conditionNames (start : List String) :
    Disjoint (argumentNames start Argument.search) (conditionNames start) := by
  refine (conditionNames_disjoint_named.mono_right ?_).symm
  exact fun w hw => ⟨Argument.search, by decide, hw⟩

theorem search_condition_subset (start : List String) :
    argumentNames start Argument.search ∪ conditionNames start ⊆ readNames start := by
  rintro w (hw | hw)
  · exact .inr ⟨Argument.search, by decide, hw⟩
  · exact .inl hw

theorem readHead_draws (hcatalog : setting.catalog.HasSimpleNames words)
    (hwords : membersKeys s.arguments ⊆ words)
    (harguments : (Json.obj s.arguments).HasDistinctKeys) :
    DraftDraws (argumentNames path.tokens Argument.search ∪ conditionNames path.tokens)
      (s.readHead setting root path) := by
  unfold readHead
  apply (draws_lift (setting.catalog.require_neverCollides _)).after
  intro type _ _ _
  apply (searchCall_draws type path).bind
  · intro search _ _ _
    exact (planRead_draws hcatalog path hwords harguments s.selections none).before fun read =>
      (draws_lift (read.plan.source_neverCollides type read.predicate search)).after
        fun _ _ _ _ => draws_pure _
  · exact search_disjoint_conditionNames path.tokens

-- A bound that leaves nothing out is not written.
private theorem bound_draws {R S : Region} {c : Prop} [Decidable c] {v : Json}
    {f : Option String → Hoist Window} (hmem : tokens path.name ∈ R)
    (hf : ∀ bound, HoistDraws S (f bound)) (hdisjoint : Disjoint R S) :
    HoistDraws (R ∪ S) (if c then some <$> Hoist.value path v >>= f else pure none >>= f) := by
  split
  · rw [map_eq_pure_bind]
    exact ((Hoist.value_draws hmem).before fun _ => draws_pure _).bind (fun _ _ _ _ => hf _)
      hdisjoint
  · exact (draws_pure _).bind (fun _ _ _ _ => hf _) hdisjoint

theorem window_draws :
    HoistDraws (eachOf (argumentNames path.tokens) [Argument.offset, Argument.first])
      (s.window path) := by
  unfold window
  apply (draws_lift s.pagination_neverCollides).after
  intro p _ _ _
  refine (bound_draws (tokens_mem_argumentNames path (by decide))
    (S := argumentNames path.tokens Argument.first) (fun skip => ?_) ?_).mono ?_
  · exact (bound_draws (tokens_mem_argumentNames path (by decide)) (fun _ => draws_pure _)
      (Set.disjoint_empty _)).mono (Set.union_empty _).subset
  · rw [Set.disjoint_left]
    intro w hw hw'
    exact absurd (argumentNames_tellsKeys hw hw') (by decide)
  · rintro w (hw | hw)
    · exact ⟨Argument.offset, by decide, hw⟩
    · exact ⟨Argument.first, by decide, hw⟩

theorem bindArguments_draws (referenced : List String) (arguments : Json.Members)
    (path : ParameterPath) {declared : List String} (hsimple : ∀ a ∈ declared, IsSimple a)
    (hnodup : declared.Nodup) :
    DraftDraws (eachOf (argumentNames path.tokens) declared)
      (Field.bindArguments referenced arguments path declared) := by
  induction declared with
  | nil => exact draws_pure _
  | cons name rest ih =>
      obtain ⟨hfresh, hrest⟩ := List.nodup_cons.mp hnodup
      have hothers := ih (fun a ha => hsimple a (List.mem_cons_of_mem name ha)) hrest
      have hname := tokens_mem_argumentNames path (hsimple name List.mem_cons_self)
      rw [Field.bindArguments]
      cases arguments.get? name with
      | none =>
          exact (draws_pure _).after fun _ _ _ _ => (hothers.mono (eachOf_mono
            (List.subset_cons_self name rest))).before fun _ => draws_pure _
      | some v =>
          exact (Drafting.value_draws hname).cons (fun _ _ _ _ => (draws_pure _).after
            fun _ _ _ _ => hothers.before fun _ => draws_pure _) argumentNames_tellsKeys hfresh

theorem customCall_draws (s : Selection) (setting : Setting) {field : Field}
    (hsimple : ∀ a ∈ field.arguments, IsSimple a) (hnodup : field.arguments.Nodup)
    (statement node : String) :
    DraftDraws (eachOf (argumentNames (tokens (Alias.child node s.responseKey))) field.arguments)
      (s.customCall setting field statement node) := by
  have hbind := bindArguments_draws (Text.references statement) s.arguments
    ((ParameterPath.below node).child s.responseKey) hsimple hnodup
  rw [ParameterPath.tokens_child, ParameterPath.tokens_below, ← Alias.tokens_child] at hbind
  have hfinish (ambient : List (String × Binding)) : DraftDraws
      (eachOf (argumentNames (tokens (Alias.child node s.responseKey))) field.arguments)
        (do
          let arguments ← Field.bindArguments (Text.references statement) s.arguments
            ((ParameterPath.below node).child s.responseKey) field.arguments
          return CustomCall.mk statement (("this", Binding.node node) :: ambient ++ arguments)) :=
    hbind.before fun _ => draws_pure _
  -- the caller's variables come first, and are no name of the field's own
  have hambient {R : Region} {f : List (String × Binding) → Drafting CustomCall}
      (hf : ∀ ambient, DraftDraws R (f ambient)) : DraftDraws R
      (if (Text.references statement).contains cypherParamsName = true then do
        Drafting.share cypherParamsName (.obj setting.cypherParams)
        pure [(cypherParamsName, Binding.parameter cypherParamsName)] >>= f
      else pure [] >>= f) := by
    split
    · exact (Drafting.share_draws _).after fun _ _ _ _ => (draws_pure _).after
        fun _ _ _ _ => hf _
    · exact (draws_pure _).after fun _ _ _ _ => hf _
  unfold customCall
  apply hambient
  intro ambient
  split
  · split
    · refine Draws.after (draws_throw ?_) fun _ _ _ _ => hfinish ambient
      simp
    · exact hfinish ambient
  · exact hfinish ambient

theorem readWith_draws (hcatalog : setting.catalog.HasSimpleNames words)
    (hwords : membersKeys s.arguments ⊆ words)
    (harguments : (Json.obj s.arguments).HasDistinctKeys) {S : Region}
    {project : NodeType → Plan → Drafting (List Item)}
    (hproject : ∀ type plan, setting.catalog.type? root.typeName = some type →
      plan.NamesBelow root.node → DraftDraws S (project type plan))
    (hdisjoint : Disjoint (readNames path.tokens) S) :
    DraftDraws (readNames path.tokens ∪ S) (s.readWith setting root path project) := by
  have hwindow (items : List Item) (head : ReadHead) : DraftDraws
      (eachOf (argumentNames path.tokens) [Argument.offset, Argument.first])
        (do
          let order ← s.orderTerms head.type root.node head.score
          let window ← Drafting.hoist (s.window path)
          return ReadQuery.mk head.source root.node items s.responseKey order window) :=
    (draws_lift (s.orderTerms_neverCollides _ _ _)).after fun _ _ _ _ =>
      (Drafting.hoist_draws window_draws).before fun _ => draws_pure _
  have hhead := search_condition_subset path.tokens
  have hnamed : eachOf (argumentNames path.tokens) [Argument.offset, Argument.first] ⊆
      eachOf (argumentNames path.tokens) namedArguments := eachOf_mono (by decide)
  have hbounds : eachOf (argumentNames path.tokens) [Argument.offset, Argument.first] ⊆
      readNames path.tokens := hnamed.trans Set.subset_union_right
  unfold readWith
  -- first the head is drawn, then the selections, at last the bounds
  refine ((readHead_draws hcatalog hwords harguments).bind
    (S := S ∪ eachOf (argumentNames path.tokens) [Argument.offset, Argument.first])
    (fun head _ _ hrun => ?_) ?_).mono ?_
  · obtain ⟨search, e, read, htype, -, hread, hplan, -⟩ := readHead_cases hrun
    obtain ⟨_, -, -, hmake⟩ := planRead_cases hread
    have hnames := Plan.make_namesBelow hmake
    rw [← hplan] at hnames
    exact (hproject head.type head.plan htype hnames).bind (fun items _ _ _ => hwindow items head)
      (hdisjoint.mono_left hbounds).symm
  · refine Set.disjoint_union_right.mpr ⟨hdisjoint.mono_left hhead, ?_⟩
    refine Set.disjoint_union_left.mpr ⟨?_, conditionNames_disjoint_named.mono_right hnamed⟩
    rw [Set.disjoint_left]
    rintro w hw ⟨x, hx, hw'⟩
    exact absurd (argumentNames_tellsKeys hw hw' ▸ hx) (by decide)
  · exact Set.union_subset (hhead.trans Set.subset_union_left) (Set.union_subset
      Set.subset_union_right (hbounds.trans Set.subset_union_left))

theorem planSelections_draws {R : Region} (catalog : Catalog) (node typeName : String)
    (selections : List Selection) :
    DraftDraws R (planSelections catalog node typeName selections) :=
  Drafting.plan_draws (Plan.make_neverCollides _ _ _ _ _)

-- A selection with a key of one token.
@[mk_iff hasSimpleKey_iff]
structure HasSimpleKey (s : Selection) : Prop where
  aliasName : ∀ a ∈ s.aliasName, IsSimple a
  responseKey : s.responseKey ≠ Argument.filter

-- A selection below which siblings have distinct response keys, with arguments in which keys
-- are distinct.
@[mk_iff hasDistinctKeys_iff]
structure HasDistinctKeys (s : Selection) : Prop where
  siblings : (s.selections.map responseKey).Nodup
  arguments : (Json.obj s.arguments).HasDistinctKeys

-- A selection whose names stay apart from those of its siblings, and that asks with these words.
structure NamedApart (words : List String) (s : Selection) : Prop where
  simple : s.HasSimpleKey
  distinct : s.HasDistinctKeys
  asked : s.words ⊆ words

namespace NamedApart

theorem arguments (h : s.NamedApart words) : membersKeys s.arguments ⊆ words :=
  (List.cons_subset.mp h.asked).2

theorem field (h : s.NamedApart words) {type : NodeType} (htype : type.HasSimpleNames words)
    {field : Field} (hfield : type.field? s.name = some field) : field.HasSimpleNames :=
  htype.field hfield (.of_mem (List.cons_subset.mp h.asked).1)

theorem isSimple (h : s.NamedApart words) {type : NodeType} (htype : type.HasSimpleNames words)
    {field : Field} (hfield : type.field? s.name = some field) : IsSimple s.responseKey := by
  unfold Selection.responseKey
  cases halias : s.aliasName with
  | none =>
      rw [Option.getD_none, ← (NodeType.field?_eq_some hfield).2]
      exact (h.field htype hfield).name
  | some a => exact h.simple.aliasName a halias

end NamedApart

-- What is read from the node of a selection stands below the response key.
theorem readWith_draws_below (hcatalog : setting.catalog.HasSimpleNames words)
    (hs : s.NamedApart words) {start : List String} {key : String}
    (hkey : IsSimple key) (hfilter : key ≠ Argument.filter) {step : Step}
    (hnode : start ++ [key] <+: tokens step.node) {keys : List String}
    {project : NodeType → Plan → Drafting (List Item)}
    (hproject : ∀ target inner, setting.catalog.type? step.typeName = some target →
      inner.NamesBelow step.node →
        DraftDraws (eachOf (childNames (tokens step.node)) keys) (project target inner)) :
    DraftDraws (childNames start key)
      (s.readWith setting ⟨step.node, step.typeName, some step.incoming⟩ (.below step.node)
        project) := by
  have htokens := ParameterPath.tokens_below step.node
  have hdisjoint : Disjoint (readNames (ParameterPath.below step.node).tokens)
      (eachOf (childNames (tokens step.node)) keys) :=
    htokens ▸ readNames_disjoint_childNames keys
  apply (readWith_draws hcatalog hs.arguments hs.distinct.arguments hproject hdisjoint).mono
  rw [htokens]
  exact names_subset_childNames hkey hfilter hnode keys

-- The items of a computed field are named below the node that is claimed for them.
theorem computedNodes_draws {base target : String} {selections : List Selection}
    {keys : List String} {finish : String → List Item → Item}
    (hproject : ∀ item targetType inner, setting.catalog.type? target = some targetType →
      inner.NamesBelow item → DraftDraws (eachOf (childNames (tokens item)) keys)
        (projectAll setting targetType item inner selections)) :
    DraftDraws (innerNames (tokens base)) (do
      let item ← Drafting.claim base
      let targetType ← setting.catalog.require target
      let inner ← planSelections setting.catalog item target selections
      let items ← projectAll setting targetType item inner selections
      return finish item items) := by
  apply (Drafting.claim_draws base).after
  intro item d _ hclaim
  have hitem : tokens base <+: tokens item := by
    cases Drafting.claim_eq_ok.mp hclaim
    exact d.aliases.tokens_prefix_fresh base
  apply (draws_lift (setting.catalog.require_neverCollides target)).after
  intro targetType _ _ hrun
  obtain ⟨_, hrequire, hr⟩ := lift_eq_ok.mp hrun
  cases hr
  apply (planSelections_draws setting.catalog item target selections).after
  intro inner _ _ hinner
  have hnames := Plan.make_namesBelow (planSelections_cases hinner).1
  have hitems := hproject item targetType inner (Catalog.require_eq_ok.mp hrequire) hnames
  exact (hitems.mono (childNames_subset_innerNames hitem keys)).before fun _ => draws_pure _

mutual

-- Whatever an entry gives out stands below its response key.
theorem project_draws (hcatalog : setting.catalog.HasSimpleNames words) {type : NodeType}
    (htype : type.HasSimpleNames words) {node : String} {plan : Plan}
    (hplan : plan.NamesBelow node) (s : Selection) (hnodes : ∀ t ∈ s.nodes, t.NamedApart words) :
    DraftDraws (childNames (tokens node) s.responseKey) (s.project setting type node plan) := by
  have hself := hnodes s (mem_nodes_self s)
  have hsize := sizeOf_selections_lt s
  -- the entries below, whichever type the entry leads to
  have hall : ∀ name item target inner, setting.catalog.type? name = some target →
      inner.NamesBelow item →
        DraftDraws (eachOf (childNames (tokens item)) (s.selections.map responseKey))
          (projectAll setting target item inner s.selections) := by
    intro name item target inner htarget hinner
    exact projectAll_draws hcatalog (hcatalog.type htarget) hinner s.selections
      hself.distinct.siblings fun t ht => hnodes t (nodesOfAll_selections_subset s ht)
  have hchild : ∀ {field}, type.field? s.name = some field → IsSimple s.responseKey ∧
      tokens (Alias.child node s.responseKey) = tokens node ++ [s.responseKey] := by
    intro field hfield
    have hkey := hself.isSimple htype hfield
    exact ⟨hkey, by rw [Alias.tokens_child, hkey.tokens_eq]⟩
  cases s with
  | mk name aliasName arguments selections =>
      rw [project]
      split
      · exact draws_pure _
      · split
        · exact draws_pure _
        · cases hfield : type.field? name with
          | none => exact draws_throw (by simp)
          | some field =>
              obtain ⟨hkey, htokens⟩ := hchild hfield
              simp only
              cases field.kind with
              | scalar scalar =>
                  simp only
                  split <;> exact draws_pure _
              | compound compound =>
                  exact (draws_lift (parts_neverCollides _ compound)).after fun _ _ _ _ =>
                    draws_pure _
              | relationship relation =>
                  simp only
                  split
                  · exact draws_throw (by simp)
                  · rename_i step hstep
                    have hnode := hplan _ step hstep
                    rw [htokens] at hnode
                    exact (readWith_draws_below hcatalog hself hkey hself.simple.responseKey
                      hnode (hall step.typeName step.node)).before fun _ => draws_pure _
              | computed statement returns =>
                  have hplain := hself.field htype hfield
                  have hcall := customCall_draws ⟨name, aliasName, arguments, selections⟩ setting
                    hplain.argument hplain.arguments_nodup statement node
                  have hsubset := call_subset_childNames (tokens node) hkey
                    hself.simple.responseKey field.arguments
                  rw [← htokens] at hsubset
                  refine Draws.mono (hcall.bind (fun call _ _ _ => ?_)
                    (argumentNames_disjoint_innerNames _)) hsubset
                  split
                  · split
                    · exact draws_pure _
                    · exact computedNodes_draws fun item => hall _ item
                  · exact draws_pure _
termination_by sizeOf s

theorem projectAll_draws (hcatalog : setting.catalog.HasSimpleNames words) {type : NodeType}
    (htype : type.HasSimpleNames words) {node : String} {plan : Plan}
    (hplan : plan.NamesBelow node) (selections : List Selection)
    (hnodup : (selections.map responseKey).Nodup)
    (hnodes : ∀ t ∈ nodesOfAll selections, t.NamedApart words) :
    DraftDraws (eachOf (childNames (tokens node)) (selections.map responseKey))
      (projectAll setting type node plan selections) := by
  match selections with
  | [] =>
      rw [projectAll]
      exact draws_pure _
  | s :: rest =>
      obtain ⟨hfresh, hrest⟩ := List.nodup_cons.mp hnodup
      rw [nodesOfAll, List.forall_mem_append] at hnodes
      rw [projectAll]
      apply (project_draws hcatalog htype hplan s hnodes.1).cons
      · intro item _ _ _
        exact (projectAll_draws hcatalog htype hplan rest hrest hnodes.2).before
          fun _ => draws_pure _
      · exact childNames_tellsKeys
      · exact hfresh
termination_by sizeOf selections

end

-- The names of a query stand below its arguments or below the node of its root.
theorem readQuery_draws (typeName : String) (hcatalog : setting.catalog.HasSimpleNames words)
    {node : String} (hnode : IsSimple node) (hfilter : node ≠ Argument.filter)
    (hkeys : s.HasDistinctKeys) (hwords : membersKeys s.arguments ⊆ words)
    (hbelow : ∀ t ∈ nodesOfAll s.selections, t.NamedApart words) :
    DraftDraws (readNames [] ∪ eachOf (childNames [node]) (s.selections.map responseKey))
      (s.readQuery setting ⟨node, typeName, none⟩ .root) := by
  have hproject : ∀ type plan, setting.catalog.type? typeName = some type →
      plan.NamesBelow node → DraftDraws (eachOf (childNames [node]) (s.selections.map responseKey))
        (projectAll setting type node plan s.selections) := by
    intro type plan htype hplan
    rw [← hnode.tokens_eq]
    exact projectAll_draws hcatalog (hcatalog.type htype) hplan s.selections hkeys.siblings hbelow
  change DraftDraws (readNames ParameterPath.root.tokens ∪ _)
    (s.readWith setting ⟨node, typeName, none⟩ .root _)
  exact readWith_draws hcatalog hwords hkeys.arguments hproject
    (rootNames_disjoint_childNames hfilter _)

theorem countQuery_draws (hcatalog : setting.catalog.HasSimpleNames words)
    (hwords : membersKeys s.arguments ⊆ words)
    (harguments : (Json.obj s.arguments).HasDistinctKeys) (type : NodeType) :
    DraftDraws (readNames []) (s.countQuery setting type) := by
  unfold countQuery
  refine Draws.mono ((searchCall_draws type .root).bind (fun search _ _ _ => ?_)
    (search_disjoint_conditionNames [])) (search_condition_subset [])
  apply (draws_lift s.groupByPath_neverCollides).after
  intro groupBy _ _ _
  exact (planRead_draws hcatalog .root hwords harguments [] groupBy).before fun read =>
    (draws_lift (read.plan.source_neverCollides type read.predicate search)).after
      fun _ _ _ _ => draws_pure _

end Selection

end CypherCompiler
