import CypherCompiler.Proofs.Cypher.References
import CypherCompiler.Proofs.Text.Reading

namespace CypherCompiler

open Text

namespace Cypher

theorem sealed_propertyKey (name : String) : Sealed (propertyKey name) [] := by
  unfold propertyKey
  split
  · rename_i h
    exact sealed_of_isFixed (isFixed_of_isWord (isWord_of_isPlainIdentifier h))
  · exact sealed_quoteIdentifier name

theorem sealed_propertyRead (node field : String) : Sealed (propertyRead node field) [] :=
  ((sealed_quoteIdentifier node).append_fixed (by decide)).append (sealed_propertyKey field)

theorem sealed_braced {s : String} {names : List String} (h : Reads s names) :
    Sealed (braced s) names :=
  (h.fixed_append (by decide)).append_fixed (by decide) (by decide)

theorem sealed_labelList (labels : List String) : Sealed (labelList labels) [] := by
  apply Sealed.join
  intro s hs
  obtain ⟨label, -, rfl⟩ := List.mem_map.mp hs
  exact (sealed_quoteIdentifier label).fixed_append (by decide)

theorem sealed_nodePattern (node : String) (labels : List String) :
    Sealed (nodePattern node labels) [] :=
  (((sealed_quoteIdentifier node).fixed_append (by decide)).append
    (sealed_labelList labels)).append_fixed (by decide)

theorem sealed_arrow (relation : Relation) (edge : Option String) :
    Sealed (arrow relation edge) [] := by
  have hname : Sealed ((edge.map quoteIdentifier).getD "") [] := by
    cases edge with
    | none => exact sealed_empty
    | some edge => exact sealed_quoteIdentifier edge
  have hbody : Sealed
      ("[" ++ (edge.map quoteIdentifier).getD "" ++ ":" ++ quoteIdentifier relation.name ++ "]")
      [] :=
    (((hname.fixed_append (by decide)).append_fixed (by decide)).append
      (sealed_quoteIdentifier relation.name)).append_fixed (by decide)
  unfold arrow
  cases relation.direction with
  | out => exact (hbody.fixed_append (by decide)).append_fixed (by decide)
  | into => exact (hbody.fixed_append (by decide)).append_fixed (by decide)

theorem Hop.sealed_render (h : Hop) : Sealed h.render [] :=
  (sealed_nodePattern h.parent []).append
    ((sealed_arrow h.relation none).append (sealed_nodePattern h.child [h.relation.target]))

theorem Pattern.sealed_render (p : Pattern) : Sealed p.render [] := by
  have hchain : Sealed (String.join (p.chain.map Hop.continuation)) [] := by
    apply Sealed.join
    intro s hs
    obtain ⟨h, -, rfl⟩ := List.mem_map.mp hs
    exact (sealed_arrow h.relation none).append (sealed_nodePattern h.child [h.relation.target])
  unfold Pattern.render
  cases p.start with
  | node name labels => exact (sealed_nodePattern name labels).append hchain
  | hop h => exact h.sealed_render.append hchain

theorem sealed_subject (target : CompareTarget) (node : String) :
    Sealed (target.subject node) [] := by
  cases target with
  | property field compound => exact sealed_propertyRead node field
  | nodeId =>
      exact ((sealed_quoteIdentifier node).fixed_append (by decide)).append_fixed (by decide)

theorem isFixed_constructor (compound : Compound) : isFixed compound.constructor = true := by
  cases compound <;> decide

theorem reads_value (target : CompareTarget) (op : Comparator) {name : String}
    (hname : IsWord name) : Reads (target.value op name) [name] := by
  have href := reads_reference hname
  cases target with
  | nodeId => exact ((href.fixed_append (by decide)).append_fixed (by decide) (by decide)).reads
  | property field compound =>
      cases compound with
      | none => exact href
      | some compound =>
          have hc := isFixed_constructor compound
          have hcall : Sealed (compound.constructor ++ "(" ++ reference name ++ ")") [name] :=
            ((Sealed.append_fixed (sealed_of_isFixed hc) (by decide)).append_reads
              href).append_fixed (by decide) (by decide)
          have hlist : Sealed ("[value IN " ++ reference name ++ " | " ++ compound.constructor ++
              "(value)]") [name] :=
            (((href.fixed_append (by decide)).append_fixed (by decide)
              (by decide)).append_fixed hc).append_fixed (by decide)
          by_cases hop : op.takesList = true
          · rw [CompareTarget.value, if_pos hop]
            exact hlist.reads
          · rw [CompareTarget.value, if_neg hop]
            exact hcall.reads

theorem isFixed_symbol (op : Comparator) : isFixed op.symbol = true := by
  cases op with
  | distance test => cases test <;> decide
  | _ => decide

namespace Condition

theorem reads_renderCompare (node : String) (target : CompareTarget) (op : Comparator)
    {operand : Operand} (h : AreWords operand.references) :
    Reads (renderCompare node target op operand) operand.references := by
  have hsubject := sealed_subject target node
  cases operand with
  | null =>
      unfold renderCompare
      by_cases hop : op = .not
      · rw [if_pos hop]
        exact (hsubject.append_fixed (by decide)).reads
      · rw [if_neg hop]
        exact (hsubject.append_fixed (by decide)).reads
  | parameter name =>
      have hname : IsWord name := h name (by simp [Operand.references])
      have href := reads_reference hname
      have hplain : ∀ op : Comparator, Reads ((if op.isNegated then "NOT " else "") ++
          target.subject node ++ " " ++ op.symbol ++ " " ++ target.value op name) [name] := by
        intro op
        have hnegation : isFixed (if op.isNegated then "NOT " else "") = true := by
          cases op.isNegated <;> decide
        have hleft := (hsubject.fixed_append hnegation).append_fixed (t := " ") (by decide)
        have hsymbol := (hleft.append_fixed (isFixed_symbol op)).append_fixed (t := " ") (by decide)
        exact hsymbol.append_reads (reads_value target op hname)
      cases op with
      | distance test =>
          have htest : isFixed test.symbol = true := isFixed_symbol (.distance test)
          have hpoint : Reads ("distance(" ++ target.subject node ++ ", point(" ++
              reference name) [name] :=
            ((hsubject.fixed_append (by decide)).append_fixed (by decide)).append_reads href
          have hsymbol : Sealed ("distance(" ++ target.subject node ++ ", point(" ++
              reference name ++ ".point)) " ++ test.symbol ++ " ") [name] :=
            ((hpoint.append_fixed (by decide) (by decide)).append_fixed htest).append_fixed
              (by decide)
          have hall : Reads ("distance(" ++ target.subject node ++ ", point(" ++
              reference name ++ ".point)) " ++ test.symbol ++ " " ++ reference name ++
              ".distance") ([name] ++ [name]) :=
            ((hsymbol.append_reads href).append_fixed (by decide) (by decide)).reads
          exact hall.congr (by simp [Operand.references])
      | _ => exact hplain _

theorem sealed_matching_none (hop : Hop) : Sealed (matching hop none) [] :=
  sealed_braced (((hop.sealed_render.fixed_append (by decide)).append_fixed
    (by decide)).append_fixed (by decide)).reads

theorem sealed_matching_some (hop : Hop) {text : String} {names : List String}
    (h : Reads text names) : Sealed (matching hop (some text)) names := by
  have hhop : Sealed (" MATCH " ++ hop.render) [] := hop.sealed_render.fixed_append (by decide)
  have hwhere : Reads (" MATCH " ++ hop.render ++ (" WHERE " ++ text)) names := by
    simpa using hhop.append_reads (h.fixed_append (by decide))
  exact sealed_braced (hwhere.append_fixed (by decide) (by decide)).reads

theorem sealed_renderRelated_none (hop : Hop) (quantifier : Quantifier) :
    Sealed (renderRelated hop quantifier none) [] := by
  have hmatching := sealed_matching_none hop
  cases quantifier with
  | some => exact hmatching.fixed_append (by decide)
  | none => exact hmatching.fixed_append (by decide)
  | single => exact (hmatching.fixed_append (by decide)).append_fixed (by decide)
  | every => exact sealed_of_isFixed (s := "true") (by decide)

theorem sealed_renderRelated_some (hop : Hop) (quantifier : Quantifier) {text : String}
    {names : List String} (h : Reads text names) :
    Sealed (renderRelated hop quantifier (some text)) names := by
  have hmatching := sealed_matching_some hop h
  cases quantifier with
  | some => exact hmatching.fixed_append (by decide)
  | none => exact hmatching.fixed_append (by decide)
  | single => exact (hmatching.fixed_append (by decide)).append_fixed (by decide)
  | every => exact (sealed_matching_some hop (h.fixed_append (by decide))).fixed_append (by decide)

theorem sealed_parenthesized {text : String} {names : List String} (h : Reads text names) :
    Sealed (parenthesized text) names :=
  (h.fixed_append (by decide)).append_fixed (by decide) (by decide)

mutual

-- A condition refers to the parameters that a reader of its text finds.
theorem reads_render : ∀ c : Condition, AreWords c.references → Reads c.render c.references
  | .compare node target op operand, h => by
      rw [render, references] at *
      exact reads_renderCompare node target op h
  | .all [], _ => by
      rw [render, references, referencesOfAll]
      exact (sealed_of_isFixed (by decide)).reads
  | .all (c :: rest), h => by
      rw [references] at h ⊢
      rw [render]
      have hjoined := reads_renderAll " AND " (by decide) (by decide) (c :: rest) h
      rw [renderAll] at hjoined
      exact (sealed_parenthesized hjoined).reads
  | .any [], _ => by
      rw [render, references, referencesOfAll]
      exact (sealed_of_isFixed (by decide)).reads
  | .any (c :: rest), h => by
      rw [references] at h ⊢
      rw [render]
      have hjoined := reads_renderAll " OR " (by decide) (by decide) (c :: rest) h
      rw [renderAll] at hjoined
      exact (sealed_parenthesized hjoined).reads
  | .not child, h => by
      rw [references] at h ⊢
      rw [render]
      have hchild := reads_render child h
      apply Reads.fixed_append (by decide)
      by_cases hp : child.isParenthesized = true
      · rw [if_pos hp]
        exact hchild
      · rw [if_neg hp]
        exact (sealed_parenthesized hchild).reads
  | .related hop quantifier child, h => by
      rw [references] at h ⊢
      rw [render]
      have hchild := reads_render child h
      by_cases hv : child.isVacuous = true
      · rw [if_pos hv, isVacuous_iff.mp hv, references, referencesOfAll]
        exact (sealed_renderRelated_none hop quantifier).reads
      · rw [if_neg hv]
        exact (sealed_renderRelated_some hop quantifier hchild).reads

theorem reads_renderAll (separator : String) (hfixed : isFixed separator = true)
    (hbreak : isBreak separator = true) : ∀ cs : List Condition,
    AreWords (referencesOfAll cs) →
      Reads (String.intercalate separator (renderAll cs)) (referencesOfAll cs)
  | [], _ => by
      rw [renderAll, referencesOfAll, String.intercalate_nil]
      exact sealed_empty.reads
  | c :: rest, h => by
      rw [referencesOfAll] at h ⊢
      rw [renderAll]
      obtain ⟨hc, hrest⟩ := areWords_append.mp h
      exact Reads.intercalate_cons hfixed hbreak (reads_render c hc)
        (reads_renderAll separator hfixed hbreak rest hrest)

end

end Condition

theorem SearchCall.sealed_render (c : SearchCall) (h : IsWord c.parameter) :
    Sealed c.render [c.parameter] := by
  have hindex : Sealed ("CALL db.index.fulltext.queryNodes(" ++ stringLiteral c.index ++ ", ") [] :=
    ((sealed_stringLiteral c.index).fixed_append (by decide)).append_fixed (by decide)
  have hcall : Sealed ("CALL db.index.fulltext.queryNodes(" ++ stringLiteral c.index ++ ", " ++
      reference c.parameter ++ ") YIELD node AS ") [c.parameter] :=
    (hindex.append_reads (reads_reference h)).append_fixed (by decide) (by decide)
  have hnode := (hcall.append (sealed_quoteIdentifier c.node)).append_fixed (t := ", score AS ")
    (by decide)
  exact (hnode.append (sealed_quoteIdentifier c.score)).congr (by simp)

theorem Source.reads_render (s : Source) (h : AreWords s.references) :
    Reads s.render s.references := by
  obtain ⟨hsearch, hconditions⟩ := areWords_append.mp h
  have hwhere : Reads (if s.conditions.isEmpty then ""
      else " WHERE " ++ String.intercalate " AND " (Condition.renderAll s.conditions))
      (Condition.referencesOfAll s.conditions) := by
    cases hs : s.conditions with
    | nil => exact sealed_empty.reads
    | cons c rest =>
        rw [hs] at hconditions
        have hall := Condition.reads_renderAll " AND " (by decide) (by decide) (c :: rest)
          hconditions
        exact hall.fixed_append (by decide)
  have hrest : ∀ {call : String}, Sealed call (s.search.map SearchCall.parameter).toList →
      Reads (call ++ "MATCH " ++ s.pattern.render ++ (if s.conditions.isEmpty then ""
        else " WHERE " ++ String.intercalate " AND " (Condition.renderAll s.conditions)))
        s.references := by
    intro call hcall
    have hpattern := (hcall.append_fixed (t := "MATCH ") (by decide)).append
      s.pattern.sealed_render
    exact (hpattern.append_reads hwhere).congr (by simp [Source.references])
  unfold Source.render
  cases hs : s.search with
  | none =>
      rw [hs] at hrest
      exact hrest sealed_empty
  | some c =>
      have hword : IsWord c.parameter := hsearch c.parameter (by simp [hs])
      rw [hs] at hrest
      exact hrest ((c.sealed_render hword).append_fixed (by decide))

theorem OrderTerm.sealed_render (t : OrderTerm) : Sealed t.render [] := by
  have hdirection : isFixed (if t.descending then " DESC" else " ASC") = true := by
    cases t.descending <;> decide
  unfold OrderTerm.render
  cases t.read with
  | property node field => exact (sealed_propertyRead node field).append_fixed hdirection
  | nodeId node =>
      have hopened := (sealed_quoteIdentifier node).fixed_append (s := "ID(") (by decide)
      have hnode := hopened.append_fixed (t := ")") (by decide)
      exact hnode.append_fixed hdirection
  | score name => exact (sealed_quoteIdentifier name).append_fixed hdirection

theorem reads_renderOrder (order : List OrderTerm) {text : String}
    (h : renderOrder? order = some text) : Reads text [] := by
  unfold renderOrder? at h
  split at h
  · cases h
  · rw [← Option.some.inj h]
    have hterms : Reads (commaList (order.map OrderTerm.render)) (order.flatMap fun _ => []) :=
      Reads.intercalate_map (by decide) (by decide) fun t _ => t.sealed_render.reads
    exact (hterms.congr (by simp)).fixed_append (by decide)

-- One bound of a window, after its keyword.
theorem reads_bound (keyword : String) (hkeyword : isFixed keyword = true) {bound : Option String}
    (h : AreWords bound.toList) :
    ∀ text ∈ bound.map (keyword ++ reference ·), Reads text bound.toList := by
  cases bound with
  | none => simp
  | some name =>
      rintro text htext
      obtain rfl : keyword ++ reference name = text := by simpa using htext
      exact (reads_reference (h name (by simp))).fixed_append hkeyword

theorem Window.reads_render (w : Window) (h : AreWords w.references) :
    Reads (String.intercalate " " w.render?.toList) w.references := by
  obtain ⟨hskip, hlimit⟩ := areWords_append.mp h
  have hnil : Reads (String.intercalate " " []) [] := sealed_empty.reads
  have hlast := Reads.intercalate_option (by decide) (by decide)
    (reads_bound "LIMIT " (by decide) hlimit) (by simp +contextual) hnil
  have hboth := Reads.intercalate_option (by decide) (by decide)
    (reads_bound "SKIP " (by decide) hskip) (by simp +contextual) hlast
  simp only [List.append_nil] at hboth
  simp only [Window.render?]
  split
  · rename_i hempty
    rw [List.isEmpty_iff.mp hempty] at hboth
    exact hboth
  · exact hboth

theorem Part.reads_render {read : String} (hread : Sealed read []) (part : Part)
    (h : AreWords part.constituents) : Reads (part.render read) [] := by
  cases part with
  | constituent key name =>
      have hname : IsWord name := h name (by simp [Part.constituents])
      have hleft := ((sealed_propertyKey key).append_fixed (t := ": ") (by decide)).append hread
      exact ((hleft.append_fixed (by decide)).append_fixed (isFixed_of_isWord hname)).reads
  | formatted key =>
      have hleft := (sealed_propertyKey key).append_fixed (t := ": toString(") (by decide)
      exact ((hleft.append hread).append_fixed (by decide)).reads

theorem Binding.reads_render (b : Binding) (h : AreWords b.references) :
    Reads b.render b.references := by
  cases b with
  | node name => exact (sealed_quoteIdentifier name).reads
  | parameter name => exact reads_reference (h name (by simp [Binding.references]))
  | null => exact (sealed_of_isFixed (by decide)).reads

theorem CustomCall.sealed_render (c : CustomCall) (many : Bool) (h : AreWords c.references) :
    Sealed (c.render many) c.references := by
  have hbindings : Reads (commaList (c.bindings.map fun b =>
      propertyKey b.1 ++ ": " ++ b.2.render)) c.references := by
    apply Reads.intercalate_map (by decide) (by decide)
    rintro ⟨key, binding⟩ hb
    have hbinding := binding.reads_render (areWords_flatMap.mp h _ hb)
    exact (((sealed_propertyKey key).append_fixed (by decide)).append_reads hbinding)
  have hmany : isFixed (if many then "Many" else "Single") = true := by
    cases many <;> decide
  have hhead : Sealed ("apoc.cypher.runFirstColumn" ++ (if many then "Many" else "Single") ++ "(")
      [] :=
    (Sealed.append_fixed (sealed_of_isFixed (by decide)) hmany).append_fixed (by decide)
  have hstatement := (hhead.append (sealed_stringLiteral c.statement)).append_fixed (t := ", ")
    (by decide)
  exact (hstatement.append (sealed_braced hbindings)).append_fixed (by decide)

theorem sealed_asList (list : Bool) {text : String} {names : List String}
    (h : Sealed text names) : Sealed (asList list text) names := by
  cases list with
  | true => exact h
  | false => exact (h.fixed_append (by decide)).append_fixed (by decide)

theorem sealed_renderMap (node : String) {entries : List String} {names : List String}
    (h : Reads (commaList entries) names) : Sealed (renderMap node entries) names :=
  ((sealed_quoteIdentifier node).append_fixed (by decide)).append (sealed_braced h)

theorem sealed_renderResult (node : String) {entries : List String} (key : String)
    {names : List String} (h : Reads (commaList entries) names) :
    Sealed (renderResult node entries key) names := by
  have hmap := (sealed_renderMap node h).fixed_append (s := "RETURN ") (by decide)
  exact ((hmap.append_fixed (t := " AS ") (by decide)).append
    (sealed_quoteIdentifier key)).congr (by simp)

mutual

-- The text of an item holds the references of the item, whatever stands around it.
theorem Item.sealed_render : ∀ i : Item, AreWords i.references → AreWords i.constituents →
    Sealed i.render i.references
  | .shorthand field, _, _ => (sealed_propertyKey field).fixed_append (by decide)
  | .typeName key type, _, _ =>
      ((sealed_propertyKey key).append_fixed (by decide)).append (sealed_stringLiteral type)
  | .nodeId key node, _, _ =>
      (((sealed_propertyKey key).append_fixed (by decide)).append
        (sealed_quoteIdentifier node)).append_fixed (by decide)
  | .property key node field, _, _ =>
      ((sealed_propertyKey key).append_fixed (by decide)).append (sealed_propertyRead node field)
  | .compound key node field parts, _, h => by
      rw [Item.constituents] at h
      rw [Item.render]
      have hparts : Reads (commaList (parts.map (Part.render (propertyRead node field))))
          (parts.flatMap fun _ => []) :=
        Reads.intercalate_map (by decide) (by decide) fun part hpart =>
          part.reads_render (sealed_propertyRead node field) (areWords_flatMap.mp h part hpart)
      have hmap : Sealed (braced (commaList (parts.map (Part.render (propertyRead node field)))))
          [] :=
        sealed_braced (hparts.congr (by simp))
      exact ((sealed_propertyKey key).append_fixed (by decide)).append hmap
  | .related key list query, h, hc => by
      rw [Item.references] at h ⊢
      rw [Item.constituents] at hc
      rw [Item.render]
      have hquery := query.reads_render h hc
      have hbody := sealed_braced ((hquery.fixed_append (s := " ") (by decide)).append_fixed
        (t := " ") (by decide) (by decide)).reads
      have hlist := sealed_asList list (hbody.fixed_append (s := "COLLECT ") (by decide))
      exact ((sealed_propertyKey key).append_fixed (by decide)).append hlist
  | .computed key list call, h, _ => by
      rw [Item.references] at h ⊢
      rw [Item.render]
      exact ((sealed_propertyKey key).append_fixed (by decide)).append (call.sealed_render list h)
  | .computedNodes key list node call items, h, hc => by
      rw [Item.references] at h ⊢
      rw [Item.constituents] at hc
      rw [Item.render]
      obtain ⟨hcall, hitems⟩ := areWords_append.mp h
      have hnode := ((sealed_quoteIdentifier node).fixed_append (s := "[") (by decide)).append_fixed
        (t := " IN ") (by decide)
      have hsource := (hnode.append (call.sealed_render true hcall)).append_fixed (t := " | ")
        (by decide)
      have hmap := sealed_renderMap node (Item.reads_renderAll items hitems hc)
      have hlist := sealed_asList list ((hsource.append hmap).append_fixed (t := "]") (by decide))
      exact ((sealed_propertyKey key).append_fixed (by decide)).append hlist

theorem Item.reads_renderAll : ∀ items : List Item, AreWords (Item.referencesOfAll items) →
    AreWords (Item.constituentsOfAll items) →
      Reads (commaList (Item.renderAll items)) (Item.referencesOfAll items)
  | [], _, _ => sealed_empty.reads
  | i :: rest, h, hc => by
      rw [Item.referencesOfAll] at h ⊢
      rw [Item.constituentsOfAll] at hc
      obtain ⟨hi, hrest⟩ := areWords_append.mp h
      obtain ⟨hic, hrestc⟩ := areWords_append.mp hc
      exact Reads.intercalate_cons (by decide) (by decide) (i.sealed_render hi hic).reads
        (Item.reads_renderAll rest hrest hrestc)

theorem ReadQuery.reads_render : ∀ q : ReadQuery, AreWords q.references →
    AreWords q.constituents → Reads q.render q.references
  | ⟨source, node, items, key, order, window⟩, h, hc => by
      rw [ReadQuery.references] at h ⊢
      rw [ReadQuery.constituents] at hc
      rw [ReadQuery.render]
      obtain ⟨hhead, hwindow⟩ := areWords_append.mp h
      obtain ⟨hsource, hitems⟩ := areWords_append.mp hhead
      have hresult := sealed_renderResult node key (Item.reads_renderAll items hitems hc)
      have hend := Reads.intercalate_option (by decide) (by decide)
        (fun _ => reads_renderOrder order) (fun _ => rfl) (window.reads_render hwindow)
      have hafter := Reads.intercalate_cons (by decide) (by decide) hresult.reads hend
      have hall := Reads.intercalate_cons (by decide) (by decide) (source.reads_render hsource)
        hafter
      simpa using hall

end

theorem sealed_renderCounts (node : String) (group : Option (String × String)) :
    Sealed (renderCounts node group) [] := by
  have hcount : Sealed ("count: count(" ++ quoteIdentifier node ++ ")") [] :=
    ((sealed_quoteIdentifier node).fixed_append (by decide)).append_fixed (by decide)
  cases group with
  | none => exact sealed_braced hcount.reads
  | some read =>
      have hgroup := ((sealed_propertyRead read.1 read.2).fixed_append (s := "group: ")
        (by decide)).append_fixed (t := ", ") (by decide)
      exact sealed_braced (hgroup.append hcount).reads

theorem CountQuery.reads_render (q : CountQuery) (h : AreWords q.source.references) :
    Reads q.render q.source.references := by
  have hsource := (q.source.reads_render h).append_fixed (t := " RETURN ") (by decide) (by decide)
  have hcounts := (hsource.append (sealed_renderCounts q.node q.group)).append_fixed (t := " AS ")
    (by decide)
  exact (hcounts.append (sealed_quoteIdentifier q.key)).reads.congr (by simp)

theorem Written.reads_render (w : Written) (h : AreWords w.references) :
    Reads w.render w.references := by
  cases w with
  | parameter name => exact reads_reference (h name (by simp [Written.references]))
  | compound c name =>
      have href := reads_reference (h name (by simp [Written.references]))
      have hcall := Sealed.append_fixed (t := "(") (sealed_of_isFixed (isFixed_constructor c))
        (by decide)
      exact ((hcall.append_reads href).append_fixed (by decide) (by decide)).reads
  | compounds c name =>
      have href := reads_reference (h name (by simp [Written.references]))
      have hvalues := (href.fixed_append (s := "[value IN ") (by decide)).append_fixed (t := " | ")
        (by decide) (by decide)
      exact ((hvalues.append_fixed (isFixed_constructor c)).append_fixed (by decide)).reads

theorem sealed_renderProperties (properties : List (String × Written))
    (h : AreWords (properties.flatMap fun p => p.2.references)) :
    Sealed (renderProperties properties) (properties.flatMap fun p => p.2.references) := by
  apply sealed_braced
  apply Reads.intercalate_map (by decide) (by decide)
  rintro ⟨key, w⟩ hp
  have hw := w.reads_render (areWords_flatMap.mp h _ hp)
  exact ((sealed_propertyKey key).append_fixed (by decide)).append_reads hw

theorem sealed_renderKeys (keys : List (String × String)) (h : AreWords (keys.map Prod.snd)) :
    Sealed (renderKeys keys) (keys.map Prod.snd) := by
  have hkeys : Reads (commaList (keys.map fun k => propertyKey k.1 ++ ": " ++ reference k.2))
      (keys.flatMap fun k => [k.2]) := by
    apply Reads.intercalate_map (by decide) (by decide)
    rintro ⟨key, name⟩ hk
    have hname := reads_reference (h name (List.mem_map_of_mem hk))
    exact ((sealed_propertyKey key).append_fixed (by decide)).append_reads hname
  exact sealed_braced (hkeys.congr (by simp [eq_comm]))

theorem NodeWith.sealed_renderWritten (n : NodeWith Written) (h : AreWords n.written) :
    Sealed n.renderWritten n.written := by
  unfold renderWritten
  by_cases hempty : n.properties.isEmpty = true
  · rw [if_pos hempty, written, List.isEmpty_iff.mp hempty]
    exact sealed_nodePattern n.name n.labels
  · rw [if_neg hempty]
    have hhead := (((sealed_quoteIdentifier n.name).fixed_append (s := "(") (by decide)).append
      (sealed_labelList n.labels)).append_fixed (t := " ") (by decide)
    exact (hhead.append (sealed_renderProperties n.properties h)).append_fixed (by decide)

theorem NodeWith.sealed_renderMatched (n : NodeWith String) (h : AreWords n.matched) :
    Sealed n.renderMatched n.matched := by
  have hhead := (((sealed_quoteIdentifier n.name).fixed_append (s := "(") (by decide)).append
    (sealed_labelList n.labels)).append_fixed (t := " ") (by decide)
  exact (hhead.append (sealed_renderKeys n.properties h)).append_fixed (by decide)

theorem Clause.sealed_render (c : Clause) (h : AreWords c.references) :
    Sealed c.render c.references := by
  cases c with
  | create node => exact (node.sealed_renderWritten h).fixed_append (by decide)
  | createRelated parent relation node =>
      have hedge := ((sealed_nodePattern parent []).fixed_append (s := "CREATE ")
        (by decide)).append (sealed_arrow relation none)
      exact hedge.append (node.sealed_renderWritten h)
  | find node => exact (node.sealed_renderMatched h).fixed_append (by decide)
  | merge node => exact (node.sealed_renderMatched h).fixed_append (by decide)
  | set node properties =>
      have hhead := ((sealed_quoteIdentifier node).fixed_append (s := "SET ")
        (by decide)).append_fixed (t := " += ") (by decide)
      exact hhead.append (sealed_renderProperties properties h)
  | connect parent relation node =>
      have hwith := ((sealed_quoteIdentifier parent).fixed_append (s := " WITH ")
        (by decide)).append_fixed (t := " MATCH ") (by decide)
      have hmatch := (hwith.append (node.sealed_renderMatched h)).append_fixed (t := " MERGE ")
        (by decide)
      have hedge := ((hmatch.append (sealed_nodePattern parent [])).append
        (sealed_arrow relation none)).append (sealed_nodePattern node.name [])
      have hbody := sealed_braced (hedge.append_fixed (t := " ") (by decide)).reads
      exact (hbody.fixed_append (s := "CALL ") (by decide)).congr (by simp [references])
  | disconnect parent relation edge labels keys =>
      have hwith := ((sealed_quoteIdentifier parent).fixed_append (s := " WITH ")
        (by decide)).append_fixed (t := " MATCH ") (by decide)
      have hedge := ((hwith.append (sealed_nodePattern parent [])).append
        (sealed_arrow relation (some edge))).append_fixed (t := "(") (by decide)
      have hlabels := (hedge.append (sealed_labelList labels)).append_fixed (t := " ") (by decide)
      have hkeys := (hlabels.append (sealed_renderKeys keys h)).append_fixed (t := ") DELETE ")
        (by decide)
      have hbody := sealed_braced ((hkeys.append (sealed_quoteIdentifier edge)).append_fixed
        (t := " ") (by decide)).reads
      exact (hbody.fixed_append (s := "CALL ") (by decide)).congr (by simp [references])

theorem reads_renderClauses {clauses : List Clause} {last : String} {names : List String}
    (h : AreWords (clauses.flatMap Clause.references)) (hlast : Reads last names) :
    Reads (String.intercalate " " (clauses.map Clause.render ++ [last]))
      (clauses.flatMap Clause.references ++ names) := by
  induction clauses with
  | nil => simpa using hlast
  | cons c rest ih =>
      rw [List.flatMap_cons] at h ⊢
      obtain ⟨hc, hrest⟩ := areWords_append.mp h
      rw [List.append_assoc]
      exact Reads.intercalate_cons (by decide) (by decide) (c.sealed_render hc).reads (ih hrest)

-- A statement refers to the parameters that a reader of its text finds.
theorem Statement.reads_render (s : Statement) (h : AreWords s.references)
    (hc : AreWords s.constituents) : Reads s.render s.references := by
  cases s with
  | read query => exact query.reads_render h hc
  | count query => exact query.reads_render h
  | write clauses node items key =>
      obtain ⟨hclauses, hitems⟩ := areWords_append.mp h
      have hresult := sealed_renderResult node key (Item.reads_renderAll items hitems hc)
      exact reads_renderClauses hclauses hresult.reads
  | delete node deleted items key =>
      obtain ⟨hmatched, hitems⟩ := areWords_append.mp h
      have hfind := (node.sealed_renderMatched hmatched).fixed_append (s := "MATCH ") (by decide)
      have hnode := sealed_quoteIdentifier node.name
      have hkept := ((hnode.fixed_append (s := "WITH ") (by decide)).append_fixed (t := " AS ")
        (by decide)).append (sealed_quoteIdentifier deleted)
      have hmap := (hkept.append_fixed (t := ", ") (by decide)).append
        (sealed_renderMap node.name (Item.reads_renderAll items hitems hc))
      have hwith := (hmap.append_fixed (t := " AS ") (by decide)).append hnode
      have hdelete := (sealed_quoteIdentifier deleted).fixed_append (s := "DETACH DELETE ")
        (by decide)
      have hreturn := ((hnode.fixed_append (s := "RETURN ") (by decide)).append_fixed
        (t := " AS ") (by decide)).append (sealed_quoteIdentifier key)
      have hend : Reads (String.intercalate " " []) [] := sealed_empty.reads
      have hlast := Reads.intercalate_cons (by decide) (by decide) hreturn.reads hend
      have hthird := Reads.intercalate_cons (by decide) (by decide) hdelete.reads hlast
      have hsecond := Reads.intercalate_cons (by decide) (by decide) hwith.reads hthird
      have hall := Reads.intercalate_cons (by decide) (by decide) hfind.reads hsecond
      exact hall.congr (by simp [references])

end Cypher

-- What a reader finds in the text of a statement are its references.
theorem Cypher.Statement.mem_bareReferences_render {s : Statement} (h : AreWords s.references)
    (hc : AreWords s.constituents) (n : String) :
    n ∈ bareReferences s.render ↔ n ∈ s.references :=
  mem_bareReferences (s.reads_render h hc) n

end CypherCompiler
