import CypherCompiler.Compilation.Draft

namespace CypherCompiler

-- What it takes for a step to succeed, one rule for each way in which steps are made.

section

variable {σ ε α β : Type}

theorem bind_eq_ok {x : StateT σ (Except ε) α} {f : α → StateT σ (Except ε) β} {s : σ}
    {r : β × σ} :
    (x >>= f) s = .ok r ↔ ∃ a t, x s = .ok (a, t) ∧ f a t = .ok r := by
  change (x s >>= fun p => f p.1 p.2) = .ok r ↔ _
  cases h : x s with
  | error e => simp [bind, Except.bind]
  | ok p =>
      constructor
      · intro hf
        exact ⟨p.1, p.2, rfl, hf⟩
      · rintro ⟨a, t, hp, hf⟩
        cases hp
        exact hf

theorem pure_eq_ok {a : α} {s : σ} {r : α × σ} :
    (pure a : StateT σ (Except ε) α) s = .ok r ↔ (a, s) = r := by
  change Except.ok (a, s) = _ ↔ _
  simp

theorem throw_eq_ok {e : ε} {s : σ} {r : α × σ} :
    (throw e : StateT σ (Except ε) α) s = .ok r ↔ False := by
  change Except.error e = _ ↔ _
  simp

theorem lift_eq_ok {x : Except ε α} {s : σ} {r : α × σ} :
    (liftM x : StateT σ (Except ε) α) s = .ok r ↔ ∃ a, x = .ok a ∧ (a, s) = r := by
  change (x >>= fun a => Except.ok (a, s)) = _ ↔ _
  cases x <;> simp [bind, Except.bind]

theorem mapM_nil_eq_ok {f : α → StateT σ (Except ε) β} {s : σ} {r : List β × σ} :
    ([] : List α).mapM f s = .ok r ↔ ([], s) = r := by
  rw [List.mapM_nil]
  exact pure_eq_ok

theorem mapM_cons_eq_ok {f : α → StateT σ (Except ε) β} {a : α} {rest : List α} {s u : σ}
    {bs : List β} :
    (a :: rest).mapM f s = .ok (bs, u) ↔
      ∃ b more t, f a s = .ok (b, t) ∧ rest.mapM f t = .ok (more, u) ∧ bs = b :: more := by
  rw [List.mapM_cons]
  simp only [bind_eq_ok, pure_eq_ok, Prod.mk.injEq]
  constructor
  · rintro ⟨b, t, hb, more, _, hmore, rfl, rfl⟩
    exact ⟨b, more, t, hb, hmore, rfl⟩
  · rintro ⟨b, more, t, hb, hmore, rfl⟩
    exact ⟨b, t, hb, more, _, hmore, rfl, rfl⟩

theorem except_bind_eq_ok {x : Except ε α} {f : α → Except ε β} {b : β} :
    (x >>= f) = .ok b ↔ ∃ a, x = .ok a ∧ f a = .ok b := by
  cases x <;> simp [bind, Except.bind]

theorem except_pure_eq_ok {a b : α} : (pure a : Except ε α) = .ok b ↔ b = a := by
  change Except.ok a = _ ↔ _
  simp [eq_comm]

theorem except_map_eq_ok {x : Except ε α} {f : α → β} {b : β} :
    x.map f = .ok b ↔ ∃ a, x = .ok a ∧ f a = b := by
  cases x <;> simp [Except.map]

theorem except_mapM_cons_eq_ok {f : α → Except ε β} {a : α} {rest : List α} {bs : List β} :
    (a :: rest).mapM f = .ok bs ↔
      ∃ b more, f a = .ok b ∧ rest.mapM f = .ok more ∧ bs = b :: more := by
  rw [List.mapM_cons]
  simp only [except_bind_eq_ok, pure, Except.pure, Except.ok.injEq]
  constructor
  · rintro ⟨b, hb, more, hmore, rfl⟩
    exact ⟨b, more, hb, hmore, rfl⟩
  · rintro ⟨b, more, hb, hmore, rfl⟩
    exact ⟨b, hb, more, hmore, rfl⟩

theorem except_throw_eq_ok {e : ε} {a : α} : (throw e : Except ε α) = .ok a ↔ False := by
  change Except.error e = _ ↔ _
  simp

end

theorem Parameters.contains_iff {ps : Parameters} {name : String} :
    ps.contains name = true ↔ name ∈ ps.names := by
  simp [Parameters.contains, Parameters.names, Json.Members.contains, Json.Members.keys]

theorem Parameters.get?_eq_none_iff {ps : Parameters} {name : String} :
    ps.get? name = none ↔ name ∉ ps.names := by
  unfold get? Json.Members.get? names Json.Members.keys
  rw [List.lookup_eq_none_iff, List.mem_map, not_exists]
  refine forall_congr' fun entry => ?_
  rw [not_and, bne_iff_ne, ne_comm]

theorem Parameters.insert_eq_ok {ps qs : Parameters} {name : String} {v : Json} :
    ps.insert name v = .ok qs ↔
      name ∉ ps.names ∧ qs = ⟨ps.members ++ [(name, v)]⟩ := by
  unfold Parameters.insert
  split
  · rename_i h
    simp [contains_iff.mp h]
  · rename_i h
    simp [mt contains_iff.mpr h, eq_comm]

theorem Hoist.value_eq_ok {path : ParameterPath} {v : Json} {ps : Parameters}
    {r : String × Parameters} :
    Hoist.value path v ps = .ok r ↔
      path.name ∉ ps.names ∧ r = (path.name, ⟨ps.members ++ [(path.name, v)]⟩) := by
  unfold Hoist.value
  simp only [except_map_eq_ok, Parameters.insert_eq_ok]
  constructor
  · rintro ⟨_, ⟨hn, rfl⟩, rfl⟩
    exact ⟨hn, rfl⟩
  · rintro ⟨hn, rfl⟩
    exact ⟨_, ⟨hn, rfl⟩, rfl⟩

theorem Hoist.refuse_eq_ok {α : Type} {key : String} {ps : Parameters} {r : α × Parameters} :
    (Hoist.refuse key : Hoist α) ps = .ok r ↔ False :=
  throw_eq_ok

-- A step that is left out takes nothing out of the request.
theorem Hoist.orSkip_cases {α : Type} {strict : Bool} {step : Hoist α} {ps : Parameters}
    {a : Option α} {qs : Parameters} (h : Hoist.orSkip strict step ps = .ok (a, qs)) :
    (∃ b, a = some b ∧ step ps = .ok (b, qs)) ∨ (a = none ∧ qs = ps) := by
  unfold Hoist.orSkip at h
  split at h
  · rename_i b next hs
    cases h
    exact .inl ⟨b, rfl, hs⟩
  · split at h
    · cases h
    · cases h
      exact .inr ⟨rfl, rfl⟩
  · cases h

namespace Drafting

theorem hoist_eq_ok {α : Type} {step : Hoist α} {d : Draft} {r : α × Draft} :
    hoist step d = .ok r ↔
      ∃ a ps, step d.parameters = .ok (a, ps) ∧ (a, { d with parameters := ps }) = r := by
  unfold hoist
  simp only [except_map_eq_ok, Prod.exists]

theorem value_eq_ok {path : ParameterPath} {v : Json} {d : Draft} {r : String × Draft} :
    value path v d = .ok r ↔ path.name ∉ d.parameters.names ∧
      r = (path.name, { d with parameters := ⟨d.parameters.members ++ [(path.name, v)]⟩ }) := by
  unfold value
  simp only [hoist_eq_ok, Hoist.value_eq_ok]
  constructor
  · rintro ⟨_, _, ⟨hn, h⟩, rfl⟩
    cases h
    exact ⟨hn, rfl⟩
  · rintro ⟨hn, rfl⟩
    exact ⟨_, _, ⟨hn, rfl⟩, rfl⟩

theorem share_eq_ok {name : String} {v : Json} {d : Draft} {r : Unit × Draft} :
    share name v d = .ok r ↔ ((), { d with parameters := d.parameters.share name v }) = r := by
  change Except.ok _ = _ ↔ _
  simp

theorem plan_eq_ok {make : AliasRegistry → Except RequestError (Plan × AliasRegistry)}
    {d : Draft} {r : Plan × Draft} :
    plan make d = .ok r ↔
      ∃ p aliases, make d.aliases = .ok (p, aliases) ∧ (p, { d with aliases }) = r := by
  unfold plan
  simp only [except_map_eq_ok, Prod.exists]

theorem claim_eq_ok {base : String} {d : Draft} {r : String × Draft} :
    claim base d = .ok r ↔ (d.aliases.fresh base,
      { d with aliases := d.aliases.reserve (d.aliases.fresh base) }) = r := by
  change Except.ok _ = _ ↔ _
  simp

theorem reserve_eq_ok {name : String} {d : Draft} {r : Unit × Draft} :
    reserve name d = .ok r ↔ ((), { d with aliases := d.aliases.reserve name }) = r := by
  change Except.ok _ = _ ↔ _
  simp

end Drafting

end CypherCompiler
