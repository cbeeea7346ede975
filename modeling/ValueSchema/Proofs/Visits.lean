import ValueSchema.Proofs.Plan

/-!
# Visits that plans start

A plan starts visits of inner schemas, and the plan of a lazy node visits its definition
with one lazy node fewer to resolve (`Schema.plan_starts`).  So there is an induction on
visits, `Visit.induction`: first on the lazy nodes that may still be resolved, and then
on schemas.
-/

namespace ValueSchema

namespace Schema

variable {node : Schema} {call : Call} {path : Path} {v : Value} {hops : Nat} {t : Visit}

theorem tupleSchema_mem {items : List Schema} {rest : Option Schema} {i : Nat}
    {values : List Value} {t : Part} (h : t ∈ tupleParts rest i (slots items) values) :
    t.schema ∈ items ++ rest.toList := by
  cases List.mem_append.mp (mem_tupleParts h) with
  | inl hs => exact List.mem_append_left _ (List.mem_filter.mp hs).1
  | inr hr => exact List.mem_append_right _ hr

theorem objectSchema_mem {arena : Option Arena} {shape : Entries Schema}
    {unknown : UnknownKeys Schema} {input : Entries Value} {t : Part}
    (h : t ∈ fieldParts arena shape input ++ catchallParts shape unknown input) :
    t.schema ∈ (Kind.object shape unknown).children := by
  cases List.mem_append.mp h with
  | inl hf => exact List.mem_append_left _ (mem_fieldParts hf)
  | inr hc => exact List.mem_append_right _ (by simp [mem_catchallParts hc])

theorem parts?_schema {arena : Option Arena} {parts : List Part}
    (h : node.parts? v arena = some parts) : ∀ u ∈ parts, u.schema ∈ node.kind.children := by
  unfold parts? at h
  intro u hu
  split at h
  next e items hk _ =>
      obtain rfl := Option.some.inj h
      rw [hk]
      exact List.mem_singleton.mpr (mem_itemParts hu)
  next e items hk _ =>
      obtain rfl := Option.some.inj h
      rw [hk]
      exact List.mem_singleton.mpr (mem_itemParts hu)
  next items rest values hk _ =>
      split at h
      next => exact nomatch h
      next =>
          obtain rfl := Option.some.inj h
          rw [hk]
          exact tupleSchema_mem hu
  next shape unknown input hk _ =>
      obtain rfl := Option.some.inj h
      rw [hk]
      exact objectSchema_mem hu
  next key value input hk _ =>
      obtain rfl := Option.some.inj h
      rw [hk]
      exact mem_entryParts hu
  next => exact nomatch h

theorem containerPlan_starts (h : (node.containerPlan call path v hops).Starts t) :
    t.hops = hops ∧ t.schema ∈ node.kind.children := by
  unfold containerPlan at h
  cases hp : node.parts? v call.options.arena with
  | none =>
      rw [hp] at h
      exact nomatch h
  | some parts =>
      rw [hp] at h
      cases h with
      | part hm =>
          obtain ⟨u, hu, rfl⟩ := List.mem_map.mp hm
          exact ⟨rfl, parts?_schema hp u hu⟩

theorem pass_starts {u : Visit} (h : (Plan.pass u).Starts t) : t = u := by
  cases h with
  | first => rfl
  | next h => exact nomatch h

theorem effectPlan_starts {inner : Schema} {effect : Effect}
    (h : (node.effectPlan call path v hops inner effect).Starts t) :
    t.hops = hops ∧ t.schema = inner := by
  unfold effectPlan at h
  split at h
  next => exact nomatch h
  next =>
      split at h
      next =>
          obtain rfl := pass_starts h
          exact ⟨rfl, rfl⟩
      next =>
          cases h with
          | first => exact ⟨rfl, rfl⟩
          | next h => exact nomatch h

theorem lazyPlan_starts {id : SchemaId} (h : (lazyPlan call path v hops id).Starts t) :
    hops = t.hops + 1 ∧ call.options.arena.bind (·.get? id) = some t.schema := by
  unfold lazyPlan at h
  split at h
  next => exact nomatch h
  next a ha =>
      split at h
      next => exact nomatch h
      next n =>
          split at h
          next s hs =>
              obtain rfl := pass_starts h
              rw [ha]
              exact ⟨rfl, hs⟩
          next => exact nomatch h

/-- A plan starts visits of inner schemas, and a lazy node visits its definition with one
lazy node fewer to resolve. -/
theorem plan_starts (h : (node.plan call path v hops).Starts t) :
    (t.hops = hops ∧ t.schema ∈ node.kind.children) ∨
      (hops = t.hops + 1 ∧ ∃ id, node.kind = .lazy id ∧
        call.options.arena.bind (·.get? id) = some t.schema) := by
  unfold plan at h
  split at h
  next => exact nomatch h
  next members hk =>
      rw [hk]
      cases h with
      | member hm =>
          obtain ⟨s, hs, rfl⟩ := List.mem_map.mp hm
          exact .inl ⟨rfl, hs⟩
  next members hk =>
      rw [hk]
      cases h with
      | joined hm =>
          obtain ⟨s, hs, rfl⟩ := List.mem_map.mp hm
          exact .inl ⟨rfl, hs⟩
  next inner hk =>
      rw [hk]
      split at h
      next => exact nomatch h
      next =>
          obtain rfl := pass_starts h
          exact .inl ⟨rfl, List.mem_cons_self ..⟩
  next inner hk =>
      rw [hk]
      split at h
      next => exact nomatch h
      next =>
          obtain rfl := pass_starts h
          exact .inl ⟨rfl, List.mem_cons_self ..⟩
  next inner value hk =>
      rw [hk]
      obtain rfl := pass_starts h
      exact .inl ⟨rfl, List.mem_cons_self ..⟩
  next inner name hk =>
      rw [hk]
      obtain rfl := pass_starts h
      exact .inl ⟨rfl, List.mem_cons_self ..⟩
  next inner effect hk =>
      rw [hk]
      obtain ⟨hn, hs⟩ := effectPlan_starts h
      exact .inl ⟨hn, List.mem_singleton.mpr hs⟩
  next input output hk =>
      rw [hk]
      cases h with
      | first => exact .inl ⟨rfl, List.mem_cons_self ..⟩
      | next h =>
          obtain rfl := pass_starts h
          exact .inl ⟨rfl, List.mem_cons_of_mem _ (List.mem_cons_self ..)⟩
  next id hk =>
      obtain ⟨hn, hs⟩ := lazyPlan_starts h
      exact .inr ⟨hn, id, hk, hs⟩
  next => exact .inl (containerPlan_starts h)

end Schema

/-- What holds of a visit whenever it holds of the visits its plan starts holds of all. -/
theorem Visit.induction (call : Call) {P : Visit → Prop}
    (h : ∀ t, (∀ u, (t.plan call).Starts u → P u) → P t) : ∀ t, P t := by
  have hall : ∀ hops s (t : Visit), t.hops = hops → t.schema = s → P t := by
    intro hops
    induction hops using Nat.strongRecOn with
    | ind hops ihops =>
        intro s
        induction s using Schema.induction with
        | h s ih =>
            rintro t rfl rfl
            refine h t fun u hu => ?_
            cases Schema.plan_starts hu with
            | inl hc => exact ih u.schema hc.2 u hc.1 rfl
            | inr hl => exact ihops u.hops (by omega) u.schema u rfl rfl
  exact fun t => hall t.hops t.schema t rfl rfl

end ValueSchema
