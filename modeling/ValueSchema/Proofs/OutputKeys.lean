import ValueSchema.Proofs.MergeOrder
import ValueSchema.Proofs.Reassembly

/-!
# Keys of outputs

A run makes no object that has a key twice (`Visit.outcome_distinctKeys`): the output of an input
without a repeated key has none either, whatever is converted, dropped, replaced or merged on the
way.  What the user gives has to see to it as well, that is the functions and the default values
of the schema (`Schema.KeepsKeys`).

`Schema.plan_distinctKeys` is the step: what goes into the visits that a node starts repeats no
key, and what the node makes of their outputs does not either.
-/

namespace ValueSchema

/-! ## What the user gives -/

/-- A function of the user's that makes no repeated key. -/
def Effect.KeepsKeys : Effect → Prop
  | .preprocess _ map => ∀ v, v.DistinctKeys → (map v).DistinctKeys
  | .transform _ map => ∀ v w, v.DistinctKeys → map v = .ok w → w.DistinctKeys
  | _ => True

/-- What the user gives at a node makes no repeated key. -/
structure Schema.KeepsKeys (s : Schema) : Prop where
  effects : ∀ inner effect, s.kind = .effects inner effect → effect.KeepsKeys
  defaults : ∀ inner value, s.kind = .default inner value → value.DistinctKeys

/-! ## Conversions and checks -/

namespace Value

variable {v w : Value} {entries : Entries Value}

theorem DistinctKeys.items (h : v.DistinctKeys) : ∀ w ∈ v.items, w.DistinctKeys :=
  fun _ hw => h.of_mem_items hw

theorem DistinctKeys.insertAll {l : List (String × Value)} (h : (Value.object entries).DistinctKeys)
    (hl : ∀ e ∈ l, e.2.DistinctKeys) : (Value.object (entries.insertAll l)).DistinctKeys := by
  refine .object (Entries.nodup_insertAll h.nodup l) fun k w hk => ?_
  have hmem : w ∈ (entries.insertAll l).values := List.mem_map_of_mem (Entries.mem_of_get? hk)
  rcases Entries.mem_values_insertAll hmem with hnew | hold
  · obtain ⟨e, he, rfl⟩ := List.mem_map.mp hnew
    exact hl e he
  · obtain ⟨e, he, rfl⟩ := List.mem_map.mp hold
    exact h.of_mem_entries he

theorem DistinctKeys.ofList {l : List (String × Value)} (hl : ∀ e ∈ l, e.2.DistinctKeys) :
    (Value.object (Entries.ofList l)).DistinctKeys :=
  .insertAll (.object .nil nofun) hl

theorem DistinctKeys.record {l : List (String × Value)} (hn : (l.map Prod.fst).Nodup)
    (hl : ∀ e ∈ l, e.2.DistinctKeys) : (Value.record l).DistinctKeys := by
  rw [Value.record, ← Entries.ofList_eq hn]
  exact .ofList hl

theorem DistinctKeys.cast (h : v.DistinctKeys) : v.cast.DistinctKeys := by
  cases v with
  | bigint n => exact .flat rfl rfl
  | date t => exact .flat rfl rfl
  | _ => exact h

theorem DistinctKeys.coerce (l : Leaf) (h : v.DistinctKeys) : (l.coerce v).DistinctKeys := by
  have hconverted {α : Type} {make : α → Value} (hmake : ∀ a, (make a).DistinctKeys) (x : Option α) :
      ((x.map make).getD v).DistinctKeys := by
    cases x with
    | none => exact h
    | some a => exact hmake a
  unfold Leaf.coerce
  split
  · exact h
  · cases l with
    | string => exact hconverted (fun _ => .flat rfl rfl) _
    | number => exact hconverted (fun _ => .flat rfl rfl) _
    | bigint => exact hconverted (fun _ => .flat rfl rfl) _
    | boolean => exact .flat rfl rfl
    | date => exact hconverted (fun _ => .flat rfl rfl) _
    | buffer => exact hconverted (fun _ => .flat rfl rfl) _
    | _ => exact h

theorem DistinctKeys.arrayInput (s : Settings) (h : v.DistinctKeys) :
    (s.arrayInput v).DistinctKeys := by
  unfold Settings.arrayInput
  split
  · split
    · exact .array h.items
    · exact h
  · exact h

theorem DistinctKeys.setInput (s : Settings) (h : v.DistinctKeys) : (s.setInput v).DistinctKeys := by
  unfold Settings.setInput
  split
  · split
    · exact .distinct h.items
    · exact h
  · exact h

/-- Checks drop and move items, and make none. -/
theorem DistinctKeys.rewrite {c : Check} (h : v.DistinctKeys) (hw : c.evaluate v = .rewrite w) :
    w.DistinctKeys := by
  obtain ⟨left, rfl, hleft⟩ := Check.items_of_rewrite hw
  have hitems : ∀ u ∈ left, u.DistinctKeys := fun u hu => h.items u (hleft u hu)
  cases v with
  | set items => exact .set hitems
  | _ => exact .array hitems

theorem DistinctKeys.leftBy {es : List CheckEntry} (h : v.DistinctKeys)
    (hw : leftBy es v = some w) : w.DistinctKeys := by
  induction es generalizing v with
  | nil => exact Option.some.inj hw ▸ h
  | cons e es ih =>
      rw [ValueSchema.leftBy] at hw
      cases hv : e.check.evaluate v with
      | pass =>
          rw [hv] at hw
          exact ih h hw
      | rewrite u =>
          rw [hv] at hw
          exact ih (h.rewrite hv) hw
      | fail received =>
          rw [hv] at hw
          cases hw

end Value

namespace Schema

open Value (DistinctKeys)

variable {node : Schema} {call : Call} {path : Path} {v w : Value} {hops : Nat}
  {visit : Visit → Outcome} {parts : List Part} {f : Part → Value}

/-! ## Containers -/

theorem containerInput_distinctKeys (hv : v.DistinctKeys) : (node.containerInput v).DistinctKeys := by
  unfold containerInput
  split
  · exact hv.arrayInput _
  · exact hv.setInput _
  · exact hv.arrayInput _
  · exact hv

theorem tupleParts_distinctKeys {rest : Option Schema} {slots : List Schema} {values : List Value}
    (hv : ∀ w ∈ values, w.DistinctKeys) : ∀ p ∈ tupleParts rest 0 slots values, p.value.DistinctKeys := by
  intro p hp
  obtain ⟨i, -, hi, -⟩ := exists_getElem?_of_mem_tupleParts hp
  exact hv _ (List.mem_of_getElem? hi)

theorem objectParts_distinctKeys {arena : Option Arena} {shape : Entries Schema}
    {unknown : UnknownKeys Schema} {input : Entries Value} (hv : (Value.object input).DistinctKeys) :
    ∀ p ∈ fieldParts arena shape input ++ catchallParts shape unknown input,
      p.value.DistinctKeys := by
  intro p hp
  rcases List.mem_append.mp hp with hfield | hcatchall
  · obtain ⟨⟨k, s⟩, -, hp⟩ := List.mem_filterMap.mp hfield
    obtain ⟨w, hw, rfl⟩ := Option.map_eq_some_iff.mp hp
    unfold fieldValue? at hw
    split at hw
    next u hu => exact Option.some.inj hw ▸ hv.of_get? hu
    next =>
        split at hw
        · exact Option.some.inj hw ▸ .flat rfl rfl
        · cases hw
  · cases unknown with
    | catchall s =>
        obtain ⟨e, he, rfl⟩ := List.mem_map.mp hcatchall
        exact hv.of_mem_entries (List.mem_filter.mp he).1
    | _ => cases hcatchall

/-- The parts of a container repeat no key. -/
theorem parts_distinctKeys (hv : v.DistinctKeys)
    (hparts : node.parts? v call.options.arena = some parts) : ∀ p ∈ parts, p.value.DistinctKeys := by
  have hinput : (node.containerInput v).DistinctKeys := containerInput_distinctKeys hv
  cases hk : node.kind with
  | array e =>
      obtain ⟨items, hitems, rfl⟩ := (parts?_array_iff hk).mp hparts
      rw [itemParts_eq_tupleParts]
      rw [hitems] at hinput
      exact tupleParts_distinctKeys hinput.items
  | set e =>
      obtain ⟨items, hitems, rfl⟩ := (parts?_set_iff hk).mp hparts
      rw [itemParts_eq_tupleParts]
      rw [hitems] at hinput
      exact tupleParts_distinctKeys hinput.items
  | tuple items rest =>
      obtain ⟨values, hvalues, -, rfl⟩ := (parts?_tuple_iff hk).mp hparts
      rw [hvalues] at hinput
      exact tupleParts_distinctKeys hinput.items
  | object shape unknown =>
      obtain ⟨input, rfl, rfl⟩ := (parts?_object_iff hk).mp hparts
      exact objectParts_distinctKeys hv
  | record key value =>
      obtain ⟨input, rfl, rfl⟩ := (parts?_record_iff hk).mp hparts
      intro p hp
      obtain ⟨e, he, rfl | rfl⟩ := mem_entryParts_iff.mp hp
      · exact .flat rfl rfl
      · exact hv.of_mem_entries he
  | _ => simp [parts?, hk] at hparts

/-- What is put together from outputs that repeat no key repeats none. -/
theorem assemble_distinctKeys (hv : v.DistinctKeys)
    (hparts : node.parts? v call.options.arena = some parts)
    (hf : ∀ p ∈ parts, (f p).DistinctKeys) :
    (node.assemble v parts (parts.map f)).DistinctKeys := by
  have houtputs : ∀ w ∈ parts.map f, w.DistinctKeys := by
    intro w hw
    obtain ⟨p, hp, rfl⟩ := List.mem_map.mp hw
    exact hf p hp
  cases hk : node.kind with
  | array e =>
      rw [assemble_array hk]
      exact .array houtputs
  | set e =>
      rw [assemble_set hk]
      exact .distinct houtputs
  | tuple items rest =>
      rw [assemble_tuple hk]
      exact .array houtputs
  | object shape unknown =>
      obtain ⟨input, rfl, -⟩ := (parts?_object_iff hk).mp hparts
      rw [assemble_object hk]
      refine (DistinctKeys.ofList fun e he => ?_).insertAll fun e he => ?_
      · obtain ⟨p, hp, -, hout, -⟩ := mem_keptEntries.mp (show (e.1, e.2) ∈ _ from he)
        exact hout ▸ hf p hp
      · cases unknown with
        | passthrough => exact hv.of_mem_entries (List.mem_filter.mp he).1
        | _ => cases he
  | record key value =>
      obtain ⟨input, rfl, rfl⟩ := (parts?_record_iff hk).mp hparts
      rw [assemble_record hk]
      refine .ofList fun e he => ?_
      obtain ⟨d, hd, rfl⟩ := List.mem_map.mp he
      exact hf _ (mem_entryParts_iff.mpr ⟨d, hd, .inr rfl⟩)
  | _ => simp [parts?, hk] at hparts

theorem castOutput_distinctKeys (hv : v.DistinctKeys) : (node.castOutput v).DistinctKeys := by
  unfold castOutput
  split
  · unfold Settings.arrayOutput
    split
    · exact .distinct hv.items
    · exact hv
  · unfold Settings.setOutput
    split
    · exact .array hv.items
    · exact hv
  · exact hv

/-- The output of a container repeats no key when those of its parts do not. -/
theorem container_distinctKeys (hv : v.DistinctKeys)
    (hvisit : ∀ u, (node.containerPlan call path v hops).Starts u → u.value.DistinctKeys →
      ∀ x, visit u = .ok (.success x) → x.DistinctKeys)
    (hw : (node.containerPlan call path v hops).outcome call.mode visit = .ok (.success w)) :
    w.DistinctKeys := by
  obtain ⟨parts, hparts, -, f, hf, u, hu, rfl⟩ := containerPlan_success_iff.mp hw
  have houtputs : ∀ p ∈ parts, (f p).DistinctKeys := by
    intro p hp
    refine hvisit (p.visit hops path) ?_ (parts_distinctKeys hv hparts p hp) _ (hf p hp)
    simp only [containerPlan, hparts]
    exact .part (List.mem_map_of_mem hp)
  exact castOutput_distinctKeys ((assemble_distinctKeys hv hparts houtputs).leftBy hu)

/-! ## Other nodes -/

theorem leaf_distinctKeys {l : Leaf} (hv : v.DistinctKeys)
    (h : node.leafValidation call path v l = .success w) : w.DistinctKeys := by
  obtain ⟨-, u, hu, rfl⟩ := leafValidation_success_iff.mp h
  have hinput : (if node.settings.coerces then l.coerce v else v).DistinctKeys := by
    split
    · exact hv.coerce l
    · exact hv
  split
  · exact (hinput.leftBy hu).cast
  · exact hinput.leftBy hu

theorem effectValidation_distinctKeys {stops : Bool} {effect : Effect} (he : effect.KeepsKeys)
    (hv : v.DistinctKeys) (h : effectValidation call path v stops effect = .success w) :
    w.DistinctKeys := by
  cases effect with
  | preprocess flavour map => exact Validation.success.inj h ▸ hv
  | refine flavour accepts message =>
      simp only [effectValidation] at h
      split at h
      · exact Validation.success.inj h ▸ hv
      · cases h
  | rule findings =>
      obtain ⟨-, h⟩ := Plan.after_eq_success_iff.mp h
      exact Validation.success.inj h ▸ hv
  | transform flavour map =>
      simp only [effectValidation] at h
      split at h
      next u hu => exact Validation.success.inj h ▸ he v u hv hu
      next => cases h

theorem effect_distinctKeys {inner : Schema} {effect : Effect} (he : effect.KeepsKeys)
    (hv : v.DistinctKeys)
    (hvisit : ∀ u, (node.effectPlan call path v hops inner effect).Starts u → u.value.DistinctKeys →
      ∀ x, visit u = .ok (.success x) → x.DistinctKeys)
    (hw : (node.effectPlan call path v hops inner effect).outcome call.mode visit =
      .ok (.success w)) : w.DistinctKeys := by
  unfold effectPlan at hvisit hw
  split at hw
  next => cases hw
  next hmode =>
      rw [if_neg hmode] at hvisit
      cases effect with
      | preprocess flavour map => exact hvisit _ .first (he v hv) w (Plan.pass_success_iff.mp hw)
      | _ =>
          obtain ⟨u, hu, hw⟩ := Plan.andThen_success_iff.mp hw
          exact effectValidation_distinctKeys he (hvisit _ .first hv u hu) (Except.ok.inj hw)

theorem mergeValidation_success_iff {outputs : List Value} :
    node.mergeValidation call path v outputs = .success w ↔ joined? v outputs = some w := by
  cases outputs with
  | nil => simp [mergeValidation, joined?]
  | cons u us =>
      rw [mergeValidation, joined?]
      cases mergeAll? u us <;> simp

/-- The output of a node repeats no key when those of the visits that it starts do not. -/
theorem plan_distinctKeys (hnode : node.KeepsKeys) (hv : v.DistinctKeys)
    (hvisit : ∀ u, (node.plan call path v hops).Starts u → u.value.DistinctKeys →
      ∀ x, visit u = .ok (.success x) → x.DistinctKeys)
    (hw : (node.plan call path v hops).outcome call.mode visit = .ok (.success w)) :
    w.DistinctKeys := by
  cases hk : node.kind with
  | leaf l =>
      simp only [plan, hk] at hw
      exact leaf_distinctKeys hv (Except.ok.inj hw)
  | union members =>
      simp only [plan, hk] at hvisit hw
      obtain ⟨before, t, after, hts, -, ht⟩ := Plan.union_success_iff.mp hw
      have hmem : t ∈ members.map fun s => (⟨hops, s, path, v⟩ : Visit) := by
        rw [hts]
        exact List.mem_append_right _ (List.mem_cons_self ..)
      obtain ⟨s, -, rfl⟩ := List.mem_map.mp hmem
      exact hvisit _ (.member hmem) hv w ht
  | intersection members =>
      simp only [plan, hk] at hvisit hw
      obtain ⟨hall, hbuild⟩ := Plan.intersection_success_iff.mp hw
      refine distinctKeys_of_joined? hv (fun x hx => ?_) (mergeValidation_success_iff.mp hbuild)
      obtain ⟨t, ht, rfl⟩ := List.mem_map.mp hx
      have hsuccess := hall t ht
      obtain ⟨s, -, rfl⟩ := List.mem_map.mp ht
      exact hvisit _ (.joined ht) hv _ hsuccess
  | optional inner =>
      simp only [plan, hk] at hvisit hw
      split at hw
      next => exact Validation.success.inj (Except.ok.inj hw) ▸ hv
      next hu =>
          rw [if_neg hu] at hvisit
          exact hvisit _ .first hv w (Plan.pass_success_iff.mp hw)
  | nullable inner =>
      simp only [plan, hk] at hvisit hw
      split at hw
      next => exact Validation.success.inj (Except.ok.inj hw) ▸ hv
      next hu =>
          rw [if_neg hu] at hvisit
          exact hvisit _ .first hv w (Plan.pass_success_iff.mp hw)
  | default inner value =>
      simp only [plan, hk] at hvisit hw
      have hinput : (if v.isUndefined then value else v).DistinctKeys := by
        split
        · exact hnode.defaults inner value hk
        · exact hv
      exact hvisit _ .first hinput w (Plan.pass_success_iff.mp hw)
  | brand inner name =>
      simp only [plan, hk] at hvisit hw
      exact hvisit _ .first hv w (Plan.pass_success_iff.mp hw)
  | effects inner effect =>
      simp only [plan, hk] at hvisit hw
      exact effect_distinctKeys (hnode.effects inner effect hk) hv hvisit hw
  | pipeline input output =>
      simp only [plan, hk] at hvisit hw
      obtain ⟨u, hu, hw⟩ := Plan.andThen_success_iff.mp hw
      have hmiddle : u.DistinctKeys := hvisit _ .first hv u hu
      exact hvisit _ (.next (w := u) .first) hmiddle w (Plan.pass_success_iff.mp hw)
  | lazy id =>
      simp only [plan, hk] at hvisit hw
      obtain ⟨n, s, rfl, hs, hu⟩ := lazyPlan_success_iff.mp hw
      rw [lazyPlan_eq_pass hs] at hvisit
      exact hvisit _ .first hv w hu
  | _ =>
      simp only [plan, hk] at hvisit hw
      exact container_distinctKeys hv hvisit hw

end Schema

/-- A run makes no object that has a key twice. -/
theorem Visit.outcome_distinctKeys (call : Call) (t : Visit) :
    t.schema.Everywhere call.options.arena Schema.KeepsKeys → t.value.DistinctKeys →
      ∀ w, t.outcome call = .ok (.success w) → w.DistinctKeys := by
  induction t using Visit.induction call with
  | h t ih =>
      intro hnode hv w hw
      rw [Visit.outcome_eq] at hw
      exact Schema.plan_distinctKeys hnode.here hv
        (fun u hu => ih u hu (hnode.started hu)) hw

end ValueSchema
