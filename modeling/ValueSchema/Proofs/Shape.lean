import ValueSchema.Proofs.Items
import ValueSchema.Proofs.Parts
import ValueSchema.Proofs.SharedCache
import ValueSchema.Proofs.Success
import ValueSchema.Proofs.WellBuilt

/-!
# Shapes of outputs

What a schema lets through is not always what it is given: values are converted, replaced,
reordered and dropped on the way.  `Schema.HasShape` says what an output of a schema looks
like, by recursion into the output, and `Schema.output_hasShape` is that every output does.

`Schema.plan_hasShape` is the step: the output of a node has its shape when the outputs of the
visits that it starts have theirs.
-/

namespace ValueSchema

namespace Schema

/-- The shape of the outputs of a schema.  Undeclared keys of an object are only there when
they are kept as they are or have a schema, and a declared key is only missing when the
missing value has the shape of its schema.  `keys` are the outputs of the keys of a record. -/
inductive HasShape (arena : Option Arena) : Schema → Value → Prop where
  | leaf {s : Schema} {l : Leaf} {w : Value} :
      s.kind = .leaf l → l.Admits w → (∀ e ∈ s.checks.entries, e.check.evaluate w = .pass) →
      HasShape arena s w
  | array {s e : Schema} {ws : List Value} :
      s.kind = .array e → (∀ w ∈ ws, HasShape arena e w) → HasShape arena s (.array ws)
  | set {s e : Schema} {ws : List Value} :
      s.kind = .set e → (ws.Pairwise fun a b => (a == b) = false) →
      (∀ w ∈ ws, HasShape arena e w) → HasShape arena s (.set ws)
  | tuple {s : Schema} {items : List Schema} {rest : Option Schema} {ws : List Value} :
      s.kind = .tuple items rest → FitsArity items rest ws.length →
      (∀ i t w, placeSchema? items rest i = some t → ws[i]? = some w → HasShape arena t w) →
      HasShape arena s (.array ws)
  | object {s : Schema} {shape : Entries Schema} {unknown : UnknownKeys Schema}
      {out : Entries Value} :
      s.kind = .object shape unknown →
      (∀ k t w, fieldSchema? shape unknown k = some t → out.get? k = some w →
        w.isUndefined = false) →
      (∀ k t w, fieldSchema? shape unknown k = some t → out.get? k = some w →
        HasShape arena t w) →
      (∀ k w, fieldSchema? shape unknown k = none → out.get? k = some w →
        unknown = .passthrough) →
      (∀ k t, shape.get? k = some t → out.get? k = none → HasShape arena t .undefined) →
      HasShape arena s (.object out)
  | record {s key value : Schema} {keys : List Value} {out : Entries Value} :
      s.kind = .record key value → (∀ u ∈ keys, HasShape arena key u) →
      (∀ k w, out.get? k = some w → k ∈ keys.map recordKey) →
      (∀ k w, out.get? k = some w → HasShape arena value w) → HasShape arena s (.object out)
  | union {s t : Schema} {members : List Schema} {w : Value} :
      s.kind = .union members → t ∈ members → HasShape arena t w → HasShape arena s w
  | missing {s t : Schema} : s.kind = .optional t → HasShape arena s .undefined
  | optional {s t : Schema} {w : Value} :
      s.kind = .optional t → HasShape arena t w → HasShape arena s w
  | null {s t : Schema} : s.kind = .nullable t → HasShape arena s .null
  | nullable {s t : Schema} {w : Value} :
      s.kind = .nullable t → HasShape arena t w → HasShape arena s w
  | default {s t : Schema} {v w : Value} :
      s.kind = .default t v → HasShape arena t w → HasShape arena s w
  | brand {s t : Schema} {name : String} {w : Value} :
      s.kind = .brand t name → HasShape arena t w → HasShape arena s w
  | pipeline {s input output : Schema} {w : Value} :
      s.kind = .pipeline input output → HasShape arena output w → HasShape arena s w
  | lazy {s t : Schema} {id : SchemaId} {w : Value} :
      s.kind = .lazy id → arena.bind (·.get? id) = some t → HasShape arena t w →
      HasShape arena s w

/-- Nodes that give no other shape to outputs than their own: there is no effect and no
intersection, nothing is cast, and no item of a tuple is left out. -/
structure Shaping (s : Schema) : Prop extends s.WellBuilt where
  noEffect : ∀ inner effect, s.kind ≠ .effects inner effect
  noIntersection : ∀ members, s.kind ≠ .intersection members
  noCast : s.settings.casts = false
  kept : s.settings.discarded = false

/-! ## Outputs of checks -/

/-- Only an array has checks that rewrite. -/
theorem WellBuilt.keeps {node : Schema} (h : node.WellBuilt) (hk : ∀ e, node.kind ≠ .array e) :
    ∀ e ∈ node.checks.entries, ∀ v u, e.check.evaluate v ≠ .rewrite u := by
  intro e he v u hu
  obtain ⟨t, ht⟩ := Kind.array_of_supports (h.supported e he) (Check.kind_of_rewrite hu)
  exact hk t ht

theorem WellBuilt.eq_of_leftBy {node : Schema} (h : node.WellBuilt)
    (hk : ∀ e, node.kind ≠ .array e) {select : CheckEntry → Bool} {v w : Value}
    (hw : leftBy (node.checks.entries.filter select) v = some w) : w = v :=
  (pass_of_leftBy (fun e he => h.keeps hk e (List.mem_filter.mp he).1) hw).1

/-- The checks of an array leave an array of some of its items. -/
theorem items_of_leftBy :
    ∀ {es : List CheckEntry} {items : List Value} {w : Value}, leftBy es (.array items) = some w →
      ∃ left, w = .array left ∧ ∀ v ∈ left, v ∈ items
  | [], items, w, h => ⟨items, (Option.some.inj h).symm, fun _ hv => hv⟩
  | e :: es, items, w, h => by
      rw [leftBy] at h
      cases hv : e.check.evaluate (.array items) with
      | pass =>
          rw [hv] at h
          exact items_of_leftBy h
      | rewrite u =>
          rw [hv] at h
          obtain ⟨kept, rfl, hkept⟩ := Check.items_of_rewrite hv
          obtain ⟨left, rfl, hleft⟩ := items_of_leftBy h
          exact ⟨left, rfl, fun v hm => hkept v (hleft v hm)⟩
      | fail received =>
          rw [hv] at h
          cases h

/-! ## Containers -/

section Containers

variable {arena : Option Arena} {node : Schema} {call : Call} {path : Path} {v : Value}
  {parts : List Part} {f : Part → Value}

theorem array_hasShape {e : Schema} (hk : node.kind = .array e) {w : Value}
    (hparts : node.parts? v arena = some parts) (hf : ∀ p ∈ parts, HasShape arena p.schema (f p))
    (hw : leftBy (node.checks.entries.filter fun e => node.runsLater e.kind)
      (node.assemble v parts (parts.map f)) = some w) : HasShape arena node w := by
  rw [assemble_array hk] at hw
  obtain ⟨left, rfl, hleft⟩ := items_of_leftBy hw
  obtain ⟨items, -, rfl⟩ := (parts?_array_iff hk).mp hparts
  refine .array hk fun u hu => ?_
  obtain ⟨p, hp, rfl⟩ := List.mem_map.mp (hleft u hu)
  exact mem_itemParts hp ▸ hf p hp

theorem set_hasShape {e : Schema} (hk : node.kind = .set e)
    (hparts : node.parts? v arena = some parts) (hf : ∀ p ∈ parts, HasShape arena p.schema (f p)) :
    HasShape arena node (node.assemble v parts (parts.map f)) := by
  obtain ⟨items, -, rfl⟩ := (parts?_set_iff hk).mp hparts
  rw [assemble_set hk]
  refine .set hk (Value.keepFirst_pairwise _ _) fun u hu => ?_
  obtain ⟨p, hp, rfl⟩ := List.mem_map.mp (Value.mem_of_mem_keepFirst hu)
  exact mem_itemParts hp ▸ hf p hp

theorem tuple_hasShape {items : List Schema} {rest : Option Schema}
    (hk : node.kind = .tuple items rest) (hslots : slots items = items)
    (hparts : node.parts? v arena = some parts) (hf : ∀ p ∈ parts, HasShape arena p.schema (f p)) :
    HasShape arena node (node.assemble v parts (parts.map f)) := by
  obtain ⟨values, -, harity, rfl⟩ := (parts?_tuple_iff hk).mp hparts
  rw [hslots] at harity hf ⊢
  rw [assemble_tuple hk]
  refine .tuple hk ?_ fun i t w ht hw => ?_
  · rwa [List.length_map, length_tupleParts harity]
  · rw [List.getElem?_map, Option.map_eq_some_iff] at hw
    obtain ⟨p, hp, rfl⟩ := hw
    have hmem := List.mem_of_getElem? hp
    rw [getElem?_tupleParts, ht] at hp
    obtain ⟨u, -, hu⟩ := Option.bind_eq_some_iff.mp hp
    obtain rfl := Option.some.inj hu
    exact hf _ hmem

/-- The values that an object gets from its parts are those that are not missing. -/
theorem mem_kept_of_get? {shape : Entries Schema} {unknown : UnknownKeys Schema}
    {input : Entries Value} {k : String} {w : Value} {ws : List Value}
    (hw : ((Entries.ofList (keptEntries parts ws)).insertAll
      (keptUndeclared shape unknown input)).get? k = some w) :
    (k, w) ∈ keptEntries parts ws ∨ unknown = .passthrough ∧ shape.get? k = none := by
  by_cases hu : k ∈ (keptUndeclared shape unknown input).map Prod.fst
  · cases unknown with
    | passthrough =>
        obtain ⟨⟨_, x⟩, hx, rfl⟩ := List.mem_map.mp hu
        exact .inr ⟨rfl, (mem_undeclaredEntries.mp hx).2⟩
    | _ => cases hu
  · rw [Entries.get?_insertAll_of_not_mem hu] at hw
    exact .inl (Entries.mem_of_get?_ofList hw)

theorem get?_ne_none_of_kept {kept extra : List (String × Value)} {k : String} {w : Value}
    (h : (k, w) ∈ kept) : ((Entries.ofList kept).insertAll extra).get? k ≠ none := by
  by_cases hextra : k ∈ extra.map Prod.fst
  · obtain ⟨x, -, hx⟩ := Entries.get?_insertAll_of_mem hextra (Entries.ofList kept)
    rw [hx]
    exact Option.some_ne_none x
  · have hmem : k ∈ kept.map Prod.fst := List.mem_map.mpr ⟨(k, w), h, rfl⟩
    obtain ⟨x, -, hx⟩ := Entries.get?_insertAll_of_mem hmem .empty
    rw [Entries.get?_insertAll_of_not_mem hextra, Entries.ofList, hx]
    exact Option.some_ne_none x

theorem object_hasShape {shape : Entries Schema} {unknown : UnknownKeys Schema}
    (hk : node.kind = .object shape unknown) (hshape : shape.keys.Nodup)
    (hparts : node.parts? v call.options.arena = some parts)
    (hown : node.ownIssues call path v = [])
    (hf : ∀ p ∈ parts, HasShape arena p.schema (f p)) :
    HasShape arena node (node.assemble v parts (parts.map f)) := by
  obtain ⟨input, rfl, he⟩ := (parts?_object_iff hk).mp hparts
  have habsent := (keyCauses_eq_nil_iff.mp ((ownIssues_object_iff hk).mp hown)).1
  rw [assemble_object hk]
  have hkept : ∀ k w, (k, w) ∈ keptEntries parts (parts.map f) → w.isUndefined = false ∧
      ∃ t, fieldSchema? shape unknown k = some t ∧ HasShape arena t w := by
    intro k w h
    obtain ⟨p, hp, hseg, rfl, hdefined⟩ := mem_keptEntries.mp h
    obtain ⟨k', hfield, hschema⟩ := fieldSchema?_of_mem hshape (he ▸ hp)
    rw [hfield] at hseg
    obtain rfl : k' = k := hseg
    exact ⟨hdefined, p.schema, hschema, hf p hp⟩
  -- What stands under a key with a schema is the output of a part.
  have hget : ∀ k t w, fieldSchema? shape unknown k = some t →
      ((Entries.ofList (keptEntries parts (parts.map f))).insertAll
        (keptUndeclared shape unknown input)).get? k = some w →
      w.isUndefined = false ∧ HasShape arena t w := by
    intro k t w ht hw
    rcases mem_kept_of_get? hw with h | ⟨rfl, hnone⟩
    · obtain ⟨hdefined, t', ht', hshaped⟩ := hkept k w h
      obtain rfl := Option.some.inj (ht'.symm.trans ht)
      exact ⟨hdefined, hshaped⟩
    · rw [fieldSchema?, hnone] at ht
      cases ht
  refine .object hk (fun k t w ht hw => (hget k t w ht hw).1)
    (fun k t w ht hw => (hget k t w ht hw).2) (fun k w hnone hw => ?_) (fun k t ht hnone => ?_)
  · rcases mem_kept_of_get? hw with h | ⟨hpass, -⟩
    · obtain ⟨-, t, ht, -⟩ := hkept k w h
      cases hnone.symm.trans ht
    · exact hpass
  · -- The part of a declared key that is missing in the output has the missing value as output.
    have hp : ⟨.field k, t, (input.get? k).getD .undefined⟩ ∈ parts := by
      rw [← he, fieldParts_eq habsent]
      exact List.mem_append_left _ (List.mem_map.mpr ⟨(k, t), Entries.mem_of_get? ht, rfl⟩)
    have hundefined : f ⟨.field k, t, (input.get? k).getD .undefined⟩ = .undefined := by
      cases hu : f ⟨.field k, t, (input.get? k).getD .undefined⟩ with
      | undefined => rfl
      | _ =>
          have hmem := mem_keptEntries.mpr ⟨_, hp, rfl, hu, rfl⟩
          exact absurd hnone (get?_ne_none_of_kept hmem)
    exact hundefined ▸ hf _ hp

theorem record_hasShape {key value : Schema} (hk : node.kind = .record key value)
    (hparts : node.parts? v arena = some parts) (hf : ∀ p ∈ parts, HasShape arena p.schema (f p)) :
    HasShape arena node (node.assemble v parts (parts.map f)) := by
  obtain ⟨input, rfl, rfl⟩ := (parts?_record_iff hk).mp hparts
  rw [assemble_record hk]
  have hmem : ∀ k w, (Entries.ofList (input.toList.map fun e =>
        (recordKey (f ⟨.field e.1, key, .string e.1⟩), f ⟨.field e.1, value, e.2⟩))).get? k = some w →
      ∃ e ∈ input.toList, recordKey (f ⟨.field e.1, key, .string e.1⟩) = k ∧
        f ⟨.field e.1, value, e.2⟩ = w := by
    intro k w hw
    obtain ⟨e, he, hkw⟩ := List.mem_map.mp (Entries.mem_of_get?_ofList hw)
    exact ⟨e, he, congrArg Prod.fst hkw, congrArg Prod.snd hkw⟩
  have hkeys : ∀ u ∈ input.toList.map fun e => f ⟨.field e.1, key, .string e.1⟩,
      HasShape arena key u := by
    intro u hu
    obtain ⟨e, he, rfl⟩ := List.mem_map.mp hu
    exact hf _ (mem_entryParts_iff.mpr ⟨e, he, .inl rfl⟩)
  refine .record hk hkeys (fun k w hw => ?_) fun k w hw => ?_
  · obtain ⟨e, he, rfl, -⟩ := hmem k w hw
    rw [List.map_map]
    exact List.mem_map.mpr ⟨e, he, rfl⟩
  · obtain ⟨e, he, -, rfl⟩ := hmem k w hw
    exact hf _ (mem_entryParts_iff.mpr ⟨e, he, .inr rfl⟩)

end Containers

/-! ## Nodes -/

section Nodes

variable {node : Schema} {call : Call} {path : Path} {v w : Value} {hops : Nat}

theorem leaf_hasShape {arena : Option Arena} {l : Leaf} (hnode : node.Shaping)
    (hk : node.kind = .leaf l) (h : node.leafValidation call path v l = .success w) :
    HasShape arena node w := by
  obtain ⟨hrefusal, u, hu, hw⟩ := leafValidation_success_iff.mp h
  have hkeeps := hnode.keeps fun e he => nomatch hk.symm.trans he
  obtain ⟨rfl, hpass⟩ := pass_of_leftBy hkeeps hu
  rw [hnode.noCast, if_neg (by simp)] at hw
  subst hw
  exact .leaf hk (Leaf.refusal?_eq_none_iff.mp hrefusal) hpass

/-- The output of a container has its shape when those of its parts have theirs. -/
theorem container_hasShape {visit : Visit → Outcome}
    (hnode : node.Everywhere call.options.arena Shaping)
    (hv : ∀ u, (node.containerPlan call path v hops).Starts u → ∀ x, visit u = .ok (.success x) →
      HasShape call.options.arena u.schema x)
    (hw : (node.containerPlan call path v hops).outcome call.mode visit = .ok (.success w)) :
    HasShape call.options.arena node w := by
  obtain ⟨parts, hparts, hown, f, hf, u, hu, hw⟩ := containerPlan_success_iff.mp hw
  rw [castOutput_of_noCast hnode.here.noCast] at hw
  subst hw
  have hshapes : ∀ p ∈ parts, HasShape call.options.arena p.schema (f p) := by
    intro p hp
    refine hv (p.visit hops path) ?_ _ (hf p hp)
    unfold containerPlan
    rw [hparts]
    exact .part (List.mem_map_of_mem hp)
  cases hk : node.kind with
  | array e => exact array_hasShape hk hparts hshapes hu
  | set e =>
      obtain rfl := hnode.here.eq_of_leftBy (fun e he => nomatch hk.symm.trans he) hu
      exact set_hasShape hk hparts hshapes
  | tuple items rest =>
      obtain rfl := hnode.here.eq_of_leftBy (fun e he => nomatch hk.symm.trans he) hu
      exact tuple_hasShape hk (hnode.slots_eq (fun _ h => h.kept) hk) hparts hshapes
  | object shape unknown =>
      obtain rfl := hnode.here.eq_of_leftBy (fun e he => nomatch hk.symm.trans he) hu
      exact object_hasShape hk (hnode.here.distinct shape unknown hk) hparts hown hshapes
  | record key value =>
      obtain rfl := hnode.here.eq_of_leftBy (fun e he => nomatch hk.symm.trans he) hu
      exact record_hasShape hk hparts hshapes
  | _ =>
      -- No other node has parts.
      unfold parts? at hparts
      rw [hk] at hparts
      cases hparts

/-- The output of a node has its shape when those of the visits that it starts have theirs. -/
theorem plan_hasShape {visit : Visit → Outcome}
    (hnode : node.Everywhere call.options.arena Shaping)
    (hv : ∀ u, (node.plan call path v hops).Starts u → ∀ x, visit u = .ok (.success x) →
      HasShape call.options.arena u.schema x)
    (hw : (node.plan call path v hops).outcome call.mode visit = .ok (.success w)) :
    HasShape call.options.arena node w := by
  unfold plan at hv hw
  cases hk : node.kind with
  | leaf l =>
      rw [hk] at hw
      exact leaf_hasShape hnode.here hk (Except.ok.inj hw)
  | array e =>
      rw [hk] at hv hw
      exact container_hasShape hnode hv hw
  | set e =>
      rw [hk] at hv hw
      exact container_hasShape hnode hv hw
  | tuple items rest =>
      rw [hk] at hv hw
      exact container_hasShape hnode hv hw
  | object shape unknown =>
      rw [hk] at hv hw
      exact container_hasShape hnode hv hw
  | record key value =>
      rw [hk] at hv hw
      exact container_hasShape hnode hv hw
  | union members =>
      rw [hk] at hv hw
      obtain ⟨before, t, after, hts, -, ht⟩ := Plan.union_success_iff.mp hw
      have hmem : t ∈ members.map fun s => (⟨hops, s, path, v⟩ : Visit) := by
        rw [hts]
        exact List.mem_append_right _ (List.mem_cons_self ..)
      have hshape := hv t (.member hmem) w ht
      obtain ⟨s, hs, rfl⟩ := List.mem_map.mp hmem
      exact .union hk hs hshape
  | intersection members => exact absurd hk (hnode.here.noIntersection members)
  | optional inner =>
      rw [hk] at hv hw
      dsimp only at hv hw
      split at hw
      next hu =>
          obtain rfl := Validation.success.inj (Except.ok.inj hw)
          cases v with
          | undefined => exact .missing hk
          | _ => cases hu
      next hu =>
          rw [if_neg hu] at hv
          exact .optional hk (hv _ .first w (Plan.pass_success_iff.mp hw))
  | nullable inner =>
      rw [hk] at hv hw
      dsimp only at hv hw
      split at hw
      next hu =>
          obtain rfl := Validation.success.inj (Except.ok.inj hw)
          cases v with
          | null => exact .null hk
          | _ => cases hu
      next hu =>
          rw [if_neg hu] at hv
          exact .nullable hk (hv _ .first w (Plan.pass_success_iff.mp hw))
  | default inner value =>
      rw [hk] at hv hw
      exact .default hk (hv _ .first w (Plan.pass_success_iff.mp hw))
  | brand inner name =>
      rw [hk] at hv hw
      exact .brand hk (hv _ .first w (Plan.pass_success_iff.mp hw))
  | effects inner effect => exact absurd hk (hnode.here.noEffect inner effect)
  | pipeline input output =>
      rw [hk] at hv hw
      obtain ⟨u, -, hu⟩ := Plan.andThen_success_iff.mp hw
      exact .pipeline hk (hv _ (.next (w := u) .first) w (Plan.pass_success_iff.mp hu))
  | lazy id =>
      rw [hk] at hv hw
      obtain ⟨n, s, rfl, hs, hu⟩ := lazyPlan_success_iff.mp hw
      dsimp only at hv
      rw [lazyPlan_eq_pass hs] at hv
      exact .lazy hk hs (hv _ .first w hu)

end Nodes

end Schema

/-- The output of a visit has the shape of its schema. -/
theorem Visit.outcome_hasShape (call : Call) (t : Visit) :
    t.schema.Everywhere call.options.arena Schema.Shaping →
      ∀ w, t.outcome call = .ok (.success w) → t.schema.HasShape call.options.arena w := by
  induction t using Visit.induction call with
  | h t ih =>
      intro hnode w hw
      rw [Visit.outcome_eq] at hw
      exact Schema.plan_hasShape hnode (fun u hu => ih u hu (hnode.started hu)) hw

namespace Schema

/-- Every output has the shape of its schema, provided that what the cache remembers was found
out by earlier calls with the same options. -/
theorem output_hasShape (s : Schema) (mode : Mode) (options : Options) (v w : Value)
    (hs : s.Everywhere options.arena Shaping)
    (hcache : ∀ c, options.cache = some c → ∃ earlier : List Ask, c.HoldsFor options earlier ∧
      ∀ b ∈ earlier, b.schema.id = s.id → b.schema = s)
    (h : (s.safeParse mode options v).result = .ok (.success w)) :
    HasShape options.arena s w := by
  have halone : ∀ a : Ask, a.schema = s → a.alone options = .ok (.success w) →
      HasShape options.arena s w := by
    intro a ha hr
    rw [Ask.alone, Ask.reply, safeParse_uncached _ _ _ _ rfl, ha] at hr
    exact Visit.outcome_hasShape ⟨{ options with cache := none }, a.mode⟩
      (s.rootVisit ⟨{ options with cache := none }, a.mode⟩ a.value) hs w hr
  cases hc : options.cache with
  | none =>
      have hoptions : { options with cache := none } = options := by rw [← hc]
      exact halone ⟨s, mode, v⟩ rfl (by rw [Ask.alone, Ask.reply, hoptions, h])
  | some c =>
      obtain ⟨earlier, hholds, hids⟩ := hcache c hc
      have hoptions : { options with cache := some c } = options := by rw [← hc]
      have hgets := (Ask.reply_holds hholds ⟨s, mode, v⟩).1
      rw [Ask.reply, hoptions, h] at hgets
      generalize ho : (Except.ok (.success w) : Outcome) = o at hgets
      cases hgets with
      | own => exact halone ⟨s, mode, v⟩ rfl ho.symm
      | @shared b r hb hid _ hr => exact halone b (hids b hb hid) (hr.trans ho.symm)

/-- A tag. -/
def tagNode : Schema := ⟨0, .leaf .string, .empty, {}⟩

/-- Tags without repetitions. -/
def tagsNode : Schema := ⟨1, .array tagNode, ⟨[{ check := .unique none true }]⟩, {}⟩

/-- A number that other forms of input are converted to. -/
def amountNode : Schema := ⟨2, .leaf .number, .empty, { coerces := true }⟩

/-- A number, zero where there is none. -/
def countNode : Schema := ⟨3, .default amountNode (.ofNat 0), .empty, {}⟩

/-- An object with both, from which other keys are dropped. -/
def noteNode : Schema := ⟨4, .object ⟨[("count", countNode), ("tags", tagsNode)]⟩ .strip, .empty, {}⟩

theorem noteNode_shaping : noteNode.Everywhere none Shaping := by
  have hamount : amountNode.Everywhere none Shaping :=
    .of_children nofun ⟨⟨nofun, nofun⟩, nofun, nofun, rfl, rfl⟩ nofun
  have hcount : countNode.Everywhere none Shaping :=
    .of_children nofun ⟨⟨nofun, nofun⟩, nofun, nofun, rfl, rfl⟩
      (List.forall_mem_singleton.mpr hamount)
  have htag : tagNode.Everywhere none Shaping :=
    .of_children nofun ⟨⟨nofun, nofun⟩, nofun, nofun, rfl, rfl⟩ nofun
  have htags : tagsNode.Everywhere none Shaping := by
    refine .of_children nofun ⟨⟨?_, nofun⟩, nofun, nofun, rfl, rfl⟩
      (List.forall_mem_singleton.mpr htag)
    intro e he
    rw [List.mem_singleton.mp he]
    rfl
  refine .of_children nofun ⟨⟨nofun, ?_⟩, nofun, nofun, rfl, rfl⟩
    (List.forall_mem_cons.mpr ⟨hcount, List.forall_mem_singleton.mpr htags⟩)
  rintro shape unknown ⟨⟩
  decide

/-- A note with a repeated tag, a count that is a text, and a further key. -/
def noteInput : Value :=
  .record [("draft", .null), ("tags", .array [.string "b", .string "a", .string "b"]),
    ("count", .string "7")]

/-- The note as it is given back. -/
def noteOutput : Value :=
  .record [("count", .ofNat 7), ("tags", .array [.string "b", .string "a"])]

theorem noteOutput_hasShape :
    (noteNode.safeParse .deferred { cache := some {} } noteInput).result =
        .ok (.success noteOutput) ∧ HasShape none noteNode noteOutput := by
  have h : (noteNode.safeParse .deferred { cache := some {} } noteInput).result =
      .ok (.success noteOutput) :=
    (noteNode.safeParse_result _ _ _ rfl).trans ((Visit.outcome_eq _ _).trans rfl)
  refine ⟨h, output_hasShape noteNode .deferred { cache := some {} } noteInput noteOutput
    noteNode_shaping ?_ h⟩
  rintro c ⟨⟩
  exact ⟨[], nofun, nofun⟩

end Schema

end ValueSchema
