import ValueSchema.Proofs.Conformance

/-!
# Taking containers apart and putting them together again

`Schema.Taken` says what the parts of a value are for a node that converts nothing.  When the
output of every part is its value up to the order of keys, so is what is put together from the
outputs (`Schema.Taken.rearranged`).  And what was put together stays as it is when it is taken
apart and put together another time: its parts are outputs of parts with the same schemas
(`Schema.Taken.exists_part`), and they give it back (`Schema.Taken.assemble_again`).

A container conforms when what it is taken apart to does (`Schema.Taken.matches_iff`).

Objects are the one case where something moves.  `Entries.arranged` has the declared keys in the
order of the shape and then the others, and arranging entries twice is arranging them once.
-/

namespace ValueSchema

/-! ## Arranged entries -/

namespace Entries

variable {α : Type} {keys : List String} {m : Entries α}

/-- The entries of some keys in the order of these, and then the others. -/
def arranged (keys : List String) (m : Entries α) : Entries α :=
  ⟨(keys.filterMap fun k => (m.get? k).map fun v => (k, v)) ++ m.toList.filter fun e => e.1 ∉ keys⟩

theorem mem_arranged (hm : m.keys.Nodup) {k : String} {v : α} :
    (k, v) ∈ (m.arranged keys).toList ↔ (k, v) ∈ m.toList := by
  rw [arranged, List.mem_append, List.mem_filterMap, List.mem_filter]
  constructor
  · rintro (⟨j, -, hj⟩ | ⟨hmem, -⟩)
    · obtain ⟨w, hw, he⟩ := Option.map_eq_some_iff.mp hj
      cases he
      exact mem_of_get? hw
    · exact hmem
  · intro hmem
    by_cases hk : k ∈ keys
    · exact .inl ⟨k, hk, by rw [get?_of_mem hm hmem]; rfl⟩
    · exact .inr ⟨hmem, by simpa using hk⟩

theorem keys_arranged :
    (m.arranged keys).keys = keys.filter m.hasKey ++ m.keys.filter fun k => k ∉ keys := by
  have hfirst : (keys.filterMap fun k => (m.get? k).map fun v => (k, v)).map Prod.fst =
      keys.filter m.hasKey := by
    induction keys with
    | nil => rfl
    | cons k keys ih =>
        rw [List.filterMap_cons, List.filter_cons, hasKey]
        cases m.get? k with
        | none => exact ih
        | some v => exact congrArg (k :: ·) ih
  have hrest : (m.toList.filter fun e => e.1 ∉ keys).map Prod.fst =
      m.keys.filter fun k => k ∉ keys := by
    rw [Entries.keys, List.filter_map]
    rfl
  rw [Entries.keys, arranged, List.map_append, hfirst, hrest]

theorem nodup_arranged (hk : keys.Nodup) (hm : m.keys.Nodup) : (m.arranged keys).keys.Nodup := by
  rw [keys_arranged]
  refine List.nodup_append.mpr ⟨hk.filter _, hm.filter _, ?_⟩
  rintro a ha b hb rfl
  have hnot := (List.mem_filter.mp hb).2
  exact absurd (List.mem_filter.mp ha).1 (by simpa using hnot)

/-- Arranging entries changes no look-up. -/
theorem get?_arranged (hk : keys.Nodup) (hm : m.keys.Nodup) (k : String) :
    (m.arranged keys).get? k = m.get? k := by
  refine Option.ext fun v => ?_
  rw [get?_eq_some_iff (nodup_arranged hk hm), get?_eq_some_iff hm, mem_arranged hm]

theorem perm_arranged (hk : keys.Nodup) (hm : m.keys.Nodup) :
    m.keys.Perm (m.arranged keys).keys := by
  refine (List.perm_ext_iff_of_nodup hm (nodup_arranged hk hm)).mpr fun k => ?_
  rw [← hasKey_iff, ← hasKey_iff, hasKey, hasKey, get?_arranged hk hm]

theorem arranged_arranged (hk : keys.Nodup) (hm : m.keys.Nodup) :
    (m.arranged keys).arranged keys = m.arranged keys := by
  have hfirst : ((keys.filterMap fun k => (m.get? k).map fun v => (k, v)).filter fun e =>
      e.1 ∉ keys) = [] := by
    refine List.filter_eq_nil_iff.mpr fun e he => ?_
    obtain ⟨k, hmem, he⟩ := List.mem_filterMap.mp he
    obtain ⟨v, -, rfl⟩ := Option.map_eq_some_iff.mp he
    simpa using hmem
  have hlater : ((m.arranged keys).toList.filter fun e => e.1 ∉ keys) =
      m.toList.filter fun e => e.1 ∉ keys := by
    rw [arranged, List.filter_append, hfirst, List.filter_filter, List.nil_append]
    simp only [Bool.and_self]
  conv_lhs => rw [arranged, hlater]
  simp only [get?_arranged hk hm]
  rfl

end Entries

theorem Entries.mapWithKey_id {α : Type} (m : Entries α) : (m.mapWithKey fun _ v => v) = m := by
  rw [mapWithKey, List.map_id']

variable {f : Part → Value}

/-! ## Arrays and tuples -/

/-- The items of an array are parts of a tuple that has a schema for the rest only. -/
theorem itemParts_eq_tupleParts (e : Schema) (items : List Value) :
    itemParts e items = tupleParts (some e) 0 [] items := by
  refine List.ext_getElem? fun i => ?_
  rw [getElem?_tupleParts, itemParts, List.getElem?_mapIdx]
  cases items[i]? with
  | none => rfl
  | some v => simp [Schema.placeSchema?]

theorem map_value_tupleParts {rest : Option Schema} {slots : List Schema} {values : List Value}
    (h : FitsArity slots rest values.length) :
    (tupleParts rest 0 slots values).map Part.value = values := by
  refine List.ext_getElem? fun i => ?_
  rw [List.getElem?_map, getElem?_tupleParts]
  cases hv : values[i]? with
  | none => rfl
  | some v =>
      have hi : i < values.length := (List.getElem?_eq_some_iff.mp hv).1
      obtain ⟨t, ht⟩ := Option.isSome_iff_exists.mp (h.placeSchema?_isSome hi)
      simp [ht]

/-- The parts of a tuple hold its values. -/
theorem exists_getElem?_of_mem_tupleParts {rest : Option Schema} {slots : List Schema}
    {values : List Value} {p : Part} (h : p ∈ tupleParts rest 0 slots values) :
    ∃ i : Nat, (tupleParts rest 0 slots values)[i]? = some p ∧ values[i]? = some p.value ∧
      Schema.placeSchema? slots rest i = some p.schema := by
  obtain ⟨i, hi⟩ := List.getElem?_of_mem h
  refine ⟨i, hi, ?_⟩
  rw [getElem?_tupleParts] at hi
  obtain ⟨v, hv, hp⟩ := Option.bind_eq_some_iff.mp hi
  obtain ⟨t, ht, rfl⟩ := Option.map_eq_some_iff.mp hp
  exact ⟨hv, ht⟩

theorem tupleParts_rearranged {rest : Option Schema} {slots : List Schema} {values : List Value}
    (harity : FitsArity slots rest values.length)
    (hf : ∀ p ∈ tupleParts rest 0 slots values, p.value.Rearranged (f p)) :
    (Value.array values).Rearranged (.array ((tupleParts rest 0 slots values).map f)) := by
  refine .array (by rw [List.length_map, length_tupleParts harity]) fun i a b ha hb => ?_
  rw [List.getElem?_map] at hb
  obtain ⟨p, hp, rfl⟩ := Option.map_eq_some_iff.mp hb
  have hvalue := map_value_tupleParts harity
  rw [← hvalue, List.getElem?_map, hp] at ha
  obtain rfl := Option.some.inj ha
  exact hf p (List.mem_of_getElem? hp)

/-- A part of the outputs of parts is the output of a part with the same schema. -/
theorem exists_tuplePart {rest : Option Schema} {slots : List Schema} {values : List Value}
    {q : Part} (hq : q ∈ tupleParts rest 0 slots ((tupleParts rest 0 slots values).map f)) :
    ∃ p ∈ tupleParts rest 0 slots values, q.schema = p.schema ∧ q.value = f p := by
  obtain ⟨i, -, hv, hs⟩ := exists_getElem?_of_mem_tupleParts hq
  rw [List.getElem?_map] at hv
  obtain ⟨p, hp, hout⟩ := Option.map_eq_some_iff.mp hv
  have hmem := List.mem_of_getElem? hp
  rw [getElem?_tupleParts, hs] at hp
  obtain ⟨v, -, hp⟩ := Option.bind_eq_some_iff.mp hp
  obtain rfl := Option.some.inj hp
  exact ⟨_, hmem, rfl, hout.symm⟩

/-! ## Objects and records -/

/-- The declared fields of an object, an absent key standing for the missing value. -/
def declaredParts (shape : Entries Schema) (input : Entries Value) : List Part :=
  shape.toList.map fun e => ⟨.field e.1, e.2, (input.get? e.1).getD .undefined⟩

/-- What an object has under a key, where `f` gives the outputs of parts. -/
def fieldOutput (f : Part → Value) (shape : Entries Schema) (unknown : UnknownKeys Schema)
    (key : String) (v : Value) : Value :=
  match Schema.fieldSchema? shape unknown key with
  | some s => f ⟨.field key, s, v⟩
  | none => v

section Objects

variable {shape : Entries Schema} {unknown : UnknownKeys Schema} {input : Entries Value}

/-- A value under a key with a schema is a part. -/
theorem mem_objectParts {k : String} {s : Schema} {v : Value}
    (hs : Schema.fieldSchema? shape unknown k = some s) (hv : input.get? k = some v) :
    ⟨.field k, s, v⟩ ∈ declaredParts shape input ++ catchallParts shape unknown input := by
  unfold Schema.fieldSchema? at hs
  cases hk : shape.get? k with
  | some t =>
      rw [hk] at hs
      obtain rfl := Option.some.inj hs
      refine List.mem_append_left _ (List.mem_map.mpr ⟨(k, t), Entries.mem_of_get? hk, ?_⟩)
      rw [hv]
      rfl
  | none =>
      rw [hk, Option.none_or] at hs
      cases unknown with
      | catchall t =>
          obtain rfl := Option.some.inj hs
          refine List.mem_append_right _ (List.mem_map.mpr ⟨(k, v), ?_, rfl⟩)
          exact mem_undeclaredEntries.mpr ⟨Entries.mem_of_get? hv, hk⟩
      | _ => cases hs

/-- A part of an object is the value under a key with a schema, or stands for a key that is
absent. -/
theorem mem_objectParts_iff (hshape : shape.keys.Nodup) (hinput : input.keys.Nodup) {p : Part} :
    p ∈ declaredParts shape input ++ catchallParts shape unknown input ↔
      ∃ k s, Schema.fieldSchema? shape unknown k = some s ∧
        ((∃ v, input.get? k = some v ∧ p = ⟨.field k, s, v⟩) ∨
          (shape.get? k = some s ∧ input.get? k = none ∧ p = ⟨.field k, s, .undefined⟩)) := by
  constructor
  · intro h
    rcases List.mem_append.mp h with hd | hc
    · obtain ⟨⟨k, s⟩, he, rfl⟩ := List.mem_map.mp hd
      have hs := Entries.get?_of_mem hshape he
      refine ⟨k, s, by rw [Schema.fieldSchema?, hs, Option.some_or], ?_⟩
      cases hk : input.get? k with
      | none => exact .inr ⟨hs, rfl, rfl⟩
      | some v => exact .inl ⟨v, rfl, rfl⟩
    · cases unknown with
      | catchall s =>
          obtain ⟨⟨k, v⟩, he, rfl⟩ := List.mem_map.mp hc
          obtain ⟨hmem, hk⟩ := mem_undeclaredEntries.mp he
          refine ⟨k, s, by rw [Schema.fieldSchema?, hk]; rfl, .inl ⟨v, ?_, rfl⟩⟩
          exact Entries.get?_of_mem hinput hmem
      | _ => cases hc
  · rintro ⟨k, s, hs, ⟨v, hv, rfl⟩ | ⟨hk, hv, rfl⟩⟩
    · exact mem_objectParts hs hv
    · refine List.mem_append_left _ (List.mem_map.mpr ⟨(k, s), Entries.mem_of_get? hk, ?_⟩)
      rw [hv]
      rfl

/-- A part of the arranged outputs of parts is the output of a part with the same schema. -/
theorem exists_objectPart (hshape : shape.keys.Nodup) (hinput : input.keys.Nodup)
    (hf : ∀ p ∈ declaredParts shape input ++ catchallParts shape unknown input,
      p.value.Rearranged (f p)) {out : Entries Value}
    (hout : out = (input.mapWithKey (fieldOutput f shape unknown)).arranged shape.keys) {q : Part}
    (hq : q ∈ declaredParts shape out ++ catchallParts shape unknown out) :
    ∃ p ∈ declaredParts shape input ++ catchallParts shape unknown input,
      q.schema = p.schema ∧ q.value = f p := by
  have hmapped : (input.mapWithKey (fieldOutput f shape unknown)).keys.Nodup := by
    rw [Entries.keys_mapWithKey]
    exact hinput
  have hget : ∀ k, out.get? k = (input.get? k).map (fieldOutput f shape unknown k) := by
    intro k
    rw [hout, Entries.get?_arranged hshape hmapped, Entries.get?_mapWithKey]
  have hkeys : out.keys.Nodup := hout ▸ Entries.nodup_arranged hshape hmapped
  obtain ⟨k, s, hs, ⟨w, hw, rfl⟩ | ⟨hk, hnone, rfl⟩⟩ := (mem_objectParts_iff hshape hkeys).mp hq
  · rw [hget] at hw
    obtain ⟨v, hv, rfl⟩ := Option.map_eq_some_iff.mp hw
    refine ⟨⟨.field k, s, v⟩, mem_objectParts hs hv, rfl, ?_⟩
    simp only [fieldOutput, hs]
  · rw [hget, Option.map_eq_none_iff] at hnone
    have hp := (mem_objectParts_iff hshape hinput).mpr ⟨k, s, hs, .inr ⟨hk, hnone, rfl⟩⟩
    exact ⟨_, hp, rfl, (hf _ hp).eq_of_undefined.symm⟩

theorem mapWithKey_fieldOutput_value (m : Entries Value) :
    m.mapWithKey (fieldOutput Part.value shape unknown) = m := by
  have hid : fieldOutput Part.value shape unknown = fun _ v => v := by
    funext k v
    unfold fieldOutput
    cases Schema.fieldSchema? shape unknown k <;> rfl
  rw [hid, Entries.mapWithKey_id]

/-- A part of the outputs of an entry is the output of a part with the same schema. -/
theorem exists_recordPart {key value : Schema}
    (hf : ∀ p ∈ entryParts key value input, p.value.Rearranged (f p)) {q : Part}
    (hq : q ∈ entryParts key value (input.mapWithKey fun k v => f ⟨.field k, value, v⟩)) :
    ∃ p ∈ entryParts key value input, q.schema = p.schema ∧ q.value = f p := by
  obtain ⟨_, hout, hcase⟩ := mem_entryParts_iff.mp hq
  obtain ⟨e, he, rfl⟩ := List.mem_map.mp hout
  rcases hcase with rfl | rfl
  · have hp : ⟨.field e.1, key, .string e.1⟩ ∈ entryParts key value input :=
      mem_entryParts_iff.mpr ⟨e, he, .inl rfl⟩
    exact ⟨_, hp, rfl, (hf _ hp).eq_of_string.symm⟩
  · exact ⟨_, mem_entryParts_iff.mpr ⟨e, he, .inr rfl⟩, rfl, rfl⟩

theorem undeclaredEntries_mapWithKey (g : String → Value → Value) :
    ((input.mapWithKey g).toList.filter fun e => e.1 ∉ shape.keys) =
      (undeclaredEntries shape input).map fun e => (e.1, g e.1 e.2) := by
  have hundeclared : (fun e : String × Value => decide (e.1 ∉ shape.keys)) =
      fun e => !shape.hasKey e.1 := by
    funext e
    simp [← Entries.hasKey_iff]
  rw [hundeclared, Entries.mapWithKey, List.filter_map]
  rfl

/-- The entries that an object gets from its declared fields. -/
theorem keptEntries_declared (unknown : UnknownKeys Schema) (hshape : shape.keys.Nodup)
    (hinput : (Value.object input).Plain)
    (hf : ∀ p ∈ declaredParts shape input, p.value.Rearranged (f p)) :
    keptEntries (declaredParts shape input) ((declaredParts shape input).map f) =
      shape.keys.filterMap fun k =>
        ((input.mapWithKey (fieldOutput f shape unknown)).get? k).map fun v => (k, v) := by
  rw [keptEntries_map, Entries.keys, List.filterMap_map, declaredParts, List.filterMap_map]
  refine List.filterMap_congr ?_
  rintro ⟨k, s⟩ he
  have hundefined := (hf _ (List.mem_map.mpr ⟨(k, s), he, rfl⟩)).isUndefined_eq
  have hs : Schema.fieldSchema? shape unknown k = some s := by
    rw [Schema.fieldSchema?, Entries.get?_of_mem hshape he, Option.some_or]
  simp only [Function.comp_apply, Entries.get?_mapWithKey]
  dsimp only at hundefined
  cases hk : input.get? k with
  | none =>
      rw [hk] at hundefined
      have hnone : (f ⟨.field k, s, .undefined⟩).isUndefined = true := hundefined.symm
      exact if_pos hnone
  | some v =>
      rw [hk] at hundefined
      have hdefined := hundefined.symm.trans (hinput.isUndefined_of_get? hk)
      rw [if_neg (by simpa using hdefined)]
      simp only [Option.getD_some, Option.map_some, fieldOutput, hs]
      rfl

/-- The entries that an object gets besides the declared ones. -/
theorem keptEntries_undeclared (hinput : (Value.object input).Plain)
    (hkind : (Kind.object shape unknown).IsStructural)
    (hstrict : unknown = .strict → ∀ k, shape.get? k = none → input.get? k = none)
    (hf : ∀ p ∈ catchallParts shape unknown input, p.value.Rearranged (f p)) :
    keptEntries (catchallParts shape unknown input) ((catchallParts shape unknown input).map f) ++
        Schema.keptUndeclared shape unknown input =
      (undeclaredEntries shape input).map fun e => (e.1, fieldOutput f shape unknown e.1 e.2) := by
  cases unknown with
  | strict =>
      rw [undeclaredEntries_eq_nil_iff.mpr (hstrict rfl)]
      rfl
  | strip => exact hkind.elim
  | passthrough =>
      refine (List.map_id _).symm.trans (List.map_congr_left ?_)
      rintro ⟨k, v⟩ he
      simp [fieldOutput, Schema.fieldSchema?, (mem_undeclaredEntries.mp he).2, UnknownKeys.schema?]
  | catchall s =>
      rw [keptEntries_map]
      simp only [catchallParts, Schema.keptUndeclared, List.append_nil]
      rw [List.filterMap_map, ← List.filterMap_eq_map]
      refine List.filterMap_congr ?_
      rintro ⟨k, v⟩ he
      obtain ⟨hmem, hk⟩ := mem_undeclaredEntries.mp he
      have hundefined := (hf _ (List.mem_map.mpr ⟨(k, v), he, rfl⟩)).isUndefined_eq
      have hdefined := hinput.isUndefined_of_get? (Entries.get?_of_mem hinput.nodup hmem)
      dsimp only at hundefined
      simp only [Function.comp_apply]
      rw [if_neg (by simp [← hundefined, hdefined])]
      simp [fieldOutput, Schema.fieldSchema?, hk, UnknownKeys.schema?, Segment.text]

/-- An object that keeps or tests all its keys has the outputs of its parts, arranged. -/
theorem assemble_arranged {node : Schema} (hk : node.kind = .object shape unknown)
    (hkind : node.kind.IsStructural) (hshape : shape.keys.Nodup)
    (hinput : (Value.object input).Plain)
    (hstrict : unknown = .strict → ∀ k, shape.get? k = none → input.get? k = none)
    (hf : ∀ p ∈ declaredParts shape input ++ catchallParts shape unknown input,
      p.value.Rearranged (f p)) :
    node.assemble (.object input) (declaredParts shape input ++ catchallParts shape unknown input)
        ((declaredParts shape input ++ catchallParts shape unknown input).map f) =
      .object ((input.mapWithKey (fieldOutput f shape unknown)).arranged shape.keys) := by
  have hdeclared := keptEntries_declared unknown hshape hinput fun p hp =>
    hf p (List.mem_append_left _ hp)
  have hothers := keptEntries_undeclared hinput (hk ▸ hkind) hstrict fun p hp =>
    hf p (List.mem_append_right _ hp)
  have hall : keptEntries (declaredParts shape input ++ catchallParts shape unknown input)
        ((declaredParts shape input ++ catchallParts shape unknown input).map f) ++
        Schema.keptUndeclared shape unknown input =
      ((input.mapWithKey (fieldOutput f shape unknown)).arranged shape.keys).toList := by
    rw [keptEntries_map, List.filterMap_append, ← keptEntries_map, ← keptEntries_map, hdeclared,
      List.append_assoc, hothers, Entries.arranged, undeclaredEntries_mapWithKey]
  have hkeys := Entries.nodup_arranged (m := input.mapWithKey (fieldOutput f shape unknown)) hshape
    (by rw [Entries.keys_mapWithKey]; exact hinput.nodup)
  rw [Entries.keys, ← hall] at hkeys
  rw [Schema.assemble_object hk, Entries.ofList_insertAll hkeys, hall]

/-- Outputs of the values under some keys, arranged. -/
theorem object_rearranged {keys : List String} {g : String → Value → Value} (hkeys : keys.Nodup)
    (hinput : input.keys.Nodup) (hg : ∀ k v, input.get? k = some v → v.Rearranged (g k v)) :
    (Value.object input).Rearranged (.object ((input.mapWithKey g).arranged keys)) := by
  have hmapped : (input.mapWithKey g).keys.Nodup := by
    rw [Entries.keys_mapWithKey]
    exact hinput
  have hperm := Entries.perm_arranged hkeys hmapped
  rw [Entries.keys_mapWithKey] at hperm
  refine .object hinput hperm fun k a b ha hb => ?_
  rw [Entries.get?_arranged hkeys hmapped, Entries.get?_mapWithKey, ha] at hb
  obtain rfl := Option.some.inj hb
  exact hg k a ha

end Objects

/-! ## Taking apart -/

namespace Schema

/-- The parts of a value that fits a container which converts nothing. -/
inductive Taken (node : Schema) : Value → List Part → Prop where
  | array {e : Schema} {items : List Value} :
      node.kind = .array e → Taken node (.array items) (tupleParts (some e) 0 [] items)
  | tuple {items : List Schema} {rest : Option Schema} {values : List Value} :
      node.kind = .tuple items rest → FitsArity items rest values.length →
      Taken node (.array values) (tupleParts rest 0 items values)
  | object {shape : Entries Schema} {unknown : UnknownKeys Schema} {input : Entries Value} :
      node.kind = .object shape unknown →
      (unknown = .strict → ∀ k, shape.get? k = none → input.get? k = none) →
      Taken node (.object input) (declaredParts shape input ++ catchallParts shape unknown input)
  | record {key value : Schema} {input : Entries Value} :
      node.kind = .record key value → Taken node (.object input) (entryParts key value input)

namespace Taken

variable {node : Schema} {v : Value} {parts : List Part}

theorem of_array {e : Schema} {items : List Value} (hk : node.kind = .array e)
    (h : node.Taken (.array items) parts) : parts = tupleParts (some e) 0 [] items := by
  cases h with
  | array hk' =>
      obtain rfl := Kind.array.inj (hk.symm.trans hk')
      rfl
  | tuple hk' => cases hk.symm.trans hk'

theorem of_tuple {items : List Schema} {rest : Option Schema} {values : List Value}
    (hk : node.kind = .tuple items rest) (h : node.Taken (.array values) parts) :
    parts = tupleParts rest 0 items values ∧ FitsArity items rest values.length := by
  cases h with
  | array hk' => cases hk.symm.trans hk'
  | tuple hk' harity =>
      obtain ⟨rfl, rfl⟩ := Kind.tuple.inj (hk.symm.trans hk')
      exact ⟨rfl, harity⟩

theorem of_object {shape : Entries Schema} {unknown : UnknownKeys Schema} {input : Entries Value}
    (hk : node.kind = .object shape unknown) (h : node.Taken (.object input) parts) :
    parts = declaredParts shape input ++ catchallParts shape unknown input ∧
      (unknown = .strict → ∀ k, shape.get? k = none → input.get? k = none) := by
  cases h with
  | object hk' hstrict =>
      obtain ⟨rfl, rfl⟩ := Kind.object.inj (hk.symm.trans hk')
      exact ⟨rfl, hstrict⟩
  | record hk' => cases hk.symm.trans hk'

theorem of_record {key value : Schema} {input : Entries Value}
    (hk : node.kind = .record key value) (h : node.Taken (.object input) parts) :
    parts = entryParts key value input := by
  cases h with
  | object hk' => cases hk.symm.trans hk'
  | record hk' =>
      obtain ⟨rfl, rfl⟩ := Kind.record.inj (hk.symm.trans hk')
      rfl

theorem fitsArity_rest (e : Schema) (n : Nat) : FitsArity [] (some e) n := Nat.zero_le n

theorem schema_mem (h : node.Taken v parts) {p : Part} (hp : p ∈ parts) :
    p.schema ∈ node.kind.children := by
  cases h with
  | array hk =>
      rw [hk]
      exact mem_tupleParts hp
  | tuple hk harity =>
      rw [hk]
      exact mem_tupleParts hp
  | object hk hstrict =>
      rw [hk]
      rcases List.mem_append.mp hp with hd | hc
      · obtain ⟨e, he, rfl⟩ := List.mem_map.mp hd
        exact List.mem_append_left _ (List.mem_map_of_mem he)
      · exact List.mem_append_right _ (by simp [mem_catchallParts hc])
  | record hk =>
      rw [hk]
      exact mem_entryParts hp

/-- The parts of a plain value are plain. -/
theorem plain (h : node.Taken v parts) (hnode : node.WellBuilt) (hv : v.Plain) {p : Part}
    (hp : p ∈ parts) : p.value.Plain := by
  cases h with
  | array hk =>
      obtain ⟨i, -, hi, -⟩ := exists_getElem?_of_mem_tupleParts hp
      exact hv.of_mem (List.mem_of_getElem? hi)
  | tuple hk harity =>
      obtain ⟨i, -, hi, -⟩ := exists_getElem?_of_mem_tupleParts hp
      exact hv.of_mem (List.mem_of_getElem? hi)
  | object hk hstrict =>
      obtain ⟨k, s, -, hcase⟩ := (mem_objectParts_iff (hnode.distinct _ _ hk) hv.nodup).mp hp
      rcases hcase with ⟨w, hw, rfl⟩ | ⟨-, -, rfl⟩
      · exact hv.of_get? hw
      · exact .scalar rfl rfl
  | record hk =>
      obtain ⟨e, he, rfl | rfl⟩ := mem_entryParts_iff.mp hp
      · exact .scalar rfl rfl
      · exact hv.of_get? (Entries.get?_of_mem hv.nodup he)

theorem assemble_record_eq {key value : Schema} {input : Entries Value}
    (hk : node.kind = .record key value) (hinput : input.keys.Nodup)
    (hf : ∀ p ∈ entryParts key value input, p.value.Rearranged (f p)) :
    node.assemble (.object input) (entryParts key value input)
        ((entryParts key value input).map f) =
      .object (input.mapWithKey fun k v => f ⟨.field k, value, v⟩) := by
  have hkeys : ∀ e ∈ input.toList, recordKey (f ⟨.field e.1, key, .string e.1⟩) = e.1 := by
    intro e he
    have hkey := hf _ (mem_entryParts_iff.mpr ⟨e, he, .inl rfl⟩)
    rw [hkey.eq_of_string]
    rfl
  have hentries : (input.toList.map fun e =>
        (recordKey (f ⟨.field e.1, key, .string e.1⟩), f ⟨.field e.1, value, e.2⟩)) =
      (input.mapWithKey fun k v => f ⟨.field k, value, v⟩).toList := by
    refine List.map_congr_left fun e he => ?_
    rw [hkeys e he]
  rw [assemble_record hk, hentries, Entries.ofList_eq]
  have hnodup := Entries.keys_mapWithKey (fun k v => f ⟨.field k, value, v⟩) input
  rw [Entries.keys] at hnodup
  rw [hnodup]
  exact hinput

theorem record_rearranged {key value : Schema} {input : Entries Value}
    (hinput : input.keys.Nodup) (hf : ∀ p ∈ entryParts key value input, p.value.Rearranged (f p)) :
    (Value.object input).Rearranged
      (.object (input.mapWithKey fun k v => f ⟨.field k, value, v⟩)) := by
  have hkeys : input.keys.Perm (input.mapWithKey fun k v => f ⟨.field k, value, v⟩).keys := by
    rw [Entries.keys_mapWithKey]
  refine .object hinput hkeys fun k a b ha hb => ?_
  rw [Entries.get?_mapWithKey, ha] at hb
  obtain rfl := Option.some.inj hb
  exact hf _ (mem_entryParts_iff.mpr ⟨(k, a), Entries.mem_of_get? ha, .inr rfl⟩)

section Outputs

variable (hnode : node.Structural) (hv : v.Plain) (h : node.Taken v parts)
  (hf : ∀ p ∈ parts, p.value.Rearranged (f p))

include hnode hv h hf

/-- Outputs that are rearranged parts are put together to a rearranged value. -/
theorem rearranged : v.Rearranged (node.assemble v parts (parts.map f)) := by
  cases h with
  | array hk =>
      rw [assemble_array hk]
      exact tupleParts_rearranged (fitsArity_rest _ _) hf
  | tuple hk harity =>
      rw [assemble_tuple hk]
      exact tupleParts_rearranged harity hf
  | @object shape unknown input hk hstrict =>
      have hshape := hnode.distinct _ _ hk
      rw [assemble_arranged hk hnode.structural hshape hv hstrict hf]
      refine object_rearranged hshape hv.nodup fun k v hv => ?_
      unfold fieldOutput
      split
      next s hs => exact hf _ (mem_objectParts hs hv)
      next => exact .refl v
  | record hk =>
      rw [assemble_record_eq hk hv.nodup hf]
      exact record_rearranged hv.nodup hf

/-- Every part of what was put together is the output of a part with the same schema. -/
theorem exists_part {again : List Part}
    (hagain : node.Taken (node.assemble v parts (parts.map f)) again) {q : Part} (hq : q ∈ again) :
    ∃ p ∈ parts, q.schema = p.schema ∧ q.value = f p := by
  cases h with
  | array hk =>
      rw [assemble_array hk] at hagain
      obtain rfl := hagain.of_array hk
      exact exists_tuplePart hq
  | tuple hk harity =>
      rw [assemble_tuple hk] at hagain
      obtain ⟨rfl, -⟩ := hagain.of_tuple hk
      exact exists_tuplePart hq
  | @object shape unknown input hk hstrict =>
      have hshape := hnode.distinct _ _ hk
      rw [assemble_arranged hk hnode.structural hshape hv hstrict hf] at hagain
      obtain ⟨rfl, -⟩ := hagain.of_object hk
      exact exists_objectPart hshape hv.nodup hf rfl hq
  | record hk =>
      rw [assemble_record_eq hk hv.nodup hf] at hagain
      obtain rfl := hagain.of_record hk
      exact exists_recordPart hf hq

/-- What was put together is given back by its parts. -/
theorem assemble_again {again : List Part}
    (hagain : node.Taken (node.assemble v parts (parts.map f)) again) :
    node.assemble (node.assemble v parts (parts.map f)) again (again.map Part.value) =
      node.assemble v parts (parts.map f) := by
  have hplain := (h.rearranged hnode hv hf).plain hv
  cases h with
  | @array e items hk =>
      rw [assemble_array hk] at hagain ⊢
      obtain rfl := hagain.of_array hk
      rw [assemble_array hk, map_value_tupleParts (fitsArity_rest e _)]
  | tuple hk harity =>
      rw [assemble_tuple hk] at hagain ⊢
      obtain ⟨rfl, harity'⟩ := hagain.of_tuple hk
      rw [assemble_tuple hk, map_value_tupleParts harity']
  | @object shape unknown input hk hstrict =>
      have hshape := hnode.distinct _ _ hk
      rw [assemble_arranged hk hnode.structural hshape hv hstrict hf] at hagain hplain ⊢
      obtain ⟨rfl, hstrict'⟩ := hagain.of_object hk
      rw [assemble_arranged hk hnode.structural hshape hplain hstrict' fun p _ => .refl p.value,
        mapWithKey_fieldOutput_value, Entries.arranged_arranged hshape]
      rw [Entries.keys_mapWithKey]
      exact hv.nodup
  | record hk =>
      rw [assemble_record_eq hk hv.nodup hf] at hagain hplain ⊢
      obtain rfl := hagain.of_record hk
      rw [assemble_record_eq hk hplain.nodup fun p _ => .refl p.value, Entries.mapWithKey_id]

end Outputs

end Taken

/-! ## Conformance of containers -/

variable {node : Schema} {v : Value}

/-- Nodes whose kind takes a value apart. -/
def HasParts (node : Schema) : Prop :=
  match node.kind with
  | .array _ => True
  | .tuple .. => True
  | .object .. => True
  | .record .. => True
  | _ => False

theorem matches_tuple_iff {items : List Schema} {rest : Option Schema} {values : List Value}
    (harity : FitsArity items rest values.length) :
    (Kind.tuple items rest).Matches Conforms (.array values) ↔
      ∀ p ∈ tupleParts rest 0 items values, p.schema.Conforms p.value := by
  constructor
  · rintro ⟨_, ⟨rfl⟩, -, hall⟩ p hp
    obtain ⟨i, -, hi, hs⟩ := exists_getElem?_of_mem_tupleParts hp
    exact hall i p.value hi p.schema hs
  · refine fun hall => ⟨values, rfl, harity, fun i x hx t ht => ?_⟩
    have hp : (tupleParts rest 0 items values)[i]? = some ⟨.index (0 + i), t, x⟩ := by
      rw [getElem?_tupleParts, hx, ht]
      rfl
    exact hall _ (List.mem_of_getElem? hp)

/-- An array is a tuple that has a schema for the rest only. -/
theorem matches_array_iff {e : Schema} {items : List Value} :
    (Kind.array e).Matches Conforms (.array items) ↔
      (Kind.tuple [] (some e)).Matches Conforms (.array items) := by
  constructor
  · rintro ⟨_, ⟨rfl⟩, hall⟩
    refine ⟨items, rfl, Nat.zero_le _, fun i x hx t ht => ?_⟩
    obtain rfl : e = t := Option.some.inj ht
    exact hall x (List.mem_of_getElem? hx)
  · rintro ⟨_, ⟨rfl⟩, -, hall⟩
    refine ⟨items, rfl, fun x hx => ?_⟩
    obtain ⟨i, hi⟩ := List.getElem?_of_mem hx
    exact hall i x hi e rfl

theorem matches_object_iff {shape : Entries Schema} {unknown : UnknownKeys Schema}
    {input : Entries Value} (hshape : shape.keys.Nodup) (hinput : input.keys.Nodup)
    (hstrict : unknown = .strict → ∀ k, shape.get? k = none → input.get? k = none) :
    (Kind.object shape unknown).Matches Conforms (.object input) ↔
      ∀ p ∈ declaredParts shape input ++ catchallParts shape unknown input,
        p.schema.Conforms p.value := by
  constructor
  · rintro ⟨_, ⟨rfl⟩, hfields, hothers⟩ p hp
    obtain ⟨k, s, hs, ⟨x, hx, rfl⟩ | ⟨hk, hnone, rfl⟩⟩ := (mem_objectParts_iff hshape hinput).mp hp
    · unfold fieldSchema? at hs
      cases hk : shape.get? k with
      | some t =>
          rw [hk] at hs
          obtain rfl := Option.some.inj hs
          have hfield := hfields k t hk
          rwa [hx] at hfield
      | none =>
          rw [hk, Option.none_or] at hs
          have hother := hothers k x hk hx
          cases unknown with
          | catchall t =>
              obtain rfl := Option.some.inj hs
              exact hother
          | _ => cases hs
    · have hfield := hfields k s hk
      rwa [hnone] at hfield
  · refine fun hall => ⟨input, rfl, fun k t ht => ?_, fun k x hk hx => ?_⟩
    · have hs : fieldSchema? shape unknown k = some t := by
        rw [fieldSchema?, ht, Option.some_or]
      cases hx : input.get? k with
      | some x => exact hall _ (mem_objectParts hs hx)
      | none =>
          have hp := (mem_objectParts_iff hshape hinput).mpr ⟨k, t, hs, .inr ⟨ht, hx, rfl⟩⟩
          exact hall _ hp
    · cases unknown with
      | strict => cases (hstrict rfl k hk).symm.trans hx
      | catchall t =>
          have hs : fieldSchema? shape (.catchall t) k = some t := by
            rw [fieldSchema?, hk]
            rfl
          exact hall _ (mem_objectParts hs hx)
      | _ => exact trivial

theorem matches_record_iff {key value : Schema} {input : Entries Value}
    (hinput : input.keys.Nodup) :
    (Kind.record key value).Matches Conforms (.object input) ↔
      ∀ p ∈ entryParts key value input, p.schema.Conforms p.value := by
  constructor
  · rintro ⟨_, ⟨rfl⟩, hentries⟩ p hp
    obtain ⟨e, he, rfl | rfl⟩ := mem_entryParts_iff.mp hp
    · exact (hentries e.1 e.2 (Entries.get?_of_mem hinput he)).1
    · exact (hentries e.1 e.2 (Entries.get?_of_mem hinput he)).2
  · refine fun hall => ⟨input, rfl, fun k x hx => ?_⟩
    have hmem := Entries.mem_of_get? hx
    exact ⟨hall _ (mem_entryParts_iff.mpr ⟨(k, x), hmem, .inl rfl⟩),
      hall _ (mem_entryParts_iff.mpr ⟨(k, x), hmem, .inr rfl⟩)⟩

/-- What a container is taken apart to conforms when the container does. -/
theorem Taken.matches_iff {parts : List Part} (hnode : node.WellBuilt) (hv : v.Plain)
    (h : node.Taken v parts) :
    node.kind.Matches Conforms v ↔ ∀ p ∈ parts, p.schema.Conforms p.value := by
  cases h with
  | @array e items hk =>
      rw [hk, matches_array_iff, matches_tuple_iff (Taken.fitsArity_rest e _)]
  | tuple hk harity => rw [hk, matches_tuple_iff harity]
  | object hk hstrict =>
      rw [hk, matches_object_iff (hnode.distinct _ _ hk) hv.nodup hstrict]
  | record hk => rw [hk, matches_record_iff hv.nodup]

theorem exists_taken (hparts : node.HasParts) (h : node.kind.Matches Conforms v) :
    ∃ parts, node.Taken v parts := by
  unfold HasParts at hparts
  cases hk : node.kind with
  | array e =>
      rw [hk] at h
      obtain ⟨items, rfl, -⟩ := h
      exact ⟨_, .array hk⟩
  | tuple items rest =>
      rw [hk] at h
      obtain ⟨values, rfl, harity, -⟩ := h
      exact ⟨_, .tuple hk harity⟩
  | object shape unknown =>
      rw [hk] at h
      obtain ⟨input, rfl, -, hothers⟩ := h
      refine ⟨_, .object hk ?_⟩
      rintro rfl k hnone
      cases hx : input.get? k with
      | none => rfl
      | some x => exact (hothers k x hnone hx).elim
  | record key value =>
      rw [hk] at h
      obtain ⟨input, rfl, -⟩ := h
      exact ⟨_, .record hk⟩
  | _ =>
      rw [hk] at hparts
      exact hparts.elim

end Schema

end ValueSchema
