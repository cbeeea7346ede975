import ValueSchema.Proofs.Plan

/-!
# Parts and what is put together from them

A container is taken apart into parts and its output is put together from theirs.  Here the
outputs of parts are given by a function on parts.  For each kind of container there is a
statement about which parts there are and where their outputs stand in the output.

`Schema.placeSchema?` is the schema of a place of a tuple, and `Schema.fieldSchema?` the one
of a key of an object.
-/

namespace ValueSchema

variable {f : Part → Value}

/-! ## Tuples -/

/-- The schema of a place of a tuple. -/
def Schema.placeSchema? {α : Type} (items : List α) (rest : Option α) (i : Nat) : Option α :=
  items[i]?.or rest

/-- The parts of a tuple stand at the places that have a value and a schema. -/
theorem getElem?_tupleParts (rest : Option Schema) :
    ∀ (j : Nat) (slots : List Schema) (values : List Value) (i : Nat),
      (tupleParts rest j slots values)[i]? =
        values[i]?.bind fun v => (Schema.placeSchema? slots rest i).map fun s => ⟨.index (j + i), s, v⟩
  | j, [], [], i => rfl
  | j, _ :: _, [], i => rfl
  | j, s :: slots, v :: vs, i => by
      rw [tupleParts]
      cases i with
      | zero => rfl
      | succ i =>
          have ih := getElem?_tupleParts rest (j + 1) slots vs i
          rw [List.getElem?_cons_succ, ih, Nat.succ_add_eq_add_succ]
          rfl
  | j, [], v :: vs, i => by
      cases rest with
      | none => cases i <;> simp [tupleParts, Schema.placeSchema?]
      | some s =>
          rw [tupleParts]
          cases i with
          | zero => rfl
          | succ i =>
              have ih := getElem?_tupleParts (some s) (j + 1) [] vs i
              rw [List.getElem?_cons_succ, ih, Nat.succ_add_eq_add_succ]
              rfl

/-- The right number of items for a tuple. -/
def FitsArity {α : Type} (items : List α) (rest : Option α) (n : Nat) : Prop :=
  if rest.isSome then items.length ≤ n else n = items.length

theorem Schema.arityFailure?_eq_none_iff {items : List Schema} {rest : Option Schema} {n : Nat} :
    arityFailure? items.length n rest.isSome = none ↔ FitsArity items rest n := by
  unfold arityFailure? FitsArity
  cases rest.isSome <;> simp

theorem FitsArity.placeSchema?_isSome {items : List Schema} {rest : Option Schema} {n i : Nat}
    (h : FitsArity items rest n) (hi : i < n) : (Schema.placeSchema? items rest i).isSome := by
  unfold FitsArity at h
  unfold Schema.placeSchema?
  cases rest with
  | some r => cases items[i]? <;> rfl
  | none =>
      have hlt : i < items.length := by simpa using h ▸ hi
      rw [List.getElem?_eq_getElem hlt]
      rfl

/-- A tuple of the right length has a part for every item. -/
theorem length_tupleParts {rest : Option Schema} {slots : List Schema} {values : List Value}
    (h : FitsArity slots rest values.length) (j : Nat) :
    (tupleParts rest j slots values).length = values.length := by
  refine Nat.le_antisymm ?_ ?_
  · refine Nat.le_of_not_lt fun hlt => ?_
    have hsome := List.getElem?_eq_getElem hlt
    rw [getElem?_tupleParts, List.getElem?_eq_none (Nat.le_refl _)] at hsome
    cases hsome
  · refine Nat.le_of_not_lt fun hlt => ?_
    obtain ⟨s, hs⟩ := Option.isSome_iff_exists.mp (h.placeSchema?_isSome hlt)
    have hnone := List.getElem?_eq_none (Nat.le_refl (tupleParts rest j slots values).length)
    rw [getElem?_tupleParts, List.getElem?_eq_getElem hlt, hs] at hnone
    cases hnone

/-! ## Objects -/

/-- The schema of undeclared keys, if they have one. -/
def UnknownKeys.schema? {α : Type} : UnknownKeys α → Option α
  | .catchall s => some s
  | _ => none

/-- The schema of a key of an object. -/
def Schema.fieldSchema? (shape : Entries Schema) (unknown : UnknownKeys Schema) (key : String) :
    Option Schema :=
  (shape.get? key).or unknown.schema?

section Objects

variable {arena : Option Arena} {shape : Entries Schema} {unknown : UnknownKeys Schema}
  {input : Entries Value} {key : String} {v : Value}

theorem mem_undeclaredEntries :
    (key, v) ∈ undeclaredEntries shape input ↔ (key, v) ∈ input.toList ∧ shape.get? key = none := by
  rw [undeclaredEntries, List.mem_filter]
  simp [Entries.hasKey]

/-- The undeclared entries of an object that are kept as they are. -/
def Schema.keptUndeclared (shape : Entries Schema) (unknown : UnknownKeys Schema)
    (input : Entries Value) : List (String × Value) :=
  match unknown with
  | .passthrough => undeclaredEntries shape input
  | _ => []

/-- Every part of an object stands under a key and has the schema of that key. -/
theorem fieldSchema?_of_mem (hshape : shape.keys.Nodup) {p : Part}
    (h : p ∈ fieldParts arena shape input ++ catchallParts shape unknown input) :
    ∃ k, p.segment = .field k ∧ Schema.fieldSchema? shape unknown k = some p.schema := by
  cases List.mem_append.mp h with
  | inl hf =>
      obtain ⟨⟨k, s⟩, hs, hp⟩ := List.mem_filterMap.mp hf
      obtain ⟨w, -, rfl⟩ := Option.map_eq_some_iff.mp hp
      refine ⟨k, rfl, ?_⟩
      rw [Schema.fieldSchema?, Entries.get?_of_mem hshape hs, Option.some_or]
  | inr hc =>
      cases unknown with
      | catchall s =>
          obtain ⟨⟨k, w⟩, he, rfl⟩ := List.mem_map.mp hc
          refine ⟨k, rfl, ?_⟩
          rw [Schema.fieldSchema?, (mem_undeclaredEntries.mp he).2]
          rfl
      | _ => cases hc

/-- Without an absent key, every declared key has a part: the value of the input, or the
missing one, which its schema accepts. -/
theorem fieldValue?_of_present {s : Schema} (hs : (key, s) ∈ shape.toList)
    (h : absentKeys arena shape input = []) :
    Schema.fieldValue? arena input key s = some ((input.get? key).getD .undefined) := by
  unfold Schema.fieldValue?
  cases hk : input.get? key with
  | some v => rfl
  | none =>
      have haccepts : s.acceptsUndefinedIn arena = true := by
        cases ha : s.acceptsUndefinedIn arena with
        | true => rfl
        | false =>
            have hmem : (key, s) ∈ shape.toList.filter fun e =>
                !input.hasKey e.1 && !e.2.acceptsUndefinedIn arena := by
              refine List.mem_filter.mpr ⟨hs, ?_⟩
              simp [Entries.hasKey, hk, ha]
            exact absurd (List.map_eq_nil_iff.mp h) (List.ne_nil_of_mem hmem)
      rw [if_pos haccepts]
      rfl

theorem fieldParts_eq (h : absentKeys arena shape input = []) :
    fieldParts arena shape input =
      shape.toList.map fun e => ⟨.field e.1, e.2, (input.get? e.1).getD .undefined⟩ := by
  rw [fieldParts, ← List.filterMap_eq_map]
  refine List.filterMap_congr ?_
  rintro ⟨k, s⟩ he
  exact congrArg (Option.map _) (fieldValue?_of_present he h)

theorem undeclaredEntries_eq_nil_iff :
    undeclaredEntries shape input = [] ↔ ∀ k, shape.get? k = none → input.get? k = none := by
  rw [List.eq_nil_iff_forall_not_mem]
  constructor
  · intro h k hk
    cases hv : input.get? k with
    | none => rfl
    | some v => exact absurd (mem_undeclaredEntries.mpr ⟨Entries.mem_of_get? hv, hk⟩) (h (k, v))
  · rintro h ⟨k, v⟩ hmem
    obtain ⟨hv, hk⟩ := mem_undeclaredEntries.mp hmem
    have hnone := (Entries.get?_eq_none_iff input k).mp (h k hk)
    exact hnone (List.mem_map.mpr ⟨(k, v), hv, rfl⟩)

/-- An object that raises no issue itself lacks no key, and has none that it must not have. -/
theorem keyCauses_eq_nil_iff :
    keyCauses arena shape unknown input = [] ↔
      absentKeys arena shape input = [] ∧
        (unknown = .strict → ∀ k, shape.get? k = none → input.get? k = none) := by
  have habsent : (if (absentKeys arena shape input).isEmpty then []
      else [Cause.missingKeys (absentKeys arena shape input)] : List (Cause Issue)) = [] ↔
        absentKeys arena shape input = [] := by
    cases absentKeys arena shape input <;> simp
  unfold keyCauses
  rw [List.append_eq_nil_iff, habsent, ← undeclaredEntries_eq_nil_iff]
  refine and_congr_right fun _ => ?_
  cases unknown with
  | strict => cases undeclaredEntries shape input <;> simp
  | _ => simp

theorem keptEntries_map (f : Part → Value) (parts : List Part) :
    keptEntries parts (parts.map f) =
      parts.filterMap fun p => if (f p).isUndefined then none else some (p.segment.text, f p) := by
  induction parts with
  | nil => rfl
  | cons p parts ih =>
      rw [keptEntries] at ih ⊢
      rw [List.map_cons, List.zip_cons_cons, List.filterMap_cons, List.filterMap_cons, ih]

theorem mem_keptEntries {parts : List Part} :
    (key, v) ∈ keptEntries parts (parts.map f) ↔
      ∃ p ∈ parts, p.segment.text = key ∧ f p = v ∧ v.isUndefined = false := by
  rw [keptEntries_map, List.mem_filterMap]
  refine exists_congr fun p => and_congr_right fun _ => ?_
  cases hu : (f p).isUndefined with
  | true =>
      refine iff_of_false (by simp) ?_
      rintro ⟨-, rfl, hv⟩
      cases hu.symm.trans hv
  | false =>
      rw [if_neg (by simp), Option.some.injEq, Prod.mk.injEq]
      refine and_congr_right fun _ => ⟨?_, And.left⟩
      rintro rfl
      exact ⟨rfl, hu⟩

end Objects

/-! ## Records -/

theorem mem_entryParts_iff {key value : Schema} {input : Entries Value} {p : Part} :
    p ∈ entryParts key value input ↔
      ∃ e ∈ input.toList, p = ⟨.field e.1, key, .string e.1⟩ ∨ p = ⟨.field e.1, value, e.2⟩ := by
  simp [entryParts]

/-- A record has the output of each value under the key that the output of its key stands
for. -/
theorem recordEntries_map (f : Part → Value) (key value : Schema) (entries : List (String × Value)) :
    ∀ m : Entries Value,
      Schema.recordEntries m (((entryParts key value ⟨entries⟩).map f).map some) =
        m.insertAll (entries.map fun e =>
          (Schema.recordKey (f ⟨.field e.1, key, .string e.1⟩), f ⟨.field e.1, value, e.2⟩)) := by
  induction entries with
  | nil => exact fun m => rfl
  | cons e entries ih =>
      intro m
      exact ih _

/-! ## The parts of a node -/

namespace Schema

variable {node : Schema} {arena : Option Arena} {v : Value} {parts : List Part}

theorem parts?_array_iff {e : Schema} (hk : node.kind = .array e) :
    node.parts? v arena = some parts ↔
      ∃ items, node.containerInput v = .array items ∧ itemParts e items = parts := by
  unfold parts?
  rw [hk]
  cases node.containerInput v <;> simp

theorem parts?_set_iff {e : Schema} (hk : node.kind = .set e) :
    node.parts? v arena = some parts ↔
      ∃ items, node.containerInput v = .set items ∧ itemParts e items = parts := by
  unfold parts?
  rw [hk]
  cases node.containerInput v <;> simp

theorem parts?_tuple_iff {items : List Schema} {rest : Option Schema}
    (hk : node.kind = .tuple items rest) :
    node.parts? v arena = some parts ↔
      ∃ values, node.containerInput v = .array values ∧
        FitsArity (slots items) rest values.length ∧
        tupleParts rest 0 (slots items) values = parts := by
  unfold parts? wrongArity?
  rw [hk]
  cases node.containerInput v with
  | array values =>
      simp [← arityFailure?_eq_none_iff]
  | _ => simp

theorem parts?_object_iff {shape : Entries Schema} {unknown : UnknownKeys Schema}
    (hk : node.kind = .object shape unknown) :
    node.parts? v arena = some parts ↔
      ∃ input, v = .object input ∧
        fieldParts arena shape input ++ catchallParts shape unknown input = parts := by
  unfold parts? containerInput
  rw [hk]
  cases v <;> simp

theorem parts?_record_iff {key value : Schema} (hk : node.kind = .record key value) :
    node.parts? v arena = some parts ↔
      ∃ input, v = .object input ∧ entryParts key value input = parts := by
  unfold parts? containerInput
  rw [hk]
  cases v <;> simp

theorem ownIssues_object_iff {shape : Entries Schema} {unknown : UnknownKeys Schema}
    (hk : node.kind = .object shape unknown) {call : Call} {path : Path} {input : Entries Value} :
    node.ownIssues call path (.object input) = [] ↔
      keyCauses call.options.arena shape unknown input = [] := by
  unfold ownIssues containerInput
  rw [hk]
  dsimp only
  split
  · rw [List.take_eq_nil_iff]
    simp
  · simp

/-! ## The output of a node -/

variable {ws : List Value}

theorem assemble_array {e : Schema} (hk : node.kind = .array e) :
    node.assemble v parts ws = .array ws := by
  unfold assemble
  rw [hk]

theorem assemble_set {e : Schema} (hk : node.kind = .set e) :
    node.assemble v parts ws = .set (Value.distinct ws) := by
  unfold assemble
  rw [hk]

theorem assemble_tuple {items : List Schema} {rest : Option Schema}
    (hk : node.kind = .tuple items rest) : node.assemble v parts ws = .array ws := by
  unfold assemble
  rw [hk]

theorem assemble_object {shape : Entries Schema} {unknown : UnknownKeys Schema}
    (hk : node.kind = .object shape unknown) (input : Entries Value) :
    node.assemble (.object input) parts ws =
      .object ((Entries.ofList (keptEntries parts ws)).insertAll
        (keptUndeclared shape unknown input)) := by
  unfold assemble
  rw [hk]
  cases unknown <;> rfl

theorem assemble_record {key value : Schema} (hk : node.kind = .record key value)
    (input : Entries Value) (f : Part → Value) :
    node.assemble v (entryParts key value input) ((entryParts key value input).map f) =
      .object (Entries.ofList (input.toList.map fun e =>
        (recordKey (f ⟨.field e.1, key, .string e.1⟩), f ⟨.field e.1, value, e.2⟩))) := by
  unfold assemble
  rw [hk]
  exact congrArg Value.object (recordEntries_map f key value input.toList .empty)

theorem castOutput_of_noCast (h : node.settings.casts = false) (w : Value) :
    node.castOutput w = w := by
  unfold castOutput Settings.arrayOutput Settings.setOutput
  rw [h]
  split <;> rfl

end Schema

end ValueSchema
