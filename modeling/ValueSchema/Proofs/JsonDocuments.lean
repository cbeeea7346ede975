import ValueSchema.Proofs.Alike
import ValueSchema.Proofs.WholeDoubles
import ValueSchema.Value.Json

/-!
# Values that documents hold

A value is portable when it is made of what documents are made of, at any depth: null, truth values,
finite numbers, texts, arrays and objects (`Value.IsPortable`).  It comes back from its document with
every key in its place, and nothing about it changes except for the sign of zero
(`Value.ofJson_toJson`).

A document has no place for a missing value under a key.  A value has the document that it would have
without such entries (`Value.toJson_withoutMissing`), so these are what does not come back
(`Value.json_roundtrip`).
-/

namespace ValueSchema

/-- The double, without a sign if it is zero. -/
def Double.withoutZeroSign (x : Double) : Double := if x.isZero then .zero false else x

namespace Value

/-! ## Portable values -/

/-- The value itself is of a kind that documents have.  A number is finite, and no key of an object
is repeated. -/
def OwnPortable : Value → Prop
  | .null | .bool _ | .string _ | .array _ => True
  | .number x => x.isFinite = true
  | .object entries => entries.keys.Nodup
  | _ => False

/-- The value is made of what documents are made of, at any depth. -/
def IsPortable (v : Value) : Prop := v.Throughout OwnPortable

mutual

/-- The value with no sign at a zero, in arrays and under the keys of objects at any depth. -/
def withoutZeroSigns : Value → Value
  | .number x => .number x.withoutZeroSign
  | .array items => .array (itemsWithoutZeroSigns items)
  | .object ⟨entries⟩ => .object ⟨entriesWithoutZeroSigns entries⟩
  | v => v

/-- The items with no sign at a zero. -/
def itemsWithoutZeroSigns : List Value → List Value
  | [] => []
  | v :: items => withoutZeroSigns v :: itemsWithoutZeroSigns items

/-- The entries with no sign at a zero. -/
def entriesWithoutZeroSigns : List (String × Value) → List (String × Value)
  | [] => []
  | (k, v) :: entries => (k, withoutZeroSigns v) :: entriesWithoutZeroSigns entries

end

mutual

/-- The value without the keys of objects that have a missing value, at any depth. -/
def withoutMissing : Value → Value
  | .array items => .array (itemsWithoutMissing items)
  | .set items => .set (itemsWithoutMissing items)
  | .object ⟨entries⟩ => .object ⟨entriesWithoutMissing entries⟩
  | v => v

/-- The items without keys that have a missing value. -/
def itemsWithoutMissing : List Value → List Value
  | [] => []
  | v :: items => withoutMissing v :: itemsWithoutMissing items

/-- The entries that have a value. -/
def entriesWithoutMissing : List (String × Value) → List (String × Value)
  | [] => []
  | (k, v) :: entries =>
      if v.isUndefined then entriesWithoutMissing entries
      else (k, withoutMissing v) :: entriesWithoutMissing entries

end

section Portable

variable {v w : Value} {items : List Value} {entries : Entries Value}

namespace IsPortable

theorem array (h : ∀ w ∈ items, w.IsPortable) : (Value.array items).IsPortable :=
  Throughout.array trivial h

theorem object (hn : entries.keys.Nodup) (h : ∀ e ∈ entries.toList, e.2.IsPortable) :
    (Value.object entries).IsPortable :=
  Throughout.object hn fun _ _ hw => h _ (Entries.mem_of_get? hw)

theorem distinctKeys (h : v.IsPortable) : v.DistinctKeys := by
  refine h.imp fun w hw => ?_
  cases w with
  | object entries => exact hw
  | _ => trivial

theorem isNumeric (h : v.IsPortable) : v.IsNumeric := by
  refine h.imp fun w hw => ?_
  cases w with
  | number x =>
      have hfinite : x.isFinite = true := hw
      simp [kind, Double.isNaN_of_isFinite hfinite]
  | _ => simp [kind]

end IsPortable

/-! ## Signs of zeros -/

theorem itemsWithoutZeroSigns_eq (items : List Value) :
    itemsWithoutZeroSigns items = items.map withoutZeroSigns := by
  induction items with
  | nil => rfl
  | cons v items ih => rw [itemsWithoutZeroSigns, ih, List.map_cons]

theorem entriesWithoutZeroSigns_eq (entries : List (String × Value)) :
    entriesWithoutZeroSigns entries = entries.map fun e => (e.1, e.2.withoutZeroSigns) := by
  induction entries with
  | nil => rfl
  | cons e entries ih => rw [entriesWithoutZeroSigns, ih, List.map_cons]

theorem withoutZeroSigns_array (items : List Value) :
    (Value.array items).withoutZeroSigns = .array (items.map withoutZeroSigns) := by
  rw [withoutZeroSigns, itemsWithoutZeroSigns_eq]

theorem withoutZeroSigns_object (entries : Entries Value) :
    (Value.object entries).withoutZeroSigns = .object (entries.map withoutZeroSigns) := by
  rw [withoutZeroSigns, entriesWithoutZeroSigns_eq]
  rfl

theorem keys_withoutZeroSigns (entries : Entries Value) :
    (entries.map withoutZeroSigns).keys = entries.keys :=
  Entries.keys_mapWithKey (fun _ => withoutZeroSigns) entries

/-- Signs of zeros do not matter for being alike. -/
theorem alike_withoutZeroSigns (hv : v.DistinctKeys) : Alike v v.withoutZeroSigns := by
  induction hv with
  | @intro v hown _ ih =>
      cases v with
      | number x =>
          rw [withoutZeroSigns, Double.withoutZeroSign]
          split
          next hzero => exact .zero hzero rfl
          next => exact .refl _
      | array items =>
          rw [withoutZeroSigns_array]
          refine .array_of_forall₂ (List.forall₂_map_right_iff.mpr (List.forall₂_same.mpr ?_))
          exact fun w hw => ih w (.inl hw)
      | object entries =>
          rw [withoutZeroSigns_object]
          refine .object hown (by rw [keys_withoutZeroSigns]) fun k a b ha hb => ?_
          rw [Entries.get?_map, ha] at hb
          obtain rfl := Option.some.inj hb
          exact ih a (.inr ⟨k, ha⟩)
      | _ => exact .refl _

theorem IsPortable.withoutZeroSigns (hv : v.IsPortable) : v.withoutZeroSigns.IsPortable := by
  induction hv with
  | @intro v hown _ ih =>
      cases v with
      | number x =>
          refine Throughout.flat ?_ rfl rfl
          show (x.withoutZeroSign).isFinite = true
          rw [Double.withoutZeroSign]
          split
          · rfl
          · exact hown
      | array items =>
          rw [withoutZeroSigns_array]
          refine .array fun w hw => ?_
          obtain ⟨u, hu, rfl⟩ := List.mem_map.mp hw
          exact ih u (.inl hu)
      | object entries =>
          rw [withoutZeroSigns_object]
          refine Throughout.object ?_ fun k w hw => ?_
          · show (entries.map _).keys.Nodup
            rwa [keys_withoutZeroSigns]
          · rw [Entries.get?_map] at hw
            obtain ⟨u, hu, rfl⟩ := Option.map_eq_some_iff.mp hw
            exact ih u (.inr ⟨k, hu⟩)
      | null => exact Throughout.flat trivial rfl rfl
      | bool b => exact Throughout.flat trivial rfl rfl
      | string s => exact Throughout.flat trivial rfl rfl
      | _ => cases hown

end Portable

/-! ## Documents -/

theorem itemsToJson_eq (items : List Value) : itemsToJson items = items.map toJson := by
  induction items with
  | nil => rfl
  | cons v items ih => rw [itemsToJson, ih, List.map_cons]

/-- Without missing values every entry is in the document. -/
theorem entriesToJson_eq {entries : List (String × Value)}
    (h : ∀ e ∈ entries, e.2.isUndefined = false) :
    entriesToJson entries = entries.map fun e => (e.1, e.2.toJson) := by
  induction entries with
  | nil => rfl
  | cons e entries ih =>
      obtain ⟨he, hentries⟩ := List.forall_mem_cons.mp h
      rw [entriesToJson, if_neg (Bool.eq_false_iff.mp he), ih hentries, List.map_cons]

theorem ofJsonItems_eq (items : List Json) : ofJsonItems items = items.map ofJson := by
  induction items with
  | nil => rfl
  | cons j items ih => rw [ofJsonItems, ih, List.map_cons]

theorem ofJsonEntries_eq (entries : List (String × Json)) :
    ofJsonEntries entries = entries.map fun e => (e.1, ofJson e.2) := by
  induction entries with
  | nil => rfl
  | cons e entries ih => rw [ofJsonEntries, ih, List.map_cons]

/-- A whole number comes back as the double that it was, a zero without its sign. -/
theorem ofInt_eq_withoutZeroSign {x : Double} {n : Int} (h : x.toInt? = some n) :
    Double.ofInt n = x.withoutZeroSign := by
  rw [Double.withoutZeroSign]
  split
  next hzero =>
      rw [Double.toInt?_of_isZero hzero] at h
      rw [← Option.some.inj h]
      rfl
  next hnonzero => exact (Double.equal_ofInt h).resolve_right fun hzeros => hnonzero hzeros.2

/-- A number that a document does not hold as a whole number below `2 ^ 53` is not zero. -/
theorem withoutZeroSign_of_large {x : Double}
    (h : ∀ n, x.toInt? = some n → exactBound ≤ n.natAbs) : x.withoutZeroSign = x := by
  rw [Double.withoutZeroSign]
  split
  next hzero => exact absurd (h 0 (Double.toInt?_of_isZero hzero)) (by decide)
  next => rfl

theorem ofJson_numberToJson {x : Double} (hx : x.isFinite = true) :
    ofJson (numberToJson x) = .number x.withoutZeroSign := by
  rw [numberToJson]
  cases h : x.toInt? with
  | some n =>
      by_cases hn : n.natAbs < exactBound
      · simp [hn, ofJson, ofInt_eq_withoutZeroSign h]
      · have hlarge : x.withoutZeroSign = x := by
          refine withoutZeroSign_of_large fun m hm => ?_
          obtain rfl := Option.some.inj (h.symm.trans hm)
          exact Nat.not_lt.mp hn
        simp [hn, ofJson, hlarge]
  | none =>
      have hlarge : x.withoutZeroSign = x := by
        refine withoutZeroSign_of_large fun m hm => ?_
        cases h.symm.trans hm
      simp [hx, ofJson, hlarge]

/-- A portable value comes back from its document, its zeros without signs. -/
theorem ofJson_toJson {v : Value} (hv : v.IsPortable) : ofJson v.toJson = v.withoutZeroSigns := by
  induction hv with
  | @intro v hown hinside ih =>
      cases v with
      | number x => exact ofJson_numberToJson hown
      | array items =>
          rw [toJson, ofJson, itemsToJson_eq, ofJsonItems_eq, withoutZeroSigns_array, List.map_map]
          exact congrArg Value.array (List.map_congr_left fun w hw => ih w (.inl hw))
      | object entries =>
          have hheld {e : String × Value} (he : e ∈ entries.toList) : (object entries).Holds e.2 :=
            .inr ⟨e.1, Entries.get?_of_mem hown he⟩
          -- The missing value is not portable, so no entry is dropped on the way out.
          have hpresent : ∀ e ∈ entries.toList, e.2.isUndefined = false := by
            intro e he
            have howned := (hinside e.2 (hheld he)).here
            cases hvalue : e.2 with
            | undefined => exact absurd howned (by simp [hvalue, OwnPortable])
            | _ => rfl
          rw [toJson, ofJson, entriesToJson_eq hpresent, ofJsonEntries_eq, withoutZeroSigns_object,
            List.map_map]
          refine congrArg (fun es => Value.object ⟨es⟩) (List.map_congr_left fun e he => ?_)
          exact congrArg (e.1, ·) (ih e.2 (hheld he))
      | null => rfl
      | bool b => rfl
      | string s => rfl
      | _ => cases hown

/-! ## Missing values -/

theorem isUndefined_withoutMissing (v : Value) : v.withoutMissing.isUndefined = v.isUndefined := by
  cases v <;> rfl

mutual

/-- A missing value under a key is not in the document. -/
theorem toJson_withoutMissing : ∀ v : Value, v.withoutMissing.toJson = v.toJson
  | .array items => by
      rw [withoutMissing, toJson, toJson, itemsToJson_withoutMissing items]
  | .set items => by
      rw [withoutMissing, toJson, toJson, itemsToJson_withoutMissing items]
  | .object ⟨entries⟩ => by
      rw [withoutMissing, toJson, toJson, entriesToJson_withoutMissing entries]
  | .undefined => rfl
  | .null => rfl
  | .bool _ => rfl
  | .number _ => rfl
  | .bigint _ => rfl
  | .string _ => rfl
  | .date _ => rfl
  | .buffer _ => rfl

theorem itemsToJson_withoutMissing :
    ∀ items : List Value, itemsToJson (itemsWithoutMissing items) = itemsToJson items
  | [] => rfl
  | v :: items => by
      rw [itemsWithoutMissing, itemsToJson, itemsToJson, toJson_withoutMissing v,
        itemsToJson_withoutMissing items]

theorem entriesToJson_withoutMissing :
    ∀ entries : List (String × Value),
      entriesToJson (entriesWithoutMissing entries) = entriesToJson entries
  | [] => rfl
  | (k, v) :: entries => by
      rw [entriesWithoutMissing, entriesToJson]
      split
      next => exact entriesToJson_withoutMissing entries
      next hpresent =>
          rw [entriesToJson, isUndefined_withoutMissing, if_neg hpresent, toJson_withoutMissing v,
            entriesToJson_withoutMissing entries]

end

/-- A portable value comes back from its document.  It is equal to what it was, each key stands where
it stood, and only a negative zero is no longer the same number.  A value that has missing values
under further keys, at any depth, comes back without these keys and is the same otherwise. -/
theorem json_roundtrip (v : Value) (hv : v.IsPortable) :
    (ofJson v.toJson == v) = true ∧ ofJson v.toJson = v.withoutZeroSigns ∧
      ∀ w : Value, w.withoutMissing = v →
        (ofJson w.toJson == v) = true ∧ ofJson w.toJson = v.withoutZeroSigns := by
  have hsame := ofJson_toJson hv
  have hequal : (ofJson v.toJson == v) = true := by
    have hback := hv.withoutZeroSigns
    rw [hsame]
    exact (alike_withoutZeroSigns hv.distinctKeys).symm.equal hback.distinctKeys hback.isNumeric
  refine ⟨hequal, hsame, ?_⟩
  rintro w rfl
  rw [toJson_withoutMissing] at hequal hsame
  exact ⟨hequal, hsame⟩

/-- A negative zero, a fraction and a large number under two keys. -/
def portableSample : Value :=
  .record [("b", .array [.number (.zero true), .number (.nearest false 1 2), .ofNat (2 ^ 60)]),
    ("a", .record [("c", .null)])]

/-- The same with missing values. -/
def paddedSample : Value :=
  .record [("b", .array [.number (.zero true), .number (.nearest false 1 2), .ofNat (2 ^ 60)]),
    ("d", .undefined), ("a", .record [("e", .undefined), ("c", .null)])]

theorem paddedSample_roundtrip :
    portableSample.IsPortable ∧ paddedSample.withoutMissing = portableSample ∧
      (ofJson paddedSample.toJson == portableSample) = true := by
  have hnumber {x : Double} (hx : x.isFinite = true) : (Value.number x).IsPortable :=
    .flat hx rfl rfl
  have hportable : portableSample.IsPortable := by
    refine .object (by decide) (List.forall_mem_cons.mpr ⟨.array ?_, ?_⟩)
    · simp only [List.forall_mem_cons]
      exact ⟨hnumber (by decide), hnumber (by decide +kernel), hnumber (by decide +kernel), nofun⟩
    · simp only [List.forall_mem_cons]
      refine ⟨.object (by decide) (List.forall_mem_cons.mpr ⟨?_, nofun⟩), nofun⟩
      exact .flat trivial rfl rfl
  exact ⟨hportable, rfl, ((json_roundtrip portableSample hportable).2.2 paddedSample rfl).1⟩

end Value

end ValueSchema
