import ValueSchema.Proofs.Items
import ValueSchema.Value.Equality

/-!
# What holds throughout a value

`Value.Throughout` is a property of a value and of everything inside of it, at any depth.  An
induction on it is an induction on the value, with one case for what stands directly inside.

Two such properties matter for equality and for merging: no object has a key twice
(`Value.DistinctKeys`), and no number is none (`Value.IsNumeric`).
-/

namespace ValueSchema

namespace Value

/-- What stands directly inside a value: items of an array, members of a set, and what an object
has under its keys. -/
def Holds (v w : Value) : Prop := w ∈ v.items ∨ ∃ k, v.get? k = some w

/-- A property of a value and of everything inside of it. -/
inductive Throughout (P : Value → Prop) : Value → Prop where
  | intro {v : Value} : P v → (∀ w, v.Holds w → Throughout P w) → Throughout P v

namespace Throughout

variable {P : Value → Prop} {v w : Value} {items : List Value} {entries : Entries Value}

theorem here (h : v.Throughout P) : P v := by
  cases h with
  | intro hv _ => exact hv

theorem inside (h : v.Throughout P) (hw : v.Holds w) : w.Throughout P := by
  cases h with
  | intro _ hall => exact hall w hw

theorem imp {Q : Value → Prop} (h : v.Throughout P) (hPQ : ∀ w, P w → Q w) : v.Throughout Q := by
  induction h with
  | intro hv _ ih => exact .intro (hPQ _ hv) ih

theorem of_mem_array (h : (Value.array items).Throughout P) (hw : w ∈ items) : w.Throughout P :=
  h.inside (.inl hw)

theorem of_mem_set (h : (Value.set items).Throughout P) (hw : w ∈ items) : w.Throughout P :=
  h.inside (.inl hw)

theorem of_get? (h : (Value.object entries).Throughout P) {k : String}
    (hw : entries.get? k = some w) : w.Throughout P :=
  h.inside (.inr ⟨k, hw⟩)

theorem of_mem_items (h : v.Throughout P) (hw : w ∈ v.items) : w.Throughout P :=
  h.inside (.inl hw)

/-- A value with nothing inside. -/
theorem flat (hv : P v) (hi : v.asItems? = none) (he : v.asEntries? = none) : v.Throughout P := by
  refine .intro hv fun w hw => ?_
  rcases hw with hm | ⟨k, hk⟩
  · simp [items, hi] at hm
  · simp [get?, he] at hk

theorem array (hv : P (.array items)) (h : ∀ w ∈ items, w.Throughout P) :
    (Value.array items).Throughout P := by
  refine .intro hv fun w hw => ?_
  rcases hw with hm | ⟨k, hk⟩
  · exact h w hm
  · cases hk

theorem set (hv : P (.set items)) (h : ∀ w ∈ items, w.Throughout P) :
    (Value.set items).Throughout P := by
  refine .intro hv fun w hw => ?_
  rcases hw with hm | ⟨k, hk⟩
  · exact h w hm
  · cases hk

theorem object (hv : P (.object entries))
    (h : ∀ k w, entries.get? k = some w → w.Throughout P) : (Value.object entries).Throughout P := by
  refine .intro hv fun w hw => ?_
  rcases hw with hm | ⟨k, hk⟩
  · cases hm
  · exact h k w hk

end Throughout

/-! ## Distinct keys -/

/-- The keys of the value itself, if it is an object, are distinct. -/
def OwnKeysDistinct : Value → Prop
  | .object entries => entries.keys.Nodup
  | _ => True

/-- No object in the value, at any depth, has a key twice.  An object is a map from its keys, so
these are the values that stand for something. -/
def DistinctKeys (v : Value) : Prop := v.Throughout OwnKeysDistinct

namespace DistinctKeys

variable {v w : Value} {items : List Value} {entries : Entries Value}

theorem nodup (h : (Value.object entries).DistinctKeys) : entries.keys.Nodup := h.here

theorem of_mem_entries (h : (Value.object entries).DistinctKeys) {k : String}
    (hw : (k, w) ∈ entries.toList) : w.DistinctKeys :=
  h.of_get? (Entries.get?_of_mem h.nodup hw)

theorem flat (hi : v.asItems? = none) (he : v.asEntries? = none) : v.DistinctKeys := by
  refine Throughout.flat ?_ hi he
  cases v with
  | object entries => cases he
  | _ => trivial

theorem array (h : ∀ w ∈ items, w.DistinctKeys) : (Value.array items).DistinctKeys :=
  Throughout.array trivial h

theorem set (h : ∀ w ∈ items, w.DistinctKeys) : (Value.set items).DistinctKeys :=
  Throughout.set trivial h

theorem object (hn : entries.keys.Nodup) (h : ∀ k w, entries.get? k = some w → w.DistinctKeys) :
    (Value.object entries).DistinctKeys :=
  Throughout.object hn h

theorem distinct (h : ∀ w ∈ items, w.DistinctKeys) : (Value.set (distinct items)).DistinctKeys :=
  .set fun w hw => h w (mem_of_mem_keepFirst hw)

end DistinctKeys

/-! ## Numbers -/

/-- Every number in the value, at any depth, is one. -/
def IsNumeric (v : Value) : Prop := v.Throughout fun u => u.kind ≠ .nan

namespace IsNumeric

theorem isNaN_eq_false {x : Double} (h : (Value.number x).IsNumeric) : x.isNaN = false := by
  have hkind : (if x.isNaN then ValueKind.nan else .number) ≠ .nan := h.here
  cases hx : x.isNaN with
  | false => rfl
  | true => simp [hx] at hkind

theorem number {x : Double} (hx : x.isNaN = false) : (Value.number x).IsNumeric := by
  refine Throughout.flat ?_ rfl rfl
  simp [kind, hx]

end IsNumeric

end Value

end ValueSchema
