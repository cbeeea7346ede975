/-!
# Entries in the order of insertion

`Entries α` holds values under text keys, oldest key first.  A key written again
keeps its place and takes the new value.  The operations keep the keys distinct
(`nodup_insert`); the type does not ask for it.

`get?_insert` says what a look-up sees after an insertion, and `keys_insert`
where the key stands.  Inserting entries with new and distinct keys appends them
(`insertAll_append`).
-/

namespace ValueSchema

/-- Values under keys, in the order in which the keys were first inserted. -/
structure Entries (α : Type) where
  /-- The pairs of key and value, oldest first. -/
  toList : List (String × α)
deriving Repr

namespace Entries

variable {α β : Type}

/-- No entries. -/
def empty : Entries α := ⟨[]⟩

instance : Inhabited (Entries α) := ⟨empty⟩

/-- The number of entries. -/
def size (m : Entries α) : Nat := m.toList.length

/-- The keys, oldest first. -/
def keys (m : Entries α) : List String := m.toList.map Prod.fst

/-- The values, oldest key first. -/
def values (m : Entries α) : List α := m.toList.map Prod.snd

/-- The value under a key. -/
def get? (m : Entries α) (key : String) : Option α := m.toList.lookup key

/-- Whether a key is present. -/
def hasKey (m : Entries α) (key : String) : Bool := (m.get? key).isSome

/-- Writes a value under a key, in the key's place or at the end. -/
def insert (m : Entries α) (key : String) (v : α) : Entries α :=
  if m.hasKey key then ⟨m.toList.map fun e => if e.1 = key then (key, v) else e⟩
  else ⟨m.toList ++ [(key, v)]⟩

/-- The entries whose key and value pass a test, in their order. -/
def filter (m : Entries α) (test : String → α → Bool) : Entries α :=
  ⟨m.toList.filter fun e => test e.1 e.2⟩

/-- Inserts entries one after another. -/
def insertAll (m : Entries α) (entries : List (String × α)) : Entries α :=
  entries.foldl (fun m e => m.insert e.1 e.2) m

/-- The entries of a list, a later value of a key replacing an earlier one. -/
def ofList (entries : List (String × α)) : Entries α := empty.insertAll entries

/-- The same keys with each value mapped. -/
def map (f : α → β) (m : Entries α) : Entries β := ⟨m.toList.map fun e => (e.1, f e.2)⟩

/-- The same keys with each value mapped by a function of its key. -/
def mapWithKey (f : String → α → β) (m : Entries α) : Entries β :=
  ⟨m.toList.map fun e => (e.1, f e.1 e.2)⟩

private theorem lookup_append (l r : List (String × α)) (key : String) :
    (l ++ r).lookup key = (l.lookup key).or (r.lookup key) := by
  induction l with
  | nil => simp
  | cons e l ih =>
      rw [List.cons_append, List.lookup_cons, List.lookup_cons, ih]
      cases h : key == e.1 <;> simp

private theorem lookup_overwrite (l : List (String × α)) (key other : String) (v : α) :
    (l.map fun e => if e.1 = key then (key, v) else e).lookup other
      = if key = other then (l.lookup key).map fun _ => v else l.lookup other := by
  induction l with
  | nil => simp
  | cons e l ih =>
      rw [List.map_cons, List.lookup_cons, List.lookup_cons, List.lookup_cons, ih]
      by_cases he : e.1 = key
      · by_cases ho : key = other
        · simp [he, ho]
        · have : (other == key) = false := by simp [Ne.symm ho]
          simp [he, ho, this]
      · have hk : (key == e.1) = false := by simp [Ne.symm he]
        by_cases ho : key = other
        · subst ho
          simp [he, hk]
        · simp [he, ho]

theorem get?_insert (m : Entries α) (key other : String) (v : α) :
    (m.insert key v).get? other = if key = other then some v else m.get? other := by
  unfold insert
  split
  · rename_i h
    obtain ⟨w, hw⟩ := Option.isSome_iff_exists.mp h
    have hw' : m.toList.lookup key = some w := hw
    show List.lookup other (m.toList.map _) = _
    rw [lookup_overwrite, hw']
    rfl
  · rename_i h
    have hn : m.get? key = none := Option.not_isSome_iff_eq_none.mp h
    have hn' : m.toList.lookup key = none := hn
    show List.lookup other (m.toList ++ [(key, v)]) = _
    rw [lookup_append]
    by_cases ho : key = other
    · subst ho
      simp [hn']
    · have : (other == key) = false := by simp [Ne.symm ho]
      simp [ho, List.lookup_cons, this, get?]

theorem hasKey_iff (m : Entries α) (key : String) : m.hasKey key = true ↔ key ∈ m.keys := by
  unfold hasKey get? keys
  induction m.toList with
  | nil => simp
  | cons e l ih =>
      rw [List.lookup_cons]
      by_cases h : key = e.1
      · simp [h]
      · have : (key == e.1) = false := by simp [h]
        simp [this, h, ih]

theorem get?_eq_none_iff (m : Entries α) (key : String) : m.get? key = none ↔ key ∉ m.keys := by
  rw [← hasKey_iff, hasKey]
  simp

theorem keys_insert (m : Entries α) (key : String) (v : α) :
    (m.insert key v).keys = if key ∈ m.keys then m.keys else m.keys ++ [key] := by
  unfold insert
  by_cases h : key ∈ m.keys
  · rw [if_pos ((hasKey_iff m key).mpr h), if_pos h]
    unfold keys
    rw [List.map_map]
    refine List.map_congr_left fun e _ => ?_
    by_cases he : e.1 = key <;> simp [he]
  · rw [if_neg fun hk => h ((hasKey_iff m key).mp hk), if_neg h]
    simp [keys]

theorem nodup_insert {m : Entries α} (h : m.keys.Nodup) (key : String) (v : α) :
    (m.insert key v).keys.Nodup := by
  rw [keys_insert]
  split
  · exact h
  · rename_i hk
    refine List.nodup_append.mpr ⟨h, by simp, ?_⟩
    intro a ha b hb he
    rw [List.mem_singleton] at hb
    exact hk (hb ▸ he ▸ ha)

/-! ## Mapped entries -/

theorem keys_mapWithKey (f : String → α → β) (m : Entries α) : (m.mapWithKey f).keys = m.keys := by
  unfold keys mapWithKey
  rw [List.map_map]
  rfl

theorem get?_mapWithKey (f : String → α → β) (m : Entries α) (key : String) :
    (m.mapWithKey f).get? key = (m.get? key).map (f key) := by
  unfold get? mapWithKey
  induction m.toList with
  | nil => rfl
  | cons e l ih =>
      rw [List.map_cons, List.lookup_cons, List.lookup_cons, ih]
      by_cases h : key = e.1
      · simp [h]
      · have hb : (key == e.1) = false := beq_eq_false_iff_ne.mpr h
        rw [hb]

theorem get?_map (f : α → β) (m : Entries α) (key : String) :
    (m.map f).get? key = (m.get? key).map f :=
  get?_mapWithKey (fun _ => f) m key

theorem hasKey_map (f : α → β) (m : Entries α) (key : String) :
    (m.map f).hasKey key = m.hasKey key := by
  rw [hasKey, hasKey, get?_map, Option.isSome_map]

/-! ## Entries of a list -/

theorem mem_of_get? {m : Entries α} {key : String} {v : α} (h : m.get? key = some v) :
    (key, v) ∈ m.toList := by
  unfold get? at h
  induction hl : m.toList generalizing m with
  | nil =>
      rw [hl] at h
      exact nomatch h
  | cons e l ih =>
      rw [hl, List.lookup_cons] at h
      by_cases hk : key = e.1
      · have hb : (key == e.1) = true := beq_iff_eq.mpr hk
        rw [hb] at h
        rw [hk, ← Option.some.inj h]
        exact List.mem_cons_self ..
      · have hb : (key == e.1) = false := beq_eq_false_iff_ne.mpr hk
        rw [hb] at h
        exact List.mem_cons_of_mem _ (ih (m := ⟨l⟩) h rfl)

theorem get?_of_mem {m : Entries α} (hn : m.keys.Nodup) {key : String} {v : α}
    (h : (key, v) ∈ m.toList) : m.get? key = some v := by
  unfold get?
  unfold keys at hn
  induction hl : m.toList generalizing m with
  | nil =>
      rw [hl] at h
      exact nomatch h
  | cons e l ih =>
      rw [hl] at h hn
      rw [List.map_cons, List.nodup_cons] at hn
      rw [List.lookup_cons]
      cases List.mem_cons.mp h with
      | inl he => simp [← he]
      | inr hm =>
          have hne : key ≠ e.1 := by
            intro he
            exact hn.1 (he ▸ List.mem_map.mpr ⟨(key, v), hm, rfl⟩)
          have hb : (key == e.1) = false := beq_eq_false_iff_ne.mpr hne
          rw [hb]
          exact ih (m := ⟨l⟩) hn.2 hm rfl

theorem get?_eq_some_iff {m : Entries α} (hn : m.keys.Nodup) {key : String} {v : α} :
    m.get? key = some v ↔ (key, v) ∈ m.toList :=
  ⟨mem_of_get?, get?_of_mem hn⟩

theorem get?_insertAll_of_not_mem {l : List (String × α)} {key : String}
    (h : key ∉ l.map Prod.fst) (m : Entries α) : (m.insertAll l).get? key = m.get? key := by
  induction l generalizing m with
  | nil => rfl
  | cons e l ih =>
      rw [List.map_cons, List.mem_cons, not_or] at h
      have hrest := ih h.2 (m.insert e.1 e.2)
      rw [get?_insert, if_neg (Ne.symm h.1)] at hrest
      exact hrest

/-- A key that entries are inserted under has the value of one of them. -/
theorem get?_insertAll_of_mem {l : List (String × α)} {key : String} (h : key ∈ l.map Prod.fst)
    (m : Entries α) : ∃ v, (key, v) ∈ l ∧ (m.insertAll l).get? key = some v := by
  induction l generalizing m with
  | nil => exact nomatch h
  | cons e l ih =>
      by_cases hl : key ∈ l.map Prod.fst
      · obtain ⟨v, hv, hg⟩ := ih hl (m.insert e.1 e.2)
        exact ⟨v, List.mem_cons_of_mem _ hv, hg⟩
      · have hkey : key = e.1 := (List.mem_cons.mp h).resolve_right hl
        have hrest := get?_insertAll_of_not_mem hl (m.insert e.1 e.2)
        rw [get?_insert, if_pos hkey.symm] at hrest
        exact ⟨e.2, by simp [hkey], hrest⟩

theorem mem_of_get?_ofList {l : List (String × α)} {key : String} {v : α}
    (h : (ofList l).get? key = some v) : (key, v) ∈ l := by
  by_cases hl : key ∈ l.map Prod.fst
  · obtain ⟨w, hw, hg⟩ := get?_insertAll_of_mem hl empty
    obtain rfl := Option.some.inj (hg.symm.trans h)
    exact hw
  · have hnone := get?_insertAll_of_not_mem hl (empty : Entries α)
    exact nomatch hnone.symm.trans h

theorem insertAll_append {m : Entries α} {l : List (String × α)}
    (h : (m.keys ++ l.map Prod.fst).Nodup) : m.insertAll l = ⟨m.toList ++ l⟩ := by
  induction l generalizing m with
  | nil => simp [insertAll]
  | cons e l ih =>
      have hnew : m.hasKey e.1 = false := by
        cases hk : m.hasKey e.1 with
        | false => rfl
        | true =>
            have hmem := (hasKey_iff m e.1).mp hk
            have hne := (List.nodup_append.mp h).2.2 e.1 hmem e.1 (by simp)
            exact absurd rfl hne
      have hinsert : m.insert e.1 e.2 = ⟨m.toList ++ [e]⟩ := by
        rw [insert, hnew]
        rfl
      have hrest := ih (m := ⟨m.toList ++ [e]⟩) (by simpa [keys] using h)
      rw [insertAll, List.foldl_cons, hinsert]
      rw [insertAll] at hrest
      rw [hrest, List.append_assoc]
      rfl

/-- Entries with distinct keys stay as they are listed. -/
theorem ofList_eq {l : List (String × α)} (h : (l.map Prod.fst).Nodup) : ofList l = ⟨l⟩ := by
  have hempty : ((empty : Entries α).keys ++ l.map Prod.fst).Nodup := by simpa [keys, empty] using h
  exact insertAll_append hempty

/-- Entries stay in their order when those inserted later have other keys. -/
theorem ofList_insertAll {l r : List (String × α)} (h : ((l ++ r).map Prod.fst).Nodup) :
    (ofList l).insertAll r = ⟨l ++ r⟩ := by
  have hl : (l.map Prod.fst).Nodup := by
    rw [List.map_append] at h
    exact (List.nodup_append.mp h).1
  rw [ofList_eq hl, insertAll_append (by simpa [keys] using h)]

end Entries

end ValueSchema
