import ValueSchema.Proofs.Alike
import ValueSchema.Proofs.OrderLaws
import ValueSchema.Value.Digest

/-!
# Digests and order of equal values

Equal values have the same digest, for any hash (`Value.Alike.digest_eq`), and compare alike with
every value (`Value.Alike.order_eq`).  Both hold of alike values, so neither depends on numbers
being numbers.  The order of keys is not seen by a digest because the digests of the entries are
added up (`Value.entrySum_eq_of_perm`).
-/

namespace ValueSchema

namespace Value

variable (hash : WordHash)

/-! ## Entries in another order -/

/-- The digest of an entry. -/
def entryDigest (e : String × Value) : UInt64 := hash (stringWords e.1 ++ words hash e.2)

theorem entrySum_eq_foldr (l : List (String × Value)) :
    entrySum hash l = (l.map (entryDigest hash)).foldr (· + ·) 0 := by
  induction l with
  | nil => rfl
  | cons e l ih => rw [entrySum, ih, List.map_cons, List.foldr_cons, entryDigest]

/-- The digests of the entries, listed by the keys. -/
theorem map_entryDigest_eq {m : Entries Value} (hm : m.keys.Nodup) :
    m.toList.map (entryDigest hash) =
      m.keys.map fun k => entryDigest hash (k, (m.get? k).getD .undefined) := by
  rw [Entries.keys, List.map_map]
  refine List.map_congr_left fun e he => ?_
  rw [Function.comp_apply, Entries.get?_of_mem hm he]
  rfl

/-- Entries with the same words under the same keys have one sum. -/
theorem entrySum_eq_of_perm {as bs : Entries Value} (ha : as.keys.Nodup)
    (hp : as.keys.Perm bs.keys)
    (h : ∀ k a b, as.get? k = some a → bs.get? k = some b → words hash a = words hash b) :
    entrySum hash as.toList = entrySum hash bs.toList := by
  have hkeys : ∀ k ∈ as.keys, entryDigest hash (k, (as.get? k).getD .undefined) =
      entryDigest hash (k, (bs.get? k).getD .undefined) := by
    intro k hk
    obtain ⟨a, hka⟩ := Option.isSome_iff_exists.mp ((Entries.hasKey_iff as k).mpr hk)
    obtain ⟨b, hkb⟩ := Rearranged.exists_get? hp hka
    rw [entryDigest, entryDigest, hka, hkb]
    exact congrArg (fun w => hash (stringWords k ++ w)) (h k a b hka hkb)
  calc entrySum hash as.toList
      = (as.keys.map fun k => entryDigest hash (k, (as.get? k).getD .undefined)).foldr (· + ·) 0 := by
        rw [entrySum_eq_foldr, map_entryDigest_eq hash ha]
    _ = (as.keys.map fun k => entryDigest hash (k, (bs.get? k).getD .undefined)).foldr (· + ·) 0 := by
        rw [List.map_congr_left hkeys]
    _ = (bs.keys.map fun k => entryDigest hash (k, (bs.get? k).getD .undefined)).foldr (· + ·) 0 :=
        (hp.map _).foldr_eq 0
    _ = entrySum hash bs.toList := by
        rw [entrySum_eq_foldr, map_entryDigest_eq hash (hp.nodup_iff.mp ha)]

theorem itemWords_eq {as bs : List Value}
    (h : List.Forall₂ (fun a b => words hash a = words hash b) as bs) :
    itemWords hash as = itemWords hash bs := by
  induction h with
  | nil => rfl
  | cons hab _ ih => rw [itemWords, itemWords, hab, ih]

/-! ## Alike values -/

namespace Alike

variable {a b : Value}

/-- Both zeros are written by one word. -/
theorem numberWord_of_isZero {x : Double} (hx : x.isZero = true) : numberWord x = 0 := by
  rw [numberWord, if_pos hx]
  rfl

theorem words_eq (h : Alike a b) : words hash a = words hash b := by
  induction h with
  | refl v => rfl
  | zero hx hy => rw [words, words, numberWord_of_isZero hx, numberWord_of_isZero hy]
  | array hl _ ih =>
      rw [words, words, hl, itemWords_eq hash (Rearranged.forall₂_items hl ih)]
  | set hl _ ih =>
      rw [words, words, hl, itemWords_eq hash (Rearranged.forall₂_items hl ih)]
  | @object as bs hn hp _ ih =>
      have hsize : as.toList.length = bs.toList.length := Rearranged.size_eq hp
      have hsum := entrySum_eq_of_perm hash hn hp ih
      cases as
      cases bs
      rw [words, words, hsize, hsum]

theorem digest_eq (h : Alike a b) : a.digest hash = b.digest hash := by
  rw [digest, digest, h.words_eq]

theorem key_of_isZero {x : Double} (hx : x.isZero = true) : x.key = 0 := by
  have hmagnitude : x.magnitude = 0 := by simpa [Double.isZero] using hx
  simp [Double.key, hmagnitude]

theorem order_eq (h : Alike a b) : order a = order b := by
  induction h with
  | refl v => rfl
  | @zero x y hx hy =>
      have hkey : x.key = y.key := (key_of_isZero hx).trans (key_of_isZero hy).symm
      funext c
      cases c with
      | number z => exact congrArg (compare · z.key) hkey
      | bigint n => exact congrArg (compare · (Double.ofInt n.val).key) hkey
      | _ => rfl
  | array hl _ ih =>
      funext c
      cases c with
      | array cs => exact Rearranged.orderItems_left (Rearranged.forall₂_items hl ih) cs
      | _ => rfl
  | set hl _ ih =>
      funext c
      cases c with
      | set cs => exact Rearranged.orderItems_left (Rearranged.forall₂_items hl ih) cs
      | _ => rfl
  | object _ hp _ _ =>
      funext c
      cases c with
      | object cs => exact congrArg (compare · cs.size) (Rearranged.size_eq hp)
      | _ => rfl

end Alike

/-! ## Equal values -/

/-- Equal values have one digest, and no comparison tells them apart. -/
theorem digest_order_of_equal {v w : Value} (hv : v.DistinctKeys) (h : equal v w = true) :
    (∀ hash : WordHash, v.digest hash = w.digest hash) ∧ v.order w = .eq ∧
      ∀ x, v.order x = w.order x := by
  obtain ⟨halike, -⟩ := alike_of_equal hv h
  refine ⟨fun hash => halike.digest_eq hash, ?_, fun x => congrFun halike.order_eq x⟩
  rw [halike.order_eq]
  exact order_self w

/-- A place and a time, the place first. -/
def placeAndTime : Value :=
  .record [("place", .array [.number (.zero true), .bigint (.clamp 7)]), ("time", .date ⟨0, 5⟩)]

/-- The same place and time, the time first and with the other zero. -/
def timeAndPlace : Value :=
  .record [("time", .date ⟨0, 5⟩), ("place", .array [.number (.zero false), .bigint (.clamp 7)])]

theorem placeAndTime_distinctKeys : placeAndTime.DistinctKeys := by
  refine .object (by decide) fun k w hw => ?_
  have hmem := Entries.mem_of_get? hw
  simp only [List.mem_cons, Prod.mk.injEq, List.not_mem_nil, or_false] at hmem
  obtain ⟨-, rfl⟩ | ⟨-, rfl⟩ := hmem
  · refine .array (List.forall_mem_cons.mpr ⟨.flat rfl rfl, ?_⟩)
    exact List.forall_mem_singleton.mpr (.flat rfl rfl)
  · exact .flat rfl rfl

theorem placeAndTime_digest_order :
    equal placeAndTime timeAndPlace = true ∧
      placeAndTime.digest mixingHash = timeAndPlace.digest mixingHash ∧
      placeAndTime.order timeAndPlace = .eq ∧
      ∀ x, placeAndTime.order x = timeAndPlace.order x := by
  have hequal : equal placeAndTime timeAndPlace = true := by decide +kernel
  have hlaws := digest_order_of_equal placeAndTime_distinctKeys hequal
  exact ⟨hequal, hlaws.1 mixingHash, hlaws.2⟩

end Value

end ValueSchema
