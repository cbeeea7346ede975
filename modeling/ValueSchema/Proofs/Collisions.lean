import Mathlib.Data.List.Dedup
import Mathlib.Data.List.Induction
import Mathlib.Data.List.Perm.Subperm
import ValueSchema.Proofs.SharedCache

/-!
# Colliding digests

A cache finds its entries by the id of the schema and a digest of the input, and inputs may
collide: any function may stand in the place of the digest.  `Cache.Keeps` says what the entries
are after some calls.  Each one was found out by a call that the cache did not answer, of a
schema with the id and with the very input that the entry holds, and no two entries have one id
and one digest.  An entry that is replaced takes its input along, so colliding calls cost
memories and never truth (`collisions_are_harmless`).
-/

namespace ValueSchema

/-- The options after some calls, which pass the cache on. -/
def Options.after (options : Options) : List Ask → Options
  | [] => options
  | a :: asks => { options with cache := (a.reply options).cache }.after asks

/-- What the cache answers to a call. -/
def Ask.hit? (options : Options) (a : Ask) : Option Validation :=
  options.cache.bind (·.find? a.schema.id a.value)

/-- What the cache finds the entry of a call by. -/
def Ask.key (digest : Value → UInt64) (a : Ask) : Nat × UInt64 := (a.schema.id, digest a.value)

/-- What the cache finds an entry by. -/
def CacheEntry.key (e : CacheEntry) : Nat × UInt64 := (e.schema, e.digest)

variable {options : Options} {digest : Value → UInt64} {c : Cache} {a b : Ask} {past : List Ask}
  {r : Validation}

theorem Options.after_append (options : Options) (asks later : List Ask) :
    options.after (asks ++ later) = (options.after asks).after later := by
  induction asks generalizing options with
  | nil => rfl
  | cons a asks ih => exact ih _

/-! ## One call -/

namespace Ask

theorem reply_of_hit (h : a.hit? options = some r) :
    a.reply options = { result := .ok r, cache := options.cache } := by
  rw [hit?] at h
  rw [reply, Schema.safeParse, h]

theorem reply_of_miss (h : a.hit? options = none) :
    (a.reply options).result = a.alone options ∧
      (a.reply options).cache =
        match a.alone options with
        | .ok r => options.cache.map (·.insert a.schema.id a.value r)
        | .error _ => options.cache := by
  rw [hit?] at h
  rw [reply, Schema.safeParse, h, ← parseFresh_alone]
  exact ⟨rfl, rfl⟩

end Ask

/-! ## Entries -/

namespace CacheEntry

theorem isFor_iff {e : CacheEntry} {id : Nat} {d : UInt64} :
    e.isFor id d = true ↔ e.key = (id, d) := by
  simp [isFor, key]

end CacheEntry

/-- An entry was found out by one of these calls, which the cache did not answer. -/
def CacheEntry.FoundBy (options : Options) (past : List Ask) (e : CacheEntry) : Prop :=
  ∃ before b between, past = before ++ b :: between ∧ b.hit? (options.after before) = none ∧
    b.schema.id = e.schema ∧ b.value = e.input ∧ b.alone options = .ok e.validation

theorem CacheEntry.FoundBy.concat {e : CacheEntry} (h : e.FoundBy options past) (a : Ask) :
    e.FoundBy options (past ++ [a]) := by
  obtain ⟨before, b, between, rfl, hrest⟩ := h
  exact ⟨before, b, between ++ [a], by rw [List.append_assoc, List.cons_append], hrest⟩

namespace Cache

/-- What a cache keeps of some calls. -/
structure Keeps (digest : Value → UInt64) (options : Options) (past : List Ask) (c : Cache) :
    Prop where
  /-- The digest stays. -/
  digest_eq : c.digest = digest
  /-- Every entry has the digest of its input. -/
  digests : ∀ e ∈ c.entries, e.digest = digest e.input
  /-- Every entry was found out by a call. -/
  found : ∀ e ∈ c.entries, e.FoundBy options past
  /-- No two entries have one id and one digest. -/
  distinct : (c.entries.map CacheEntry.key).Nodup

theorem keeps_empty (options : Options) : Keeps digest options [] { digest := digest } where
  digest_eq := rfl
  digests _ he := nomatch he
  found _ he := nomatch he
  distinct := .nil

theorem Keeps.concat (h : c.Keeps digest options past) (a : Ask) :
    c.Keeps digest options (past ++ [a]) :=
  { h with found := fun e he => (h.found e he).concat a }

/-- An insertion replaces the entry that has the id and the digest of the new one. -/
theorem Keeps.insert (h : c.Keeps digest options past) (hmiss : a.hit? (options.after past) = none)
    (hr : a.alone options = .ok r) :
    (c.insert a.schema.id a.value r).Keeps digest options (past ++ [a]) where
  digest_eq := h.digest_eq
  digests e he := by
    rcases mem_insert he with rfl | he
    · rw [h.digest_eq]
    · exact h.digests e he
  found e he := by
    rcases mem_insert he with rfl | he
    · exact ⟨past, a, [], rfl, hmiss, rfl, rfl, hr⟩
    · exact (h.found e he).concat a
  distinct := by
    show (List.map _ (_ :: c.entries.filter _)).Nodup
    rw [List.map_cons, List.nodup_cons]
    constructor
    · intro hmem
      obtain ⟨e, he, hkey⟩ := List.mem_map.mp hmem
      have hfor := CacheEntry.isFor_iff.mpr hkey
      have hnot := (List.mem_filter.mp he).2
      simp [hfor] at hnot
    · exact h.distinct.sublist (List.filter_sublist.map _)

/-- An entry answers for values that equal its input. -/
theorem Keeps.hit (h : c.Keeps digest options past) (hr : c.find? a.schema.id a.value = some r) :
    ∃ before b between, past = before ++ b :: between ∧ b.hit? (options.after before) = none ∧
      b.schema.id = a.schema.id ∧ (b.value == a.value) = true ∧ b.alone options = .ok r := by
  obtain ⟨e, he, hid, hv, rfl⟩ := mem_of_find? hr
  obtain ⟨before, b, between, hpast, hmiss, hbid, hbv, hb⟩ := h.found e he
  exact ⟨before, b, between, hpast, hmiss, hbid.trans hid, hbv ▸ hv, hb⟩

theorem Keeps.size_le (h : c.Keeps digest options past) :
    c.size ≤ (past.map (Ask.key digest)).dedup.length := by
  have hsubset : c.entries.map CacheEntry.key ⊆ (past.map (Ask.key digest)).dedup := by
    intro k hk
    obtain ⟨e, he, rfl⟩ := List.mem_map.mp hk
    obtain ⟨before, b, between, rfl, -, hid, hv, -⟩ := h.found e he
    refine List.mem_dedup.mpr (List.mem_map.mpr ⟨b, by simp, ?_⟩)
    rw [Ask.key, CacheEntry.key, hid, hv, h.digests e he]
  have hle := (List.subperm_of_subset h.distinct hsubset).length_le
  rwa [List.length_map] at hle

end Cache

/-! ## Histories of calls -/

/-- After some calls only the cache differs, and it keeps what they found out. -/
theorem Options.after_keeps (hc : options.cache = some { digest := digest }) (past : List Ask) :
    ∃ c, options.after past = { options with cache := some c } ∧ c.Keeps digest options past := by
  induction past using List.reverseRecOn with
  | nil =>
      refine ⟨_, ?_, Cache.keeps_empty options⟩
      rw [after, ← hc]
  | append_singleton past a ih =>
      obtain ⟨c, hafter, hkeeps⟩ := ih
      rw [after_append]
      show ∃ c', { options.after past with cache := (a.reply (options.after past)).cache } = _ ∧ _
      cases hhit : a.hit? (options.after past) with
      | some r =>
          rw [Ask.reply_of_hit hhit, hafter]
          exact ⟨c, rfl, hkeeps.concat a⟩
      | none =>
          have halone : a.alone (options.after past) = a.alone options := by rw [hafter]; rfl
          rw [(Ask.reply_of_miss hhit).2, halone, hafter]
          cases hr : a.alone options with
          | error e => exact ⟨c, rfl, hkeeps.concat a⟩
          | ok r => exact ⟨_, rfl, hkeeps.insert hhit hr⟩

/-- No collision of digests gives a wrong result, whatever the digest is.  After any calls:

* when the cache answers a call, the answer is what an earlier call gave, on its own, that the
  cache did not answer, of a schema with the same id and on an equal value;
* a call that ends with a misuse leaves the cache as it was;
* the cache has no more entries than the calls had schema ids and digests, as pairs. -/
theorem collisions_are_harmless (digest : Value → UInt64) (options : Options)
    (hc : options.cache = some { digest := digest }) (past : List Ask) (a : Ask) :
    let now := options.after past
    (∀ r, a.hit? now = some r → (a.reply now).result = .ok r ∧
      ∃ before b between, past = before ++ b :: between ∧ b.hit? (options.after before) = none ∧
        b.schema.id = a.schema.id ∧ (b.value == a.value) = true ∧ b.alone options = .ok r) ∧
    (∀ e, (a.reply now).result = .error e → (a.reply now).cache = now.cache) ∧
    ∃ c, now.cache = some c ∧ c.size ≤ (past.map (Ask.key digest)).dedup.length := by
  intro now
  obtain ⟨c, hafter, hkeeps⟩ := options.after_keeps hc past
  have hcache : now.cache = some c := congrArg Options.cache hafter
  refine ⟨fun r hr => ⟨?_, ?_⟩, fun e he => ?_, c, hcache, hkeeps.size_le⟩
  · rw [Ask.reply_of_hit hr]
  · rw [Ask.hit?, hcache] at hr
    exact hkeeps.hit hr
  · cases hhit : a.hit? now with
    | some r =>
        rw [Ask.reply_of_hit hhit] at he
        cases he
    | none =>
        obtain ⟨hresult, hreply⟩ := Ask.reply_of_miss hhit
        rw [hreply, ← hresult, he]

/-- Two texts that collide with every digest that is constant. -/
def collidingAsks : List Ask :=
  [⟨⟨0, .leaf .string, .empty, {}⟩, .immediate, .string "left"⟩,
    ⟨⟨0, .leaf .string, .empty, {}⟩, .immediate, .string "right"⟩]

/-- The second text takes the entry of the first one, and the cache answers for it alone. -/
theorem collidingAsks_harmless :
    Ask.hit? (Options.after { cache := some { digest := fun _ => 0 } } collidingAsks)
        ⟨⟨0, .leaf .string, .empty, {}⟩, .immediate, .string "left"⟩ = none ∧
      (∃ before b between, collidingAsks = before ++ b :: between ∧
        (b.value == .string "right") = true ∧
        b.alone { cache := some { digest := fun _ => 0 } } = .ok (.success (.string "right"))) ∧
      ∃ c, (Options.after { cache := some { digest := fun _ => 0 } } collidingAsks).cache =
        some c ∧ c.size ≤ 1 := by
  obtain ⟨hhit, -, hsize⟩ := collisions_are_harmless (fun _ => 0)
    { cache := some { digest := fun _ => 0 } } rfl collidingAsks
    ⟨⟨0, .leaf .string, .empty, {}⟩, .immediate, .string "right"⟩
  obtain ⟨-, before, b, between, hpast, -, -, hv, hb⟩ := hhit (.success (.string "right")) rfl
  exact ⟨rfl, ⟨before, b, between, hpast, hv, hb⟩, hsize⟩

end ValueSchema
