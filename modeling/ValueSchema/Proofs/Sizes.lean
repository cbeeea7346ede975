import ValueSchema.Proofs.Alike
import ValueSchema.Proofs.OrderLaws
import ValueSchema.Proofs.Shape

/-!
# Sizes of outputs

The size checks of a set or a record look at the container before its members are parsed.
Parsing may make members of a set equal and may lead keys of a record to one key, so the output may
be smaller, but it is empty only when the container is (`Value.length_distinct`,
`Entries.size_ofList`).

A size check passes for an interval of sizes (`Check.pass_between`), and an upper bound for
everything below (`Check.pass_below`).  From this follows what the checks that the container passed
say about the output (`Schema.output_size`).

A cache may answer a call with what was found out for an equal value (`Options.Recalls`).  Equal
values have the same size, also when they are converted to sets first
(`Schema.IsCollection.size_containerInput`).
-/

namespace ValueSchema

/-! ## Checks of sizes -/

namespace Check

variable {c : Check} {w bound : Value} {k m n : Nat}

/-- A size check looks at nothing but the size. -/
theorem evaluate_of_size? (hc : c.kind.isSize = true) (h : w.size? = some n) :
    c.evaluate w = c.evaluate (.ofNat n) := by
  have hmeasure : measure w = measure (.ofNat n) := by
    rw [measure, h]
    rfl
  cases c with
  | min => rw [evaluate, evaluate, hmeasure]
  | max => rw [evaluate, evaluate, hmeasure]
  | length => rw [evaluate, evaluate, hmeasure]
  | size => rw [evaluate, evaluate, hmeasure]
  | _ => cases hc

theorem ofBool_eq_pass_iff {ok : Bool} {received : Value} :
    Verdict.ofBool ok received = .pass ↔ ok = true := by
  cases ok <;> simp [Verdict.ofBool]

theorem bound_pass_iff {inclusive : Bool} {wanted found : Ordering} {received : Value} :
    Verdict.ofBool (meetsBound inclusive wanted found) received = .pass ↔
      found = wanted ∨ inclusive = true ∧ found = .eq := by
  rw [ofBool_eq_pass_iff, meetsBound, Bool.or_eq_true, Bool.and_eq_true, decide_eq_true_iff,
    decide_eq_true_iff]

theorem exact_pass_iff {found : Ordering} {received : Value} :
    Verdict.ofBool (found == .eq) received = .pass ↔ found = .eq := by
  rw [ofBool_eq_pass_iff, beq_iff_eq]

/-- Sizes compare with a bound in their order. -/
theorem order_ofNat_coherent (m n : Nat) (bound : Value) :
    Coherent ((Value.ofNat m).order (.ofNat n)) ((Value.ofNat n).order bound)
      ((Value.ofNat m).order bound) :=
  -- Two of the three values would have to be big integers.
  Value.order_coherent _ _ _ fun h => by cases h

theorem order_ofNat_ne_gt (h : m ≤ n) : (Value.ofNat m).order (.ofNat n) ≠ .gt := by
  have hkey : (Double.ofNat m).key ≤ (Double.ofNat n).key :=
    Double.key_ofInt_le (Int.ofNat_le.mpr h)
  intro hgt
  exact absurd (compare_gt_iff_gt.mp hgt) (not_lt.mpr hkey)

theorem order_lt_of_le (h : m ≤ n) (hn : (Value.ofNat n).order bound = .lt) :
    (Value.ofNat m).order bound = .lt := by
  have hcoherent := order_ofNat_coherent m n bound
  cases hmn : (Value.ofNat m).order (.ofNat n) with
  | lt => exact (hcoherent.of_same (hmn.trans hn.symm)).trans hmn
  | eq => exact (hcoherent.of_eq_left hmn).trans hn
  | gt => exact absurd hmn (order_ofNat_ne_gt h)

theorem order_gt_of_le (h : m ≤ n) (hm : (Value.ofNat m).order bound = .gt) :
    (Value.ofNat n).order bound = .gt := by
  have hcoherent := order_ofNat_coherent m n bound
  cases hn : (Value.ofNat n).order bound with
  | lt => cases hm.symm.trans (order_lt_of_le h hn)
  | eq => exact absurd ((hcoherent.of_eq_right hn).symm.trans hm) (order_ofNat_ne_gt h)
  | gt => rfl

/-- An upper bound holds of every size below one that it holds of. -/
theorem pass_below (hc : c.kind = .max) (h : m ≤ n) (hn : c.evaluate (.ofNat n) = .pass) :
    c.evaluate (.ofNat m) = .pass := by
  cases c with
  | max bound inclusive =>
      refine bound_pass_iff.mpr ?_
      rcases bound_pass_iff.mp hn with hlt | ⟨hinclusive, heq⟩
      · exact .inl (order_lt_of_le h hlt)
      · cases hm : (Value.ofNat m).order bound with
        | lt => exact .inl hm
        | eq => exact .inr ⟨hinclusive, hm⟩
        | gt => cases heq.symm.trans (order_gt_of_le h hm)
  | _ => cases hc

/-- A lower bound holds of every size above one that it holds of. -/
theorem pass_above (hc : c.kind = .min) (h : k ≤ m) (hk : c.evaluate (.ofNat k) = .pass) :
    c.evaluate (.ofNat m) = .pass := by
  cases c with
  | min bound inclusive =>
      refine bound_pass_iff.mpr ?_
      rcases bound_pass_iff.mp hk with hgt | ⟨hinclusive, heq⟩
      · exact .inl (order_gt_of_le h hgt)
      · cases hm : (Value.ofNat m).order bound with
        | gt => exact .inl hm
        | eq => exact .inr ⟨hinclusive, hm⟩
        | lt => cases heq.symm.trans (order_lt_of_le h hm)
  | _ => cases hc

theorem order_eq_between (hkm : k ≤ m) (hmn : m ≤ n) (hk : (Value.ofNat k).order bound = .eq)
    (hn : (Value.ofNat n).order bound = .eq) : (Value.ofNat m).order bound = .eq := by
  cases hm : (Value.ofNat m).order bound with
  | eq => rfl
  | lt => cases hk.symm.trans (order_lt_of_le hkm hm)
  | gt => cases hn.symm.trans (order_gt_of_le hmn hm)

/-- Size checks hold between two sizes that they hold of. -/
theorem pass_between (hc : c.kind.isSize = true) (hkm : k ≤ m) (hmn : m ≤ n)
    (hk : c.evaluate (.ofNat k) = .pass) (hn : c.evaluate (.ofNat n) = .pass) :
    c.evaluate (.ofNat m) = .pass := by
  cases c with
  | min => exact pass_above rfl hkm hk
  | max => exact pass_below rfl hmn hn
  | length l =>
      exact exact_pass_iff.mpr
        (order_eq_between hkm hmn (exact_pass_iff.mp hk) (exact_pass_iff.mp hn))
  | size l =>
      exact exact_pass_iff.mpr
        (order_eq_between hkm hmn (exact_pass_iff.mp hk) (exact_pass_iff.mp hn))
  | _ => cases hc

end Check

/-! ## Sizes of what is put together -/

/-- A collection that each item adds at most one member to has no more members than there are
items, and none only if there are no items. -/
theorem size_foldl {α β : Type} {size : β → Nat} {add : β → α → β}
    (hle : ∀ b a, size (add b a) ≤ size b + 1) (hge : ∀ b a, size b ≤ size (add b a))
    (hpos : ∀ b a, 0 < size (add b a)) (l : List α) :
    ∀ b, size (l.foldl add b) ≤ size b + l.length ∧ size b ≤ size (l.foldl add b) ∧
      (size (l.foldl add b) = 0 → l.length = 0) := by
  induction l with
  | nil => exact fun b => ⟨Nat.le_refl _, Nat.le_refl _, fun _ => rfl⟩
  | cons a l ih =>
      intro b
      obtain ⟨hupper, hlower, -⟩ := ih (add b a)
      have hle := hle b a
      have hge := hge b a
      have hpos := hpos b a
      rw [List.foldl_cons, List.length_cons]
      refine ⟨?_, ?_, ?_⟩ <;> omega

/-- Distinct items are no more than the items, and none are only left of none. -/
theorem Value.length_distinct (items : List Value) :
    (distinct items).length ≤ items.length ∧
      ((distinct items).length = 0 → items.length = 0) := by
  have hstep (kept : List Value) (item : Value) :
      (if kept.any (· == item) then kept else kept ++ [item]).length ≤ kept.length + 1 ∧
      kept.length ≤ (if kept.any (· == item) then kept else kept ++ [item]).length ∧
      0 < (if kept.any (· == item) then kept else kept ++ [item]).length := by
    split
    next h =>
        obtain ⟨u, hu, -⟩ := List.any_eq_true.mp h
        exact ⟨Nat.le_succ _, Nat.le_refl _, List.length_pos_of_mem hu⟩
    next => simp
  obtain ⟨hle, -, hzero⟩ := size_foldl (fun b a => (hstep b a).1) (fun b a => (hstep b a).2.1)
    (fun b a => (hstep b a).2.2) items []
  exact ⟨Nat.le_trans hle (Nat.le_of_eq (Nat.zero_add _)), hzero⟩

/-- The entries of a list are no more than the list has, and none are only left of none. -/
theorem Entries.size_ofList {α : Type} (l : List (String × α)) :
    (Entries.ofList l).size ≤ l.length ∧ ((Entries.ofList l).size = 0 → l.length = 0) := by
  have hstep (m : Entries α) (e : String × α) : (m.insert e.1 e.2).size ≤ m.size + 1 ∧
      m.size ≤ (m.insert e.1 e.2).size ∧ 0 < (m.insert e.1 e.2).size := by
    have hsize (m : Entries α) : m.size = m.keys.length := (List.length_map _).symm
    rw [hsize, hsize, keys_insert]
    split
    next h => exact ⟨Nat.le_succ _, Nat.le_refl _, List.length_pos_of_mem h⟩
    next => simp
  obtain ⟨hle, -, hzero⟩ := size_foldl (fun b a => (hstep b a).1) (fun b a => (hstep b a).2.1)
    (fun b a => (hstep b a).2.2) l Entries.empty
  exact ⟨Nat.le_trans hle (Nat.le_of_eq (Nat.zero_add _)), hzero⟩

/-! ## Sizes of equal values -/

namespace Value

variable {v w : Value}

theorem Alike.size?_eq (h : v.Alike w) : v.size? = w.size? := by
  cases h with
  | refl => rfl
  | zero => rfl
  | array hl _ => exact congrArg some hl
  | set hl _ => exact congrArg some hl
  | object _ hp _ =>
      have hlength := hp.length_eq
      rw [Entries.keys, Entries.keys, List.length_map, List.length_map] at hlength
      exact congrArg some hlength

/-- Whether an item is kept shows at any items that are alike. -/
theorem any_equal_congr {kept kept' : List Value} (h : List.Forall₂ Alike kept kept')
    (hv : v.DistinctKeys) (hw : w.DistinctKeys) (hvw : v.Alike w) :
    (∀ u ∈ kept, u.DistinctKeys) → (∀ u ∈ kept', u.DistinctKeys) →
      kept.any (· == v) = kept'.any (· == w) := by
  induction h with
  | nil => exact fun _ _ => rfl
  | @cons u u' us us' hu _ ih =>
      intro hkeys hkeys'
      obtain ⟨hkey, hkeys⟩ := List.forall_mem_cons.mp hkeys
      obtain ⟨hkey', hkeys'⟩ := List.forall_mem_cons.mp hkeys'
      have hhead : equal u v = equal u' w := by
        rw [hu.equal_congr hkey hkey', equal_comm hkey' hv, equal_comm hkey' hw,
          hvw.equal_congr hv hw]
      rw [List.any_cons, List.any_cons, ih hkeys hkeys']
      exact congrArg (· || _) hhead

/-- Of items that are alike in pairs those that are distinct are alike in pairs. -/
theorem forall₂_distinct {items items' : List Value} (h : List.Forall₂ Alike items items')
    (hkeys : ∀ u ∈ items, u.DistinctKeys) (hkeys' : ∀ u ∈ items', u.DistinctKeys) :
    List.Forall₂ Alike (distinct items) (distinct items') := by
  -- What was kept so far is alike in pairs, too.
  have hkept : ∀ kept kept' : List Value, List.Forall₂ Alike kept kept' →
      (∀ u ∈ kept, u.DistinctKeys) → (∀ u ∈ kept', u.DistinctKeys) →
      List.Forall₂ Alike
        (items.foldl (fun kept item => if kept.any (· == item) then kept else kept ++ [item]) kept)
        (items'.foldl (fun kept item => if kept.any (· == item) then kept else kept ++ [item])
          kept') := by
    induction h with
    | nil => exact fun _ _ h _ _ => h
    | @cons v w vs ws hvw _ ih =>
        intro kept kept' h hk hk'
        obtain ⟨hv, hvs⟩ := List.forall_mem_cons.mp hkeys
        obtain ⟨hw, hws⟩ := List.forall_mem_cons.mp hkeys'
        rw [List.foldl_cons, List.foldl_cons, any_equal_congr h hv hw hvw hk hk']
        split
        · exact ih hvs hws kept kept' h hk hk'
        · refine ih hvs hws _ _ (List.rel_append h (.cons hvw .nil)) ?_ ?_
          · exact List.forall_mem_append.mpr ⟨hk, List.forall_mem_singleton.mpr hv⟩
          · exact List.forall_mem_append.mpr ⟨hk', List.forall_mem_singleton.mpr hw⟩
  exact hkept [] [] .nil nofun nofun

end Value

/-- What a cache remembers for a call was found out for the same value, or for an equal one.  No
object in these has a key twice. -/
def Options.Recalls (options : Options) (s : Schema) (v : Value) : Prop :=
  ∀ r, options.cache.bind (·.find? s.id v) = some r → ∃ mode u,
    (s.parseFresh ⟨options, mode⟩ u).1 = .ok r ∧
      (u = v ∨ (u == v) = true ∧ u.DistinctKeys ∧ v.DistinctKeys)

section Recalls

variable {options : Options} {s : Schema} {v : Value}

theorem Options.Truthful.recalls {mode : Mode} (h : options.Truthful s mode v) :
    options.Recalls s v :=
  fun r hr => ⟨mode, v, h r hr, .inl rfl⟩

/-- So it is with a cache that was filled by earlier calls with the same options. -/
theorem Cache.HoldsFor.recalls {c : Cache} {earlier : List Ask} (hc : options.cache = some c)
    (h : c.HoldsFor options earlier) (hids : ∀ b ∈ earlier, b.schema.id = s.id → b.schema = s)
    (hkeys : ∀ b ∈ earlier, b.value.DistinctKeys) (hv : v.DistinctKeys) :
    options.Recalls s v := by
  intro r hr
  rw [hc, Option.bind_some] at hr
  obtain ⟨e, he, hid, hequal, rfl⟩ := mem_of_find? hr
  obtain ⟨b, hb, hbid, hbv, hbr⟩ := h e he
  obtain rfl := hids b hb (hbid.trans hid)
  exact ⟨b.mode, b.value, (b.parseFresh_alone options).trans hbr,
    .inr ⟨hbv ▸ hequal, hkeys b hb, hv⟩⟩

/-- A call gives what the schema gives without a cache for the same value or for an equal one. -/
theorem Options.Recalls.exists_fresh {mode : Mode} {r : Validation} (h : options.Recalls s v)
    (hr : (s.safeParse mode options v).result = .ok r) :
    ∃ mode u, (s.parseFresh ⟨options, mode⟩ u).1 = .ok r ∧
      (u = v ∨ (u == v) = true ∧ u.DistinctKeys ∧ v.DistinctKeys) := by
  unfold Schema.safeParse at hr
  split at hr
  next r' hfind =>
      obtain rfl : r' = r := Except.ok.inj hr
      exact h r' hfind
  next => exact ⟨mode, v, hr, .inl rfl⟩

end Recalls

/-! ## Sets and records -/

namespace Schema

variable {node : Schema} {call : Call} {path : Path} {hops : Nat} {v w : Value}

/-- The nodes whose size checks run before their parts do and look at nothing else. -/
def IsCollection (node : Schema) : Prop :=
  (∃ e, node.kind = .set e) ∨ ∃ key value, node.kind = .record key value

theorem IsCollection.ne_array (hkind : node.IsCollection) : ∀ e, node.kind ≠ .array e := by
  rintro e he
  rcases hkind with ⟨t, hk⟩ | ⟨key, value, hk⟩ <;> cases he.symm.trans hk

theorem IsCollection.plan_eq (hkind : node.IsCollection) :
    node.plan call path v hops = node.containerPlan call path v hops := by
  unfold plan
  rcases hkind with ⟨t, hk⟩ | ⟨key, value, hk⟩ <;> rw [hk]

/-- A collection that raises no issue itself has passed its size checks. -/
theorem IsCollection.passes_sizes (hkind : node.IsCollection)
    (hown : node.ownIssues call path v = []) {e : CheckEntry} (he : e ∈ node.checks.entries)
    (hsize : e.kind.isSize = true) : e.check.evaluate (node.containerInput v) = .pass := by
  have hchecked : (node.checked call path CheckKind.isSize (node.containerInput v)).1 = [] := by
    unfold ownIssues at hown
    rcases hkind with ⟨t, hk⟩ | ⟨key, value, hk⟩
    · rw [hk] at hown
      exact hown
    · rw [hk] at hown
      exact hown
  have hleft := checkedBy_nil_iff.mp (Prod.ext hchecked rfl)
  refine (pass_of_leftBy (fun d hd => ?_) hleft).2 e (List.mem_filter.mpr ⟨he, hsize⟩)
  exact evaluate_ne_rewrite (List.mem_filter.mp hd).2

/-- What a collection puts together from the outputs of its parts has at most as many members as
it had, and none only when it had none. -/
theorem IsCollection.size_assemble (hkind : node.IsCollection) {arena : Option Arena}
    {parts : List Part} (hparts : node.parts? v arena = some parts) (f : Part → Value) :
    ∃ n m, (node.containerInput v).size? = some n ∧
      (node.assemble v parts (parts.map f)).size? = some m ∧ m ≤ n ∧ (m = 0 → n = 0) := by
  rcases hkind with ⟨t, hk⟩ | ⟨key, value, hk⟩
  · obtain ⟨items, hinput, rfl⟩ := (parts?_set_iff hk).mp hparts
    have hsize := Value.length_distinct ((itemParts t items).map f)
    rw [List.length_map, itemParts, List.length_mapIdx] at hsize
    exact ⟨items.length, _, congrArg Value.size? hinput,
      congrArg Value.size? (assemble_set hk), hsize⟩
  · obtain ⟨input, rfl, rfl⟩ := (parts?_record_iff hk).mp hparts
    have hinput : node.containerInput (.object input) = .object input := by
      unfold containerInput
      rw [hk]
    have hsize := Entries.size_ofList (input.toList.map fun e =>
      (recordKey (f ⟨.field e.1, key, .string e.1⟩), f ⟨.field e.1, value, e.2⟩))
    rw [List.length_map] at hsize
    exact ⟨input.size, _, congrArg Value.size? hinput,
      congrArg Value.size? (assemble_record hk input f), hsize⟩

/-- Collections that are equal have equal sizes, also when they were arrays before. -/
theorem IsCollection.size_containerInput (hkind : node.IsCollection) {u : Value}
    (hequal : (u == v) = true) (hu : u.DistinctKeys) (hv : v.DistinctKeys) :
    (node.containerInput u).size? = (node.containerInput v).size? := by
  have halike : u.Alike v := (Value.alike_of_equal hu hequal).1
  rcases hkind with ⟨t, hk⟩ | ⟨key, value, hk⟩
  · rw [containerInput, containerInput, hk]
    cases halike with
    | @array as bs hl h =>
        show (if _ then _ else _ : Value).size? = (if _ then _ else _ : Value).size?
        split
        · have hdistinct := Value.forall₂_distinct (Value.Rearranged.forall₂_items hl h)
            (fun _ => hu.of_mem_array) (fun _ => hv.of_mem_array)
          exact congrArg some hdistinct.length_eq
        · exact congrArg some hl
    | refl => rfl
    | zero => rfl
    | set hl _ => exact congrArg some hl
    | object hn hp h => exact (Value.Alike.object hn hp h).size?_eq
  · rw [containerInput, containerInput, hk]
    exact halike.size?_eq

/-- The output of a set or a record has at most as many members as the container had when its size
checks ran, and none only when it had none.  So upper bounds hold of the output, and every other
size check does when nothing was merged or when it holds of a single member. -/
theorem output_size (s : Schema) (mode : Mode) (options : Options) (v w : Value)
    (hs : s.WellBuilt) (hkind : s.IsCollection) (hcast : s.settings.casts = false)
    (hcache : options.Recalls s v) (hw : (s.safeParse mode options v).result = .ok (.success w)) :
    ∃ n m, (s.containerInput v).size? = some n ∧ w.size? = some m ∧ m ≤ n ∧ (m = 0 → n = 0) ∧
      ∀ e ∈ s.checks.entries, e.kind.isSize = true →
        e.check.evaluate (.ofNat n) = .pass ∧
        (e.kind = .max ∨ m = n ∨ e.check.evaluate (.ofNat 1) = .pass →
          e.check.evaluate w = .pass) := by
  obtain ⟨mode', u, hw, hsame⟩ := hcache.exists_fresh hw
  have hsize : (s.containerInput u).size? = (s.containerInput v).size? := by
    rcases hsame with rfl | ⟨hequal, hu, hv⟩
    · rfl
    · exact hkind.size_containerInput hequal hu hv
  rw [parseFresh_fst, Visit.outcome_eq, Visit.plan, rootVisit, hkind.plan_eq] at hw
  obtain ⟨parts, hparts, hown, f, -, u, hu, rfl⟩ := containerPlan_success_iff.mp hw
  obtain rfl := hs.eq_of_leftBy hkind.ne_array hu
  rw [castOutput_of_noCast hcast]
  obtain ⟨n, m, hn, hm, hle, hzero⟩ := hkind.size_assemble hparts f
  refine ⟨n, m, hsize ▸ hn, hm, hle, hzero, fun e he hsize => ?_⟩
  have hpass : e.check.evaluate (.ofNat n) = .pass := by
    rw [← Check.evaluate_of_size? hsize hn]
    exact hkind.passes_sizes hown he hsize
  refine ⟨hpass, fun h => ?_⟩
  rw [Check.evaluate_of_size? hsize hm]
  rcases h with hmax | rfl | hone
  · exact Check.pass_below hmax hle hpass
  · exact hpass
  · rcases Nat.eq_zero_or_pos m with hnone | hsome
    · rwa [hnone, ← hzero hnone]
    · exact Check.pass_between hsize hsome hle hone hpass

/-- A set of texts, made of other values, with some size checks. -/
def textsNode (checks : List CheckEntry) : Schema :=
  ⟨1, .set ⟨0, .leaf .string, .empty, { coerces := true }⟩, ⟨checks⟩, {}⟩

/-- A number and a text that reads like it. -/
def onesInput : Value := .set [.ofNat 1, .string "1"]

/-- The options of a caller who has made a deferred call before and keeps a cache. -/
def optionsAfter (s : Schema) (v : Value) : Options where
  cache := (s.safeParse .deferred { cache := some {} } v).cache

theorem optionsAfter_recalls (s : Schema) {v : Value} (hv : v.DistinctKeys) :
    (optionsAfter s v).Recalls s v := by
  obtain ⟨-, c, hc, hholds⟩ := @Ask.reply_holds {} {} [] nofun ⟨s, .deferred, v⟩
  have honly : ∀ b ∈ [] ++ [(⟨s, .deferred, v⟩ : Ask)], b = ⟨s, .deferred, v⟩ :=
    fun b hb => List.mem_singleton.mp hb
  refine Cache.HoldsFor.recalls hc hholds (fun b hb _ => ?_) (fun b hb => ?_) hv
  · rw [honly b hb]
  · rw [honly b hb]
    exact hv

/-- A set of one or two texts. -/
def fewTexts : Schema := textsNode [⟨.min (.ofNat 1) true, none⟩, ⟨.max (.ofNat 2) true, none⟩]

theorem textsNode_size :
    (fewTexts.safeParse .immediate (optionsAfter fewTexts onesInput) onesInput).result =
        .ok (.success (.set [.string "1"])) ∧
      ∀ c ∈ [Check.min (.ofNat 1) true, .max (.ofNat 2) true],
        c.evaluate (.set [.string "1"]) = .pass := by
  have hw : (fewTexts.safeParse .immediate (optionsAfter fewTexts onesInput) onesInput).result =
      .ok (.success (.set [.string "1"])) := rfl
  have hbuilt : fewTexts.WellBuilt :=
    ⟨List.forall_mem_cons.mpr ⟨rfl, List.forall_mem_cons.mpr ⟨rfl, nofun⟩⟩, nofun⟩
  have hkeys : onesInput.DistinctKeys :=
    .set (List.forall_mem_cons.mpr ⟨.flat rfl rfl, List.forall_mem_singleton.mpr (.flat rfl rfl)⟩)
  obtain ⟨n, m, -, -, -, -, hchecks⟩ := output_size fewTexts .immediate
    (optionsAfter fewTexts onesInput) onesInput (.set [.string "1"]) hbuilt (.inl ⟨_, rfl⟩) rfl
    (optionsAfter_recalls fewTexts hkeys) hw
  refine ⟨hw, List.forall_mem_cons.mpr ⟨?_, List.forall_mem_singleton.mpr ?_⟩⟩
  · exact (hchecks _ (List.mem_cons_self ..) rfl).2 (.inr (.inr rfl))
  · exact (hchecks _ (List.mem_cons_of_mem _ (List.mem_cons_self ..)) rfl).2 (.inl rfl)

/-- At least two members are asked for, and one is returned. -/
theorem textsNode_falls_short :
    ((textsNode [⟨.min (.ofNat 2) true, none⟩]).safeParse .immediate {} onesInput).result =
        .ok (.success (.set [.string "1"])) ∧
      (Check.min (.ofNat 2) true).evaluate (.set [.string "1"]) = .fail (.ofNat 1) := by
  exact ⟨rfl, rfl⟩

end Schema

end ValueSchema
