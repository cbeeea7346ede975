import ValueSchema.Proofs.Modes

/-!
# Calls that share a cache

`serve` makes calls one after another with one cache, and a `Schedule` is an order in which
single calls and batches may be made.  `serve_shared` says what a cache can change.  A call
gives the result that it gives without a cache, or else that of an earlier call of the same
schema with an equal value.  In the second case the two values are equal without being the
same, or the call has another mode than the earlier one and would end with a misuse.

Every entry of a cache comes from a call made before (`Cache.HoldsFor`), and a call keeps
that (`Ask.reply_holds`).  When the values are the same, only the modes are left to tell the
two results apart, and calls in two modes never give two different validations
(`Visit.outcome_concurs`).  `sharing_shows` has a history for each of the two cases.
-/

namespace ValueSchema

/-! ## Calls whose options differ in the cache -/

/-- A plan asks nothing else of the visits that it starts than their outcomes. -/
theorem Plan.outcome_congr (mode : Mode) {visit visit' : Visit → Outcome} :
    ∀ pl : Plan, (∀ t, pl.Starts t → visit t = visit' t) →
      pl.outcome mode visit = pl.outcome mode visit'
  | .done _, _ => rfl
  | .andThen t next, h => by
      rw [outcome, outcome, h t .first]
      cases visit' t with
      | error e => rfl
      | ok o =>
          cases o with
          | success w => exact outcome_congr mode (next w) fun u hu => h u (.next hu)
          | failure is => rfl
  | .parts own stops ts build, h => by
      rw [outcome, outcome, List.map_congr_left fun t ht => h t (.part ht)]
  | .union ts refusal, h => by
      rw [outcome, outcome, List.map_congr_left fun t ht => h t (.member ht)]
  | .intersection stops ts build, h => by
      rw [outcome, outcome, List.map_congr_left fun t ht => h t (.joined ht)]

/-- Calls of one mode that tell every node the same have the same outcomes. -/
theorem Visit.outcome_agrees {c d : Call} (h : c.Agrees d) (hmode : c.mode = d.mode) (t : Visit) :
    t.outcome c = t.outcome d := by
  induction t using Visit.induction c with
  | h t ih =>
      have hplan : t.plan c = t.plan d :=
        t.schema.plan_agrees h t.path t.value t.hops (.inl hmode)
      rw [Visit.outcome_eq, Visit.outcome_eq, ← hplan, ← hmode]
      exact Plan.outcome_congr c.mode (t.plan c) ih

/-! ## Validations of both modes -/

/-- Two answers that are the same unless one of them is a misuse. -/
def Concurs {α : Type} (a b : Except Misuse α) : Prop := ∀ r r', a = .ok r → b = .ok r' → r = r'

namespace Concurs

variable {α β : Type}

theorem refl (a : Except Misuse α) : Concurs a a :=
  fun _ _ hr hr' => Except.ok.inj (hr.symm.trans hr')

theorem of_error {e : Misuse} {b : Except Misuse α} : Concurs (.error e) b := by
  intro r r' hr
  cases hr

theorem error_right {e : Misuse} {a : Except Misuse α} : Concurs a (.error e) := by
  intro r r' _ hr'
  cases hr'

theorem map {a b : Except Misuse α} (h : Concurs a b) (f : α → β) :
    Concurs (a.map f) (b.map f) := by
  intro r r' hr hr'
  cases a with
  | error e => cases hr
  | ok o =>
      cases b with
      | error e => cases hr'
      | ok o' =>
          obtain rfl := h o o' rfl rfl
          exact Except.ok.inj (hr.symm.trans hr')

end Concurs

namespace Outcome

theorem gather_concurs (stops : Bool) {as bs : List Outcome} (h : List.Forall₂ Concurs as bs) :
    Concurs (gather stops as) (gather stops bs) := by
  induction h with
  | nil => exact .refl _
  | @cons a b as bs hab _ ih =>
      cases a with
      | error e => exact .of_error
      | ok o =>
          cases b with
          | error e => exact .error_right
          | ok o' =>
              obtain rfl := hab o o' rfl rfl
              cases o with
              | success w => exact ih.map _
              | failure is =>
                  cases stops with
                  | true => exact .refl _
                  | false => exact ih.map _

theorem gatherMembers_concurs (stops : Bool) {as bs : List Outcome}
    (h : List.Forall₂ Concurs as bs) :
    Concurs (gatherMembers .immediate stops as) (gatherMembers .deferred stops bs) := by
  show Concurs (gather stops as) (gatherAll stops bs)
  unfold gatherAll
  cases misuse? bs with
  | some e => exact .error_right
  | none => exact gather_concurs stops h

theorem choose_concurs {as bs : List Outcome} (h : List.Forall₂ Concurs as bs) :
    Concurs (choose as) (choose bs) := by
  induction h with
  | nil => exact .refl _
  | @cons a b as bs hab _ ih =>
      cases a with
      | error e => exact .of_error
      | ok o =>
          cases b with
          | error e => exact .error_right
          | ok o' =>
              obtain rfl := hab o o' rfl rfl
              cases o with
              | success w => exact .refl _
              | failure is => exact ih.map _

end Outcome

namespace Plan

variable {immediate deferred : Visit → Outcome}

theorem forall_concurs {ts : List Visit} (h : ∀ t ∈ ts, Concurs (immediate t) (deferred t)) :
    List.Forall₂ Concurs (ts.map immediate) (ts.map deferred) :=
  List.forall₂_map_left_iff.mpr (List.forall₂_map_right_iff.mpr (List.forall₂_same.mpr h))

theorem raised_concurs (own : List Issue) :
    List.Forall₂ Concurs (Outcome.raised own) (Outcome.raised own) :=
  List.forall₂_same.mpr fun o _ => .refl o

/-- A plan that is carried out in both modes gives no two different validations. -/
theorem outcome_concurs :
    ∀ pl : Plan, (∀ t, pl.Starts t → Concurs (immediate t) (deferred t)) →
      Concurs (pl.outcome .immediate immediate) (pl.outcome .deferred deferred)
  | .done _, _ => .refl _
  | .andThen t next, h => by
      have ht := h t .first
      rw [outcome, outcome]
      cases hi : immediate t with
      | error e => exact .of_error
      | ok o =>
          cases hd : deferred t with
          | error e => exact .error_right
          | ok o' =>
              obtain rfl := ht o o' hi hd
              cases o with
              | success w => exact outcome_concurs (next w) fun u hu => h u (.next hu)
              | failure is => exact .refl _
  | .parts own stops ts build, h =>
      (Outcome.gather_concurs stops (List.rel_append (raised_concurs own)
        (forall_concurs fun t ht => h t (.part ht)))).map _
  | .union ts refusal, h =>
      (Outcome.choose_concurs (forall_concurs fun t ht => h t (.member ht))).map _
  | .intersection stops ts build, h =>
      (Outcome.gatherMembers_concurs stops (forall_concurs fun t ht => h t (.joined ht))).map _

end Plan

/-- A visit gives no two different validations in the two modes, whether or not there are
deferred effects. -/
theorem Visit.outcome_concurs (options : Options) (t : Visit) :
    Concurs (t.outcome ⟨options, .immediate⟩) (t.outcome ⟨options, .deferred⟩) := by
  induction t using Visit.induction ⟨options, .immediate⟩ with
  | h t ih =>
      rw [Visit.outcome_eq, Visit.outcome_eq]
      by_cases hnode : ∀ inner effect, t.schema.kind = .effects inner effect →
          effect.flavour = .immediate
      · have hplan : t.plan ⟨options, .deferred⟩ = t.plan ⟨options, .immediate⟩ :=
          t.schema.plan_mode options t.path t.value t.hops hnode
        rw [hplan]
        exact Plan.outcome_concurs _ ih
      · -- The node itself is a deferred effect, which is a misuse in an immediate call.
        have hmisuse : ∃ e, t.plan ⟨options, .immediate⟩ = .done (.error e) := by
          simp only [not_forall] at hnode
          obtain ⟨inner, effect, hk, hf⟩ := hnode
          have hdeferred : effect.flavour = .deferred := by
            cases he : effect.flavour with
            | immediate => exact absurd he hf
            | deferred => rfl
          refine ⟨.deferredEffect effect.name t.path, ?_⟩
          unfold Visit.plan Schema.plan
          rw [hk]
          exact if_pos ⟨hdeferred, rfl⟩
        obtain ⟨e, he⟩ := hmisuse
        rw [he]
        exact .of_error

/-! ## Single calls -/

/-- One call that a caller makes. -/
structure Ask where
  /-- The schema. -/
  schema : Schema
  /-- The mode. -/
  mode : Mode
  /-- The value. -/
  value : Value

namespace Ask

/-- The reply to a call. -/
def reply (options : Options) (a : Ask) : Reply := a.schema.safeParse a.mode options a.value

/-- The result of a call without a cache. -/
def alone (options : Options) (a : Ask) : Outcome :=
  (a.reply { options with cache := none }).result

theorem parseFresh_alone (options : Options) (a : Ask) :
    (a.schema.parseFresh ⟨options, a.mode⟩ a.value).1 = a.alone options := by
  have hagrees : Call.Agrees ⟨options, a.mode⟩ ⟨{ options with cache := none }, a.mode⟩ :=
    ⟨rfl, rfl, rfl⟩
  rw [Schema.parseFresh_fst, alone, reply, Schema.safeParse_uncached _ _ _ _ rfl]
  exact Visit.outcome_agrees hagrees rfl _

/-- Calls that differ in the mode alone give the same result on their own, unless one is a
misuse. -/
theorem alone_concurs (options : Options) {a b : Ask} (hs : a.schema = b.schema)
    (hv : a.value = b.value) : Concurs (a.alone options) (b.alone options) := by
  obtain ⟨s, mode, v⟩ := a
  obtain ⟨_, mode', _⟩ := b
  obtain rfl := hs
  obtain rfl := hv
  have hconcurs := (s.rootVisit ⟨{ options with cache := none }, .immediate⟩ v).outcome_concurs
    { options with cache := none }
  unfold alone reply
  rw [Schema.safeParse_uncached _ _ _ _ rfl, Schema.safeParse_uncached _ _ _ _ rfl]
  cases mode <;> cases mode'
  · exact .refl _
  · exact hconcurs
  · exact fun r r' hr hr' => (hconcurs r' r hr' hr).symm
  · exact .refl _

/-- What a call may give after others: its own result, or what an earlier call of the schema
gave for an equal value. -/
inductive Gets (options : Options) (earlier : List Ask) (a : Ask) : Outcome → Prop where
  | own : Gets options earlier a (a.alone options)
  | shared {b : Ask} {r : Validation} :
      b ∈ earlier → b.schema.id = a.schema.id → (b.value == a.value) = true →
      b.alone options = .ok r → Gets options earlier a (.ok r)

end Ask

/-! ## Caches -/

namespace Cache

/-- Every entry of a cache was found out by one of these calls. -/
def HoldsFor (options : Options) (earlier : List Ask) (c : Cache) : Prop :=
  ∀ e ∈ c.entries, ∃ a ∈ earlier, a.schema.id = e.schema ∧ a.value = e.input ∧
    a.alone options = .ok e.validation

variable {c : Cache} {options : Options} {earlier : List Ask}

theorem mem_of_find? {id : Nat} {v : Value} {r : Validation} (h : c.find? id v = some r) :
    ∃ e ∈ c.entries, e.schema = id ∧ (e.input == v) = true ∧ e.validation = r := by
  unfold find? at h
  split at h
  next e he =>
      split at h
      next hv =>
          have hfor := List.find?_some he
          simp only [CacheEntry.isFor, Bool.and_eq_true, beq_iff_eq] at hfor
          exact ⟨e, List.mem_of_find?_eq_some he, hfor.1, hv, Option.some.inj h⟩
      next => cases h
  next => cases h

theorem mem_insert {id : Nat} {v : Value} {r : Validation} {e : CacheEntry}
    (h : e ∈ (c.insert id v r).entries) : e = ⟨id, c.digest v, v, r⟩ ∨ e ∈ c.entries := by
  cases List.mem_cons.mp h with
  | inl he => exact .inl he
  | inr hm => exact .inr (List.mem_filter.mp hm).1

theorem HoldsFor.weaken (h : c.HoldsFor options earlier) (a : Ask) :
    c.HoldsFor options (earlier ++ [a]) := by
  intro e he
  obtain ⟨b, hb, hrest⟩ := h e he
  exact ⟨b, List.mem_append_left _ hb, hrest⟩

theorem HoldsFor.insert (h : c.HoldsFor options earlier) {a : Ask} {r : Validation}
    (hr : a.alone options = .ok r) :
    (c.insert a.schema.id a.value r).HoldsFor options (earlier ++ [a]) := by
  intro e he
  cases mem_insert he with
  | inl hnew =>
      subst hnew
      exact ⟨a, List.mem_append_right _ (List.mem_singleton.mpr rfl), rfl, rfl, hr⟩
  | inr hold => exact h.weaken a e hold

end Cache

/-- A call gives its own result or a shared one, and leaves in the cache what was found out
by it or before it. -/
theorem Ask.reply_holds {options : Options} {c : Cache} {earlier : List Ask}
    (h : c.HoldsFor options earlier) (a : Ask) :
    a.Gets options earlier (a.reply { options with cache := some c }).result ∧
      ∃ c', (a.reply { options with cache := some c }).cache = some c' ∧
        c'.HoldsFor options (earlier ++ [a]) := by
  have halone : (a.schema.parseFresh ⟨{ options with cache := some c }, a.mode⟩ a.value).1 =
      a.alone options := a.parseFresh_alone { options with cache := some c }
  unfold reply Schema.safeParse
  rw [Option.bind_some]
  cases hfind : c.find? a.schema.id a.value with
  | some r =>
      obtain ⟨e, he, hid, hv, rfl⟩ := Cache.mem_of_find? hfind
      obtain ⟨b, hb, hbid, hbv, hbr⟩ := h e he
      rw [← hbv] at hv
      exact ⟨.shared hb (hbid.trans hid) hv hbr, c, rfl, h.weaken a⟩
  | none =>
      cases hfresh : a.schema.parseFresh ⟨{ options with cache := some c }, a.mode⟩ a.value with
      | mk result calls =>
          obtain rfl : result = a.alone options := by rw [← halone, hfresh]
          refine ⟨.own, ?_⟩
          cases hr : a.alone options with
          | error e => exact ⟨c, rfl, h.weaken a⟩
          | ok r => exact ⟨_, rfl, h.insert hr⟩

/-! ## Histories of calls -/

/-- What a caller makes of a cache: a single call, or a batch of immediate ones. -/
inductive Request where
  | single (a : Ask)
  | batch (schema : Schema) (values : List Value)

namespace Request

/-- The schema of a request. -/
def schema : Request → Schema
  | .single a => a.schema
  | .batch s _ => s

/-- The calls of a request, in the order of its values. -/
def asks : Request → List Ask
  | .single a => [a]
  | .batch s vs => vs.map fun v => ⟨s, .immediate, v⟩

theorem schema_of_mem {r : Request} {a : Ask} (h : a ∈ r.asks) : a.schema = r.schema := by
  cases r with
  | single b => exact congrArg Ask.schema (List.mem_singleton.mp h)
  | batch s vs =>
      obtain ⟨v, -, rfl⟩ := List.mem_map.mp h
      rfl

end Request

/-- The calls of requests in an order in which they may be made: one request after another,
and the values of a batch in any order. -/
inductive Schedule : List Request → List Ask → Prop where
  | nil : Schedule [] []
  | cons {r : Request} {rs : List Request} {as bs : List Ask} :
      as.Perm r.asks → Schedule rs bs → Schedule (r :: rs) (as ++ bs)

theorem Schedule.request_of_mem {rs : List Request} {asks : List Ask} (h : Schedule rs asks)
    {a : Ask} (ha : a ∈ asks) : ∃ r ∈ rs, a.schema = r.schema := by
  induction h with
  | nil => cases ha
  | @cons r rs as bs hperm _ ih =>
      cases List.mem_append.mp ha with
      | inl hm => exact ⟨r, List.mem_cons_self .., Request.schema_of_mem (hperm.mem_iff.mp hm)⟩
      | inr hm =>
          obtain ⟨r', hr', he⟩ := ih hm
          exact ⟨r', List.mem_cons_of_mem _ hr', he⟩

/-- The results of calls that are made one after another and pass the cache on. -/
def serve (options : Options) : List Ask → List Outcome
  | [] => []
  | a :: as => (a.reply options).result :: serve { options with cache := (a.reply options).cache } as

/-- A batch makes its calls in the order of the values. -/
theorem safeParseBatch_fst (s : Schema) :
    ∀ (vs : List Value) (options : Options),
      (s.safeParseBatch options vs).1 = serve options (Request.batch s vs).asks
  | [], _ => rfl
  | v :: vs, options => by
      have ih := safeParseBatch_fst s vs
        { options with cache := (s.safeParse .immediate options v).cache }
      rw [Schema.safeParseBatch]
      exact congrArg (_ :: ·) ih

/-- Every call of a history gives its own result or one that it shares with a call before. -/
theorem serve_gets (options : Options) (asks : List Ask) :
    ∀ {earlier : List Ask} {c : Cache}, c.HoldsFor options earlier →
      ∀ {i : Nat} {a : Ask}, asks[i]? = some a →
        ∃ o, (serve { options with cache := some c } asks)[i]? = some o ∧
          a.Gets options (earlier ++ asks.take i) o := by
  induction asks with
  | nil => exact fun _ _ _ ha => nomatch ha
  | cons b asks ih =>
      intro earlier c h i a ha
      obtain ⟨hgets, c', hc', hholds⟩ := Ask.reply_holds h b
      cases i with
      | zero =>
          obtain rfl := Option.some.inj ha
          refine ⟨_, rfl, ?_⟩
          rw [List.take_zero, List.append_nil]
          exact hgets
      | succ i =>
          obtain ⟨o, ho, hgets'⟩ := ih hholds (List.getElem?_cons_succ.symm.trans ha)
          refine ⟨o, ?_, ?_⟩
          · rw [serve, List.getElem?_cons_succ, hc']
            exact ho
          · rw [List.take_succ_cons, List.append_cons]
            exact hgets'

/-- Calls that share a cache, which was empty at first, give the results they give without
one, in whatever order they are made.  A call may only give the validation of an earlier call
instead when its own value is another one that equals the earlier one, or when it would end
with a misuse, the earlier call being one of the other mode. -/
theorem serve_shared (options : Options) (c : Cache) (hc : options.cache = some c)
    (hempty : c.entries = []) (requests : List Request) (asks : List Ask)
    (hs : Schedule requests asks)
    (hids : ∀ r ∈ requests, ∀ r' ∈ requests, r.schema.id = r'.schema.id → r.schema = r'.schema)
    (i : Nat) (a : Ask) (ha : asks[i]? = some a) :
    ∃ o, (serve options asks)[i]? = some o ∧
      (o = a.alone options ∨
        ∃ b ∈ asks.take i, b.schema = a.schema ∧ (b.value == a.value) = true ∧
          o = b.alone options ∧ (∃ r, o = .ok r) ∧
          (b.value ≠ a.value ∨ b.mode ≠ a.mode ∧ ∃ e, a.alone options = .error e)) := by
  have hstart : c.HoldsFor options [] := fun e he => nomatch hempty ▸ he
  obtain ⟨o, ho, hgets⟩ := serve_gets options asks hstart ha
  have hoptions : { options with cache := some c } = options := by rw [← hc]
  rw [hoptions] at ho
  refine ⟨o, ho, ?_⟩
  cases hgets with
  | own => exact .inl rfl
  | @shared b r hb hid hv hr =>
      rw [List.nil_append] at hb
      have hschema : b.schema = a.schema := by
        obtain ⟨q, hq, hqa⟩ := hs.request_of_mem (List.mem_of_getElem? ha)
        obtain ⟨q', hq', hqb⟩ := hs.request_of_mem (List.mem_of_mem_take hb)
        rw [hqa, hqb] at hid ⊢
        exact hids q' hq' q hq hid
      by_cases hvalue : b.value = a.value
      · have hconcurs := Ask.alone_concurs options hschema hvalue
        cases hown : a.alone options with
        | ok r' => exact .inl (congrArg _ (hconcurs r r' hr hown))
        | error e =>
            have hmode : b.mode ≠ a.mode := by
              intro hm
              have hab : b = a := by
                obtain ⟨_, _, _⟩ := a
                obtain ⟨_, _, _⟩ := b
                cases hschema
                cases hvalue
                cases hm
                rfl
              rw [hab, hown] at hr
              cases hr
            exact .inr ⟨b, hb, hschema, hv, hr.symm, ⟨r, rfl⟩, .inr ⟨hmode, e, rfl⟩⟩
      · exact .inr ⟨b, hb, hschema, hv, hr.symm, ⟨r, rfl⟩, .inl hvalue⟩

/-- A text, to which numbers are converted. -/
def numeralNode : Schema := ⟨0, .leaf .string, .empty, { coerces := true }⟩

/-- A batch of the two zeros. -/
def zerosBatch : Request := .batch numeralNode [.number (.zero true), .number (.zero false)]

/-- The calls of the batch in another order. -/
def zerosAsks : List Ask :=
  [⟨numeralNode, .immediate, .number (.zero false)⟩, ⟨numeralNode, .immediate, .number (.zero true)⟩]

theorem zerosAsks_schedule : Schedule [zerosBatch] zerosAsks := by
  have hperm : zerosAsks.Perm zerosBatch.asks := List.Perm.swap _ _ []
  exact .cons hperm .nil

theorem zerosAsks_shared :
    ∃ o, (serve { cache := some {} } zerosAsks)[1]? = some o ∧
      ∃ b ∈ zerosAsks.take 1, b.schema = numeralNode ∧
        (b.value == .number (.zero true)) = true ∧ o = b.alone { cache := some {} } ∧
        b.value ≠ .number (.zero true) := by
  have hids : ∀ r ∈ [zerosBatch], ∀ r' ∈ [zerosBatch], r.schema.id = r'.schema.id →
      r.schema = r'.schema := by
    intro r hr r' hr' _
    rw [List.mem_singleton.mp hr, List.mem_singleton.mp hr']
  obtain ⟨o, ho, hgets⟩ := serve_shared { cache := some {} } {} rfl rfl [zerosBatch] zerosAsks
    zerosAsks_schedule hids 1 ⟨numeralNode, .immediate, .number (.zero true)⟩ rfl
  have hzero : o = .ok (.success (.string "0")) := Option.some.inj (ho.symm.trans rfl)
  have hown : Ask.alone { cache := some {} } ⟨numeralNode, .immediate, .number (.zero true)⟩ =
      .ok (.success (.string "-0")) := rfl
  refine ⟨o, ho, ?_⟩
  cases hgets with
  | inl h =>
      rw [hzero, hown] at h
      simp at h
  | inr h =>
      obtain ⟨b, hb, hs, hv, ho, -, hdiffers⟩ := h
      refine ⟨b, hb, hs, hv, ho, hdiffers.resolve_right ?_⟩
      rintro ⟨-, e, he⟩
      rw [hown] at he
      cases he

/-- In every order of the requests, calls that share a cache give the results they give
without one. -/
def Transparent (requests : List Request) : Prop :=
  ∀ (options : Options) (c : Cache) (asks : List Ask), options.cache = some c → c.entries = [] →
    Schedule requests asks → serve options asks = asks.map (Ask.alone options)

/-- A value that is accepted after a while. -/
def awaitedNode : Schema :=
  ⟨2, .effects ⟨1, .leaf .any, .empty, {}⟩ (.refine .deferred (fun _ => true) "taken"), .empty, {}⟩

/-- The two zeros are told apart as texts, but not with a cache.  A value whose acceptance
takes a deferred call is accepted by an immediate one after it. -/
theorem sharing_shows :
    ¬ Transparent [zerosBatch] ∧
      ¬ Transparent [.single ⟨awaitedNode, .deferred, .null⟩,
        .single ⟨awaitedNode, .immediate, .null⟩] := by
  constructor
  · intro hall
    have h := hall { cache := some {} } {} zerosAsks rfl rfl zerosAsks_schedule
    have hsecond : some (Except.ok (.success (.string "0")) : Outcome) =
        some (.ok (.success (.string "-0"))) := congrArg (·[1]?) h
    simp at hsecond
  · intro hall
    have h := hall { cache := some {} } {} _ rfl rfl (.cons (.refl _) (.cons (.refl _) .nil))
    have hsecond : some (Except.ok (.success .null) : Outcome) =
        some (.error (.deferredEffect "refinement" .root)) := congrArg (·[1]?) h
    cases hsecond

end ValueSchema
