import ValueSchema.Proofs.MissingValue
import ValueSchema.Proofs.References

/-!
# The recursion of a call

Definitions may refer to themselves and to each other, also without anything in between, and a
call on them ends all the same (`Schema.recursion_ends`).

A `Frame` is a schema that is looked into after some number of lazy nodes has been resolved.
From there a call goes on with a schema inside of it, or with its definition at the next depth
(`Frame.Calls`).  That relation is well founded: what is left of the depth falls, or it stays
and the schema gets smaller.  The step of a schema is the only function that satisfies the
recursion equation with a depth that counts up (`Schema.IsRun.eq_runWithin`), and the test for
missing values is the only one that satisfies its equation (`Schema.IsMissingTest.iff_admitsMissing`).

Every chain of visits from the first one resolves at most as many lazy nodes as the arena allows,
and a call reports that the depth is exceeded only at the end of a chain that resolves just as
many (`Schema.exists_chain_of_depthExceeded`).
-/

namespace ValueSchema

/-! ## Frames -/

namespace Schema

/-- The nodes of a schema. -/
def nodes : Schema → List Schema := fold fun s kind => s :: kind.children.flatMap Prod.snd

/-- The number of nodes of a schema. -/
def size (s : Schema) : Nat := s.nodes.length

theorem nodes_eq (s : Schema) : s.nodes = s :: s.kind.children.flatMap nodes := by
  conv_lhs => unfold nodes
  rw [fold_eq, Kind.children_map, List.flatMap_map]
  rfl

theorem size_lt_of_mem {s t : Schema} (ht : t ∈ s.kind.children) : t.size < s.size := by
  have hsub : t.nodes.Sublist (s.kind.children.flatMap nodes) :=
    List.sublist_flatten_of_mem (List.mem_map_of_mem ht)
  show t.nodes.length < s.nodes.length
  rw [s.nodes_eq]
  exact Nat.lt_succ_of_le hsub.length_le

end Schema

/-- A schema that is looked into at a depth: how many lazy nodes have been resolved around it. -/
structure Frame where
  /-- The depth. -/
  depth : Nat
  /-- The schema. -/
  schema : Schema

namespace Frame

/-- A call on the schema of one frame goes on with that of another one. -/
inductive Calls (call : Call) : Frame → Frame → Prop where
  | inside {depth : Nat} {s t : Schema} : t ∈ s.kind.children → Calls call ⟨depth, s⟩ ⟨depth, t⟩
  | resolved {depth : Nat} {s t : Schema} {id : SchemaId} : s.kind = .lazy id →
      depth < Schema.hopsOf call → call.options.arena.bind (·.get? id) = some t →
      Calls call ⟨depth, s⟩ ⟨depth + 1, t⟩

/-- What is left of the depth, and the size of the schema. -/
def rank (call : Call) (f : Frame) : Nat × Nat := (Schema.hopsOf call - f.depth, f.schema.size)

theorem Calls.rank_lt {call : Call} {f g : Frame} (h : f.Calls call g) :
    Prod.Lex (· < ·) (· < ·) (g.rank call) (f.rank call) := by
  cases h with
  | inside ht => exact .right _ (Schema.size_lt_of_mem ht)
  | @resolved depth s t id hk hd ht =>
      have hleft : Schema.hopsOf call - (depth + 1) < Schema.hopsOf call - depth := by omega
      exact .left _ _ hleft

theorem calls_wellFounded (call : Call) : WellFounded fun g f : Frame => f.Calls call g :=
  Subrelation.wf (fun h => h.rank_lt)
    (InvImage.wf (rank call) (Prod.lex Nat.lt_wfRel Nat.lt_wfRel).wf)

end Frame

/-- The frame of a visit. -/
def Visit.frame (call : Call) (t : Visit) : Frame := ⟨Schema.hopsOf call - t.hops, t.schema⟩

/-- The visits that a visit makes are calls of frames. -/
theorem Visit.Makes.calls {call : Call} {t u : Visit} (h : t.Makes call u)
    (ht : t.hops ≤ Schema.hopsOf call) : (t.frame call).Calls call (u.frame call) := by
  rcases Schema.plan_starts h with ⟨hhops, hmem⟩ | ⟨hhops, id, hk, hget⟩
  · show Frame.Calls call _ ⟨Schema.hopsOf call - u.hops, u.schema⟩
    rw [hhops]
    exact .inside hmem
  · have hdepth : Schema.hopsOf call - u.hops = Schema.hopsOf call - t.hops + 1 := by omega
    show Frame.Calls call _ ⟨Schema.hopsOf call - u.hops, u.schema⟩
    rw [hdepth]
    exact .resolved hk (by omega) hget

namespace Schema

/-! ## The recursion of steps -/

/-- The steps of schemas at each depth up to that of the arena: the step of a node over those of
its inner schemas at the same depth, and of definitions at the next one. -/
def IsRun (call : Call) (run : Nat → Schema → Runner) : Prop :=
  ∀ depth ≤ hopsOf call, ∀ s, run depth s =
    parseNode call (follow call (if depth < hopsOf call then some (run (depth + 1)) else none)) s
      (s.kind.map fun t => (t, run depth t))

theorem isRun_runWithin (call : Call) :
    IsRun call fun depth => runWithin call (hopsOf call - depth) := by
  intro depth _ s
  have hfollow : followWithin call (hopsOf call - depth) =
      follow call (if depth < hopsOf call then some (runWithin call (hopsOf call - (depth + 1)))
        else none) := by
    by_cases hd : depth < hopsOf call
    · obtain ⟨n, hn⟩ : ∃ n, hopsOf call - depth = n + 1 := ⟨hopsOf call - depth - 1, by omega⟩
      have hnext : hopsOf call - (depth + 1) = n := by omega
      rw [if_pos hd, hn, hnext]
      rfl
    · have hzero : hopsOf call - depth = 0 := by omega
      rw [if_neg hd, hzero]
      rfl
  rw [← hfollow]
  exact runWithin_eq call _ s

/-- Steps of one depth are given by the steps of lazy nodes at that depth. -/
theorem IsRun.eq_of_follow {call : Call} {run : Nat → Schema → Runner} (h : IsRun call run)
    {depth left : Nat} (hd : depth ≤ hopsOf call)
    (hfollow : follow call (if depth < hopsOf call then some (run (depth + 1)) else none) =
      followWithin call left) (s : Schema) : run depth s = runWithin call left s := by
  induction s using Schema.induction with
  | h s ih =>
      have hkind : s.kind.map (fun t => (t, run depth t)) =
          s.kind.map fun t => (t, runWithin call left t) :=
        Kind.map_congr fun t ht => by rw [ih t ht]
      rw [h depth hd, runWithin_eq, hfollow, hkind]

/-- No other steps satisfy the equation. -/
theorem IsRun.eq_runWithin {call : Call} {run : Nat → Schema → Runner} (h : IsRun call run)
    (left : Nat) : ∀ depth ≤ hopsOf call, hopsOf call - depth = left → ∀ s,
      run depth s = runWithin call left s := by
  induction left with
  | zero =>
      intro depth hd hleft
      have hlast : ¬ depth < hopsOf call := by omega
      refine h.eq_of_follow hd ?_
      rw [if_neg hlast]
      rfl
  | succ left ih =>
      intro depth hd hleft
      have hlt : depth < hopsOf call := by omega
      have hnext : run (depth + 1) = runWithin call left :=
        funext (ih (depth + 1) (by omega) (by omega))
      refine h.eq_of_follow hd ?_
      rw [if_pos hlt, hnext]
      rfl

/-! ## The recursion of the test for missing values -/

/-- A test for missing values at each depth up to that of the arena. -/
def IsMissingTest (call : Call) (passes : Nat → Schema → Prop) : Prop :=
  ∀ depth ≤ hopsOf call, ∀ s, passes depth s ↔
    s.kind.AdmitsMissing False (fun id => depth < hopsOf call ∧
      ∃ t, call.options.arena.bind (·.get? id) = some t ∧ passes (depth + 1) t) (passes depth)

theorem isMissingTest_admitsMissing (call : Call) :
    IsMissingTest call fun depth s =>
      s.AdmitsMissing call.options.arena False (hopsOf call - depth) := by
  intro depth _ s
  refine admitsMissing_iff.trans (Kind.admitsMissing_congr (fun id => ?_) fun t _ => Iff.rfl)
  constructor
  · rintro ⟨n, t, hn, ht, hadmits⟩
    obtain rfl : hopsOf call - (depth + 1) = n := by omega
    exact ⟨by omega, t, ht, hadmits⟩
  · rintro ⟨hlt, t, ht, hadmits⟩
    exact ⟨hopsOf call - (depth + 1), t, by omega, ht, hadmits⟩

/-- No other test satisfies the equation. -/
theorem IsMissingTest.iff_admitsMissing {call : Call} {passes : Nat → Schema → Prop}
    (h : IsMissingTest call passes) (left : Nat) :
    ∀ depth ≤ hopsOf call, hopsOf call - depth = left → ∀ s,
      (passes depth s ↔ s.AdmitsMissing call.options.arena False left) := by
  induction left using Nat.strongRecOn with
  | ind left ihleft =>
      intro depth hd hleft s
      induction s using Schema.induction with
      | h s ih =>
          rw [h depth hd, admitsMissing_iff]
          refine Kind.admitsMissing_congr (fun id => ?_) ih
          constructor
          · rintro ⟨hlt, t, ht, hpasses⟩
            have hnext := ihleft (left - 1) (by omega) (depth + 1) (by omega) (by omega) t
            exact ⟨left - 1, t, by omega, ht, hnext.mp hpasses⟩
          · rintro ⟨n, t, hn, ht, hadmits⟩
            have hnext := ihleft n (by omega) (depth + 1) (by omega) (by omega) t
            exact ⟨by omega, t, ht, hnext.mpr hadmits⟩

/-! ## The depth of a call -/

variable {s : Schema} {v : Value}

/-- The depth that a chain of visits leads to is the number of lazy nodes that it resolves. -/
theorem depth_of_nests {call : Call} {n : Nat} {u : Visit}
    (h : (s.rootVisit call v).Nests (Visit.Makes call) n u) :
    (u.frame call).depth = n ∧ n ≤ hopsOf call := by
  have hhops : hopsOf call = n + u.hops := h.hops_eq
  refine ⟨?_, by omega⟩
  show hopsOf call - u.hops = n
  omega

/-- A call reports that the depth is exceeded at a lazy node inside of as many others as the
arena allows. -/
theorem exists_chain_of_depthExceeded {call : Call} {maxDepth : Nat} {path : Path}
    (h : (s.safeParse call.mode call.options v).result = .error (.depthExceeded maxDepth path)) :
    ∃ a, call.options.arena = some a ∧ maxDepth = a.maxDepth ∧
      ∃ u, (s.rootVisit call v).Nests (Visit.Heeds call) a.maxDepth u ∧ u.path = path ∧
        ∃ id, u.schema.kind = .lazy id := by
  obtain ⟨n, u, hu, hreports⟩ := exists_reports_of_safeParse h
  cases hreports with
  | @depthExceeded id a hk ha hzero =>
      have hhops : hopsOf call = n + u.hops := (hu.imp Visit.Heeds.makes).hops_eq
      have hdepth : hopsOf call = a.maxDepth := by
        rw [hopsOf, ha]
        rfl
      have hn : n = a.maxDepth := by omega
      exact ⟨a, ha, rfl, u, hn ▸ hu, rfl, id, hk⟩

/-- The recursions of a call end, whatever the definitions of its arena are.  What a frame calls
has less of the depth left, or as much and a smaller schema, and visits are such calls.  Steps and
the test for missing values are given by their recursion equations, in which no depth exceeds that
of the arena.  Nor does a chain of visits, and the call reports that the depth is exceeded only
where that many lazy nodes have been resolved. -/
theorem recursion_ends (call : Call) :
    (WellFounded fun g f : Frame => f.Calls call g) ∧
    (∀ f g : Frame, f.Calls call g → Prod.Lex (· < ·) (· < ·) (g.rank call) (f.rank call)) ∧
    (∀ t u : Visit, t.hops ≤ hopsOf call → t.Makes call u →
      (t.frame call).Calls call (u.frame call)) ∧
    ((∃ run, IsRun call run) ∧
      ∀ run, IsRun call run → ∀ s, run 0 s = Schema.run call s) ∧
    ((∃ passes, IsMissingTest call passes) ∧
      ∀ passes, IsMissingTest call passes → ∀ s,
        (passes 0 s ↔ s.acceptsUndefinedIn call.options.arena = true)) ∧
    ∀ (s : Schema) (v : Value),
      (∀ n u, (s.rootVisit call v).Nests (Visit.Makes call) n u →
        (u.frame call).depth = n ∧ n ≤ hopsOf call) ∧
      ∀ maxDepth path,
        (s.safeParse call.mode call.options v).result = .error (.depthExceeded maxDepth path) →
        ∃ a, call.options.arena = some a ∧ maxDepth = a.maxDepth ∧
          ∃ u, (s.rootVisit call v).Nests (Visit.Heeds call) a.maxDepth u ∧ u.path = path ∧
            ∃ id, u.schema.kind = .lazy id := by
  refine ⟨Frame.calls_wellFounded call, fun _ _ h => h.rank_lt, fun _ _ ht h => h.calls ht,
    ⟨⟨_, isRun_runWithin call⟩, fun run h s => ?_⟩,
    ⟨⟨_, isMissingTest_admitsMissing call⟩, fun passes h s => ?_⟩,
    fun s v => ⟨fun n u h => depth_of_nests h, fun n p h => exists_chain_of_depthExceeded h⟩⟩
  · exact h.eq_runWithin (hopsOf call) 0 (Nat.zero_le _) (Nat.sub_zero _) s
  · rw [acceptsUndefinedIn_iff_admitsMissing]
    exact h.iff_admitsMissing (hopsOf call) 0 (Nat.zero_le _) (Nat.sub_zero _) s

/-- A definition that refers to itself. -/
def loopNode : Schema := ⟨0, .lazy ⟨0, 0⟩, .empty, {}⟩

/-- A call that may resolve it three times. -/
def loopCall : Call where
  options := { arena := some { id := 0, maxDepth := 3, slots := [⟨"Loop", some loopNode⟩] } }

theorem loopNode_ends :
    (loopNode.safeParse loopCall.mode loopCall.options .null).result =
        .error (.depthExceeded 3 .root) ∧
      ∃ u, (loopNode.rootVisit loopCall .null).Nests (Visit.Heeds loopCall) 3 u ∧
        u.path = .root := by
  have h : (loopNode.safeParse loopCall.mode loopCall.options .null).result =
      .error (.depthExceeded 3 .root) := rfl
  obtain ⟨-, -, -, -, -, hcalls⟩ := recursion_ends loopCall
  obtain ⟨a, ha, hdepth, u, hu, hpath, -⟩ := (hcalls loopNode .null).2 3 .root h
  exact ⟨h, u, hdepth ▸ hu, hpath⟩

end Schema

end ValueSchema
