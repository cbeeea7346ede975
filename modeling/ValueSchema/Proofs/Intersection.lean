import ValueSchema.Proofs.OutputKeys
import ValueSchema.Proofs.Parity

/-!
# Intersections and the order of their members

The members of an intersection may stand in any order (`Schema.intersection_perm`): one order
accepts a value just when the other does, and the outputs are alike.  A member that is repeated
changes nothing as long as every number in its output is one (`Schema.intersection_self`).  What
is not a number merges with nothing, not even with itself.  Both are about calls that find out what
they give.  A cache answers a call with what it gave for an equal value, which need not be the same
one (`Schema.digitPair_turned_after_zero`).

Both follow from the laws of merging, since an intersection accepts a value just when all its
members do and their outputs merge (`Visit.outcome_intersection_iff`).
-/

namespace ValueSchema

/-! ## Members without a misuse -/

namespace Outcome

variable {os : List Outcome} {mode : Mode} {stops : Bool}

theorem mem_of_gatherMembers_error {e : Misuse} (h : gatherMembers mode stops os = .error e) :
    .error e ∈ os := by
  cases mode with
  | immediate => exact mem_of_gather_error h
  | deferred =>
      rw [gatherMembers, gatherAll] at h
      split at h
      next e' he =>
          obtain rfl := Except.error.inj h
          exact mem_of_misuse? he
      next => exact mem_of_gather_error h

theorem exists_gatherMembers (h : ∀ o ∈ os, ∃ r, o = .ok r) (mode : Mode) (stops : Bool) :
    ∃ r, gatherMembers mode stops os = .ok r := by
  cases hr : gatherMembers mode stops os with
  | ok r => exact ⟨r, rfl⟩
  | error e =>
      obtain ⟨r, he⟩ := h _ (mem_of_gatherMembers_error hr)
      cases he

end Outcome

/-! ## Accepted values -/

namespace Schema

theorem mergeValidation_of_conflict {node : Schema} {call : Call} {path : Path} {v : Value}
    {outputs : List Value} (h : joined? v outputs = none) :
    node.mergeValidation call path v outputs =
      .failure ⟨call.issue .invalidIntersection path node.settings.typeMessage v, []⟩ := by
  cases outputs with
  | nil => cases h
  | cons u us => rw [mergeValidation, show mergeAll? u us = none from h]

end Schema

namespace Visit

variable {call : Call} {hops : Nat} {path : Path} {v w : Value} {node : Schema} {members : List Schema}

theorem plan_intersection (hk : node.kind = .intersection members) :
    (⟨hops, node, path, v⟩ : Visit).plan call =
      .intersection (node.stops call) (members.map fun s => ⟨hops, s, path, v⟩)
        (node.mergeValidation call path v) := by
  simp only [plan, Schema.plan, hk]

/-- An intersection succeeds when all its members do and their outputs merge. -/
theorem outcome_intersection_iff (hk : node.kind = .intersection members) :
    outcome call ⟨hops, node, path, v⟩ = .ok (.success w) ↔
      (∀ t ∈ members, ∃ u, outcome call ⟨hops, t, path, v⟩ = .ok (.success u)) ∧
        Schema.joined? v (members.map fun t => (outcome call ⟨hops, t, path, v⟩).output) =
          some w := by
  rw [outcome_eq, plan_intersection hk, Plan.intersection_success_iff,
    Schema.mergeValidation_success_iff, List.forall_mem_map, List.map_map]
  refine and_congr_left fun _ => forall₂_congr fun t _ => ⟨fun h => ⟨_, h⟩, ?_⟩
  rintro ⟨u, hu⟩
  rw [Outcome.output_eq hu, hu]

/-- An intersection whose members succeed with outputs that do not merge raises one issue. -/
theorem outcome_intersection_conflict (hk : node.kind = .intersection members)
    (hall : ∀ t ∈ members, ∃ u, outcome call ⟨hops, t, path, v⟩ = .ok (.success u))
    (hjoin : Schema.joined? v (members.map fun t => (outcome call ⟨hops, t, path, v⟩).output) =
      none) :
    outcome call ⟨hops, node, path, v⟩ =
      .ok (.failure ⟨call.issue .invalidIntersection path node.settings.typeMessage v, []⟩) := by
  have hsuccesses : (members.map fun s => (⟨hops, s, path, v⟩ : Visit)).map (outcome call) =
      (members.map fun t => (outcome call ⟨hops, t, path, v⟩).output).map fun u =>
        .ok (.success u) := by
    simp only [List.map_map]
    refine List.map_congr_left fun t ht => ?_
    obtain ⟨u, hu⟩ := hall t ht
    rw [Function.comp_apply, Function.comp_apply, Outcome.output_eq hu, hu]
  rw [outcome_eq, plan_intersection hk, Plan.outcome, Outcome.gatherMembers_nil_iff.mpr hsuccesses,
    ← Schema.mergeValidation_of_conflict hjoin]
  rfl

/-- An intersection gives a validation when all its members do. -/
theorem exists_outcome_intersection (hk : node.kind = .intersection members)
    (h : ∀ t ∈ members, ∃ r, outcome call ⟨hops, t, path, v⟩ = .ok r) :
    ∃ r, outcome call ⟨hops, node, path, v⟩ = .ok r := by
  have hall : ∀ o ∈ (members.map fun s => (⟨hops, s, path, v⟩ : Visit)).map (outcome call),
      ∃ r, o = .ok r := by
    simpa only [List.forall_mem_map] using h
  obtain ⟨r, hr⟩ := Outcome.exists_gatherMembers hall call.mode (node.stops call)
  rw [outcome_eq, plan_intersection hk, Plan.outcome, hr]
  exact ⟨_, rfl⟩

/-- The outputs of members repeat no key. -/
theorem outputs_distinctKeys (hv : v.DistinctKeys)
    (hkeys : ∀ t ∈ members, t.Everywhere call.options.arena Schema.KeepsKeys)
    (h : ∀ t ∈ members, ∃ u, outcome call ⟨hops, t, path, v⟩ = .ok (.success u)) :
    ∀ u ∈ members.map fun t => (outcome call ⟨hops, t, path, v⟩).output, u.DistinctKeys := by
  intro u hu
  obtain ⟨t, ht, rfl⟩ := List.mem_map.mp hu
  obtain ⟨u, hu⟩ := h t ht
  rw [Outcome.output_eq hu]
  exact outcome_distinctKeys call _ (hkeys t ht) hv u hu

/-- The order of its members makes no difference to what an intersection accepts, and none to its
output but for the order of keys and the sign of zero. -/
theorem outcome_intersection_perm {other : Schema} {others : List Schema}
    (hk : node.kind = .intersection members) (hk' : other.kind = .intersection others)
    (hperm : members.Perm others) (hv : v.DistinctKeys)
    (hkeys : ∀ t ∈ members, t.Everywhere call.options.arena Schema.KeepsKeys)
    (hw : outcome call ⟨hops, node, path, v⟩ = .ok (.success w)) :
    ∃ u, outcome call ⟨hops, other, path, v⟩ = .ok (.success u) ∧ w.Alike u := by
  obtain ⟨hall, hjoin⟩ := (outcome_intersection_iff hk).mp hw
  have hrel := Schema.joined?_perm (v := v)
    (hperm.map fun t => (outcome call ⟨hops, t, path, v⟩).output)
    (outputs_distinctKeys hv hkeys hall)
  rw [hjoin] at hrel
  generalize hjoin' : Schema.joined? v _ = joined at hrel
  cases hrel with
  | some halike =>
      refine ⟨_, (outcome_intersection_iff hk').mpr ⟨fun t ht => ?_, hjoin'⟩, halike⟩
      exact hall t (hperm.mem_iff.mpr ht)

end Visit

/-! ## A repeated member -/

namespace Visit

variable {call : Call} {hops : Nat} {path : Path} {v w : Value} {node s : Schema}

/-- A repeated member succeeds when it does by itself with numbers only, and gives what it gives by
itself. -/
theorem outcome_intersection_self_iff (hk : node.kind = .intersection [s, s]) (hv : v.DistinctKeys)
    (hs : s.Everywhere call.options.arena Schema.KeepsKeys) :
    outcome call ⟨hops, node, path, v⟩ = .ok (.success w) ↔
      outcome call ⟨hops, s, path, v⟩ = .ok (.success w) ∧ w.IsNumeric := by
  have hkeys : ∀ u, outcome call ⟨hops, s, path, v⟩ = .ok (.success u) → u.DistinctKeys :=
    outcome_distinctKeys call ⟨hops, s, path, v⟩ hs hv
  rw [outcome_intersection_iff hk, List.map_cons, List.map_singleton, Schema.joined?_self]
  constructor
  · rintro ⟨hall, hmerge⟩
    obtain ⟨u, hu⟩ := hall s (List.mem_cons_self ..)
    rw [Outcome.output_eq hu] at hmerge
    obtain ⟨hn, rfl⟩ := (Value.merge?_self_iff (hkeys u hu)).mp hmerge
    exact ⟨hu, hn⟩
  · rintro ⟨hw, hn⟩
    refine ⟨fun t ht => ⟨w, ?_⟩, ?_⟩
    · obtain rfl : t = s := by simpa using ht
      exact hw
    · rw [Outcome.output_eq hw]
      exact (Value.merge?_self_iff (hkeys w hw)).mpr ⟨hn, rfl⟩

/-- What holds a number that is none is in conflict with itself. -/
theorem outcome_intersection_self_of_not_isNumeric (hk : node.kind = .intersection [s, s])
    (hv : v.DistinctKeys) (hs : s.Everywhere call.options.arena Schema.KeepsKeys)
    (hw : outcome call ⟨hops, s, path, v⟩ = .ok (.success w)) (hn : ¬ w.IsNumeric) :
    outcome call ⟨hops, node, path, v⟩ =
      .ok (.failure ⟨call.issue .invalidIntersection path node.settings.typeMessage v, []⟩) := by
  refine outcome_intersection_conflict hk (fun t ht => ⟨w, ?_⟩) ?_
  · obtain rfl : t = s := by simpa using ht
    exact hw
  · rw [List.map_cons, List.map_singleton, Schema.joined?_self, Outcome.output_eq hw]
    cases hm : w.merge? w with
    | none => rfl
    | some m =>
        have hkeys := outcome_distinctKeys call _ hs hv w hw
        exact absurd ((Value.merge?_self_iff hkeys).mp hm).1 hn

end Visit

/-! ## Calls -/

namespace Schema

open Value (Alike merge?)

/-- An intersection of members that all give a validation gives one too.  It succeeds just when they
do and their outputs merge from left to right.  The order of the members makes no difference: one
order succeeds just when the other does, and the outputs differ in the order of keys and the sign of
zero at most.  Merging is commutative and associative in this sense. -/
theorem intersection_perm (node other : Schema) {members others : List Schema}
    (hk : node.kind = .intersection members) (hk' : other.kind = .intersection others)
    (hperm : members.Perm others) (mode : Mode) (options : Options) (v : Value)
    (hv : v.DistinctKeys) (hkeys : ∀ t ∈ members, t.Everywhere options.arena KeepsKeys)
    (hcache : ∀ s ∈ [node, other], options.Truthful s mode v)
    (hok : ∀ t ∈ members, ∃ r, (t.parseFresh ⟨options, mode⟩ v).1 = .ok r) :
    ((∃ r, (node.safeParse mode options v).result = .ok r) ∧
      ∃ r, (other.safeParse mode options v).result = .ok r) ∧
    (∀ w, (node.safeParse mode options v).result = .ok (.success w) ↔
      (∀ t ∈ members, ∃ u, (t.parseFresh ⟨options, mode⟩ v).1 = .ok (.success u)) ∧
        joined? v (members.map fun t => Outcome.output (t.parseFresh ⟨options, mode⟩ v).1) =
          some w) ∧
    ((∃ w, (node.safeParse mode options v).result = .ok (.success w)) ↔
      ∃ w, (other.safeParse mode options v).result = .ok (.success w)) ∧
    (∀ w u, (node.safeParse mode options v).result = .ok (.success w) →
      (other.safeParse mode options v).result = .ok (.success u) → w.Alike u) ∧
    (∀ a b : Value, a.DistinctKeys → b.DistinctKeys →
      Option.Rel Alike (merge? a b) (merge? b a)) ∧
    ∀ a b c : Value, a.DistinctKeys → b.DistinctKeys → c.DistinctKeys →
      Option.Rel Alike ((merge? a b).bind (merge? · c)) ((merge? b c).bind (merge? a ·)) := by
  have hkeys' : ∀ t ∈ others, t.Everywhere options.arena KeepsKeys :=
    fun t ht => hkeys t (hperm.mem_iff.mpr ht)
  have hok' : ∀ t ∈ others, ∃ r, (t.parseFresh ⟨options, mode⟩ v).1 = .ok r :=
    fun t ht => hok t (hperm.mem_iff.mpr ht)
  rw [safeParse_of_truthful (hcache node (by simp)), safeParse_of_truthful (hcache other (by simp))]
  refine ⟨⟨Visit.exists_outcome_intersection hk hok, Visit.exists_outcome_intersection hk' hok'⟩,
    fun w => Visit.outcome_intersection_iff hk, ⟨fun ⟨w, hw⟩ => ?_, fun ⟨w, hw⟩ => ?_⟩,
    fun w u hw hu => ?_, fun a b ha hb => Value.merge?_comm ha hb,
    fun a b c ha hb hc => Value.merge?_assoc ha hb hc⟩
  · obtain ⟨u, hu, -⟩ := Visit.outcome_intersection_perm hk hk' hperm hv hkeys hw
    exact ⟨u, hu⟩
  · obtain ⟨u, hu, -⟩ := Visit.outcome_intersection_perm hk' hk hperm.symm hv hkeys' hw
    exact ⟨u, hu⟩
  · obtain ⟨x, hx, halike⟩ := Visit.outcome_intersection_perm hk hk' hperm hv hkeys hw
    obtain rfl := Validation.success.inj (Except.ok.inj (hx.symm.trans hu))
    exact halike

/-- A position on a line. -/
def acrossNode : Schema :=
  ⟨1, .object ⟨[("x", ⟨0, .leaf .number, .empty, {}⟩)]⟩ .strip, .empty, {}⟩

/-- A height. -/
def upNode : Schema :=
  ⟨3, .object ⟨[("y", ⟨2, .leaf .number, .empty, {}⟩)]⟩ .strip, .empty, {}⟩

/-- A point. -/
def pointNode : Schema := ⟨4, .intersection [acrossNode, upNode], .empty, {}⟩

/-- A point, its height first. -/
def turnedPointNode : Schema := ⟨5, .intersection [upNode, acrossNode], .empty, {}⟩

theorem keepsKeys_of_kind {s : Schema} (heffect : ∀ inner effect, s.kind ≠ .effects inner effect)
    (hdefault : ∀ inner value, s.kind ≠ .default inner value) : s.KeepsKeys :=
  ⟨fun inner effect hk => absurd hk (heffect inner effect),
    fun inner value hk => absurd hk (hdefault inner value)⟩

theorem coordinate_keepsKeys (arena : Option Arena) (id id' : Nat) (key : String) :
    (⟨id, .object ⟨[(key, ⟨id', .leaf .number, .empty, {}⟩)]⟩ .strip, .empty, {}⟩ :
      Schema).Everywhere arena KeepsKeys := by
  refine .of_children nofun (keepsKeys_of_kind nofun nofun) (List.forall_mem_singleton.mpr ?_)
  exact .of_children nofun (keepsKeys_of_kind nofun nofun) nofun

/-- A point as it may come in. -/
def pointInput : Value := .record [("y", .ofNat 2), ("x", .ofNat 1)]

theorem pointInput_distinctKeys : pointInput.DistinctKeys := by
  refine .record (by decide) (List.forall_mem_cons.mpr ⟨.flat rfl rfl, ?_⟩)
  exact List.forall_mem_singleton.mpr (.flat rfl rfl)

theorem pointNode_turned :
    (pointNode.safeParse .deferred {} pointInput).result =
        .ok (.success (.record [("x", .ofNat 1), ("y", .ofNat 2)])) ∧
      (turnedPointNode.safeParse .deferred {} pointInput).result =
        .ok (.success (.record [("y", .ofNat 2), ("x", .ofNat 1)])) ∧
      (Value.record [("x", .ofNat 1), ("y", .ofNat 2)]).Alike
        (.record [("y", .ofNat 2), ("x", .ofNat 1)]) := by
  have hpoint : (pointNode.safeParse .deferred {} pointInput).result =
      .ok (.success (.record [("x", .ofNat 1), ("y", .ofNat 2)])) := rfl
  have hturned : (turnedPointNode.safeParse .deferred {} pointInput).result =
      .ok (.success (.record [("y", .ofNat 2), ("x", .ofNat 1)])) := rfl
  have hall := intersection_perm pointNode turnedPointNode rfl rfl (.swap _ _ _)
    .deferred {} pointInput pointInput_distinctKeys
    (List.forall_mem_cons.mpr ⟨coordinate_keepsKeys _ _ _ _,
      List.forall_mem_singleton.mpr (coordinate_keepsKeys _ _ _ _)⟩)
    (fun _ _ _ hr => nomatch hr)
    (List.forall_mem_cons.mpr ⟨⟨_, rfl⟩, List.forall_mem_singleton.mpr ⟨_, rfl⟩⟩)
  exact ⟨hpoint, hturned, hall.2.2.2.1 _ _ hpoint hturned⟩

/-- The options of a caller who has parsed zero with a schema and keeps a cache. -/
def optionsAfterZero (s : Schema) : Options where
  cache := (s.safeParse .immediate { cache := some {} } (.number (.zero false))).cache

/-- A text, to which numbers are converted. -/
def numeral : Schema := ⟨7, .leaf .string, .empty, { coerces := true }⟩

/-- A text of one character at most, to which numbers are converted. -/
def digit : Schema :=
  ⟨8, .leaf .string, ⟨[{ check := .max (.ofNat 1) true }]⟩, { coerces := true }⟩

/-- A text of one character, twice over. -/
def digitPair : Schema := ⟨9, .intersection [digit, numeral], .empty, {}⟩

/-- The same in the other order. -/
def turnedDigitPair : Schema := ⟨10, .intersection [numeral, digit], .empty, {}⟩

/-- The two zeros are equal, so what a cache remembers for one of them is given for the other one.
The text of negative zero has two characters, which shows in the order that was not called
before. -/
theorem digitPair_turned_after_zero :
    (∀ t ∈ [digit, numeral], ∃ r, (t.parseFresh ⟨optionsAfterZero digitPair, .immediate⟩
      (.number (.zero true))).1 = .ok r) ∧
    (digitPair.safeParse .immediate (optionsAfterZero digitPair) (.number (.zero true))).result =
      .ok (.success (.string "0")) ∧
    ¬ ∃ w, (turnedDigitPair.safeParse .immediate (optionsAfterZero digitPair)
      (.number (.zero true))).result = .ok (.success w) := by
  refine ⟨List.forall_mem_cons.mpr ⟨⟨_, rfl⟩, List.forall_mem_singleton.mpr ⟨_, rfl⟩⟩, rfl, ?_⟩
  rintro ⟨w, hw⟩
  obtain ⟨f, hf⟩ : ∃ f, (turnedDigitPair.safeParse .immediate (optionsAfterZero digitPair)
      (.number (.zero true))).result = .ok (.failure f) := ⟨_, rfl⟩
  cases hf.symm.trans hw

/-- A member of an intersection that is repeated changes nothing when every number in its output is
one, and is in conflict with itself otherwise.  Merging a value with itself gives that value in
the first case, and nothing in the second. -/
theorem intersection_self (node s : Schema) (hk : node.kind = .intersection [s, s]) (mode : Mode)
    (options : Options) (v : Value) (hv : v.DistinctKeys)
    (hs : s.Everywhere options.arena KeepsKeys)
    (hcache : ∀ t ∈ [node, s], options.Truthful t mode v)
    (hok : ∃ r, (s.safeParse mode options v).result = .ok r) :
    (∃ r, (node.safeParse mode options v).result = .ok r) ∧
    (∀ w, (node.safeParse mode options v).result = .ok (.success w) ↔
      (s.safeParse mode options v).result = .ok (.success w) ∧ w.IsNumeric) ∧
    (∀ w, (s.safeParse mode options v).result = .ok (.success w) → ¬ w.IsNumeric →
      (node.safeParse mode options v).result = .ok (.failure
        ⟨Call.issue ⟨options, mode⟩ .invalidIntersection .root node.settings.typeMessage v, []⟩)) ∧
    ∀ a m : Value, a.DistinctKeys → (merge? a a = some m ↔ a.IsNumeric ∧ m = a) := by
  have hself := safeParse_of_truthful (hcache s (by simp))
  rw [hself] at hok
  rw [hself, safeParse_of_truthful (hcache node (by simp))]
  refine ⟨Visit.exists_outcome_intersection hk fun t ht => ?_,
    fun w => Visit.outcome_intersection_self_iff hk hv hs,
    fun w hw hn => Visit.outcome_intersection_self_of_not_isNumeric hk hv hs hw hn,
    fun a m ha => Value.merge?_self_iff ha⟩
  obtain rfl : t = s := by simpa using ht
  exact hok

/-- A position twice. -/
def acrossTwice : Schema := ⟨6, .intersection [acrossNode, acrossNode], .empty, {}⟩

theorem acrossTwice_same :
    (acrossTwice.safeParse .immediate {} pointInput).result =
      .ok (.success (.record [("x", .ofNat 1)])) := by
  have hacross : (acrossNode.safeParse .immediate {} pointInput).result =
      .ok (.success (.record [("x", .ofNat 1)])) := rfl
  have hnumeric : (Value.record [("x", .ofNat 1)]).IsNumeric := by
    refine Value.Throughout.object nofun fun k w hk => ?_
    have hmem : (k, w) ∈ [("x", Value.ofNat 1)] := Entries.mem_of_get? hk
    obtain ⟨-, rfl⟩ := Prod.mk.inj (List.mem_singleton.mp hmem)
    exact Value.IsNumeric.number rfl
  have hall := intersection_self acrossTwice acrossNode rfl .immediate {} pointInput
    pointInput_distinctKeys (coordinate_keepsKeys _ _ _ _) (fun _ _ _ hr => nomatch hr)
    ⟨_, hacross⟩
  exact (hall.2.1 _).mpr ⟨hacross, hnumeric⟩

/-- Anything. -/
def anythingNode : Schema := ⟨0, .leaf .any, .empty, {}⟩

/-- Anything twice. -/
def anythingTwice : Schema := ⟨1, .intersection [anythingNode, anythingNode], .empty, {}⟩

/-- A text of one character, to which numbers are converted, twice. -/
def digitTwice : Schema := ⟨11, .intersection [digit, digit], .empty, {}⟩

/-- What is not a number is let through once, and refused when it is asked for twice.  A cache that
remembers zero lets negative zero through once too. -/
theorem asked_twice_refused :
    ((anythingNode.safeParse .immediate {} (.number (.nan false))).result =
        .ok (.success (.number (.nan false))) ∧
      ¬ (∃ w, (anythingTwice.safeParse .immediate {} (.number (.nan false))).result =
        .ok (.success w)) ∧
      merge? (.number (.nan false)) (.number (.nan false)) = none) ∧
    (digit.safeParse .immediate (optionsAfterZero digit) (.number (.zero true))).result =
        .ok (.success (.string "0")) ∧
      ¬ ∃ w, (digitTwice.safeParse .immediate (optionsAfterZero digit)
        (.number (.zero true))).result = .ok (.success w) := by
  refine ⟨⟨rfl, ?_, rfl⟩, rfl, ?_⟩
  · rintro ⟨w, hw⟩
    have hrefused : (anythingTwice.safeParse .immediate {} (.number (.nan false))).result =
        .ok (.failure ⟨⟨.invalidIntersection, .root, "intersection results could not be merged",
          .number (.nan false)⟩, []⟩) := rfl
    cases hrefused.symm.trans hw
  · rintro ⟨w, hw⟩
    obtain ⟨f, hf⟩ : ∃ f, (digitTwice.safeParse .immediate (optionsAfterZero digit)
        (.number (.zero true))).result = .ok (.failure f) := ⟨_, rfl⟩
    cases hf.symm.trans hw

end Schema

end ValueSchema
