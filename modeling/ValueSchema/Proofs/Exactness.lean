import ValueSchema.Proofs.Parity
import ValueSchema.Proofs.Reassembly

/-!
# Exactness

Where nothing is converted, a schema accepts just the values that conform to it, and gives them
back up to the order of keys.  An output is accepted again, as it is.

`Schema.Exact` says this about one schema, at any place and in any call.  A node is exact when
its inner schemas are: `Schema.exact_leaf`, `Schema.exact_container`, `Schema.exact_union` and
`Schema.exact_wrapper`.  From these, `Schema.exact_of_structural` is an induction over schemas, and
`Schema.succeeds_iff_conforms` is what it says about calls.
-/

namespace ValueSchema

/-! ## Plans without misuses -/

namespace Plan

variable {mode : Mode} {visit : Visit → Outcome} {ts : List Visit}

theorem gather_ok {stops : Bool} {os : List Outcome} (h : ∀ o ∈ os, ∃ r, o = .ok r) :
    ∃ r, Outcome.gather stops os = .ok r := by
  cases hg : Outcome.gather stops os with
  | error e =>
      obtain ⟨r, hr⟩ := h _ (Outcome.mem_of_gather_error hg)
      cases hr
  | ok r => exact ⟨r, rfl⟩

theorem choose_ok {os : List Outcome} (h : ∀ o ∈ os, ∃ r, o = .ok r) :
    ∃ r, Outcome.choose os = .ok r := by
  induction os with
  | nil => exact ⟨_, rfl⟩
  | cons o os ih =>
      obtain ⟨⟨r, rfl⟩, hos⟩ := List.forall_mem_cons.mp h
      cases r with
      | success w => exact ⟨_, rfl⟩
      | failure is =>
          obtain ⟨r, hr⟩ := ih hos
          rw [Outcome.choose, hr]
          exact ⟨_, rfl⟩

/-- A container is a misuse only when a part is. -/
theorem parts_ok {own : List Issue} {stops : Bool} {build : List Value → Validation}
    (h : ∀ t ∈ ts, ∃ r, visit t = .ok r) :
    ∃ r, (parts own stops ts build).outcome mode visit = .ok r := by
  have hall : ∀ o ∈ Outcome.raised own ++ ts.map visit, ∃ r, o = .ok r := by
    intro o ho
    rcases List.mem_append.mp ho with hown | hts
    · cases own with
      | nil => cases hown
      | cons i is => exact ⟨_, List.mem_singleton.mp hown⟩
    · obtain ⟨t, ht, rfl⟩ := List.mem_map.mp hts
      exact h t ht
  obtain ⟨r, hr⟩ := gather_ok hall
  rw [outcome, conclude, hr]
  exact ⟨_, rfl⟩

/-- A union is a misuse only when a member is. -/
theorem union_ok {refusal : List Issue → Issue} (h : ∀ t ∈ ts, ∃ r, visit t = .ok r) :
    ∃ r, (union ts refusal).outcome mode visit = .ok r := by
  have hall : ∀ o ∈ ts.map visit, ∃ r, o = .ok r := by
    intro o ho
    obtain ⟨t, ht, rfl⟩ := List.mem_map.mp ho
    exact h t ht
  obtain ⟨r, hr⟩ := choose_ok hall
  rw [outcome, hr]
  exact ⟨_, rfl⟩

theorem choose_succeeds {os : List Outcome} (h : ∀ o ∈ os, ∃ r, o = .ok r) {w : Value}
    (hw : .ok (.success w) ∈ os) : ∃ u, Outcome.choose os = .ok (.ok u) := by
  induction os with
  | nil => cases hw
  | cons o os ih =>
      obtain ⟨⟨r, rfl⟩, hos⟩ := List.forall_mem_cons.mp h
      cases r with
      | success u => exact ⟨u, rfl⟩
      | failure is =>
          rcases List.mem_cons.mp hw with he | hw
          · cases he
          · obtain ⟨u, hu⟩ := ih hos hw
            rw [Outcome.choose, hu]
            exact ⟨u, rfl⟩

/-- A union none of whose members is a misuse succeeds when one of them does. -/
theorem union_succeeds {refusal : List Issue → Issue} (h : ∀ t ∈ ts, ∃ r, visit t = .ok r)
    {t : Visit} (ht : t ∈ ts) {w : Value} (hw : visit t = .ok (.success w)) :
    ∃ u, (union ts refusal).outcome mode visit = .ok (.success u) := by
  have hall : ∀ o ∈ ts.map visit, ∃ r, o = .ok r := by
    intro o ho
    obtain ⟨t, ht, rfl⟩ := List.mem_map.mp ho
    exact h t ht
  have hmem : .ok (.success w) ∈ ts.map visit := List.mem_map.mpr ⟨t, ht, hw⟩
  obtain ⟨u, hu⟩ := choose_succeeds hall hmem
  rw [outcome, hu]
  exact ⟨u, rfl⟩

end Plan

namespace Schema

variable {node : Schema} {call : Call} {path : Path} {hops : Nat} {v w : Value}

/-! ## Checks that only test -/

theorem leftBy_plain_iff {es : List CheckEntry} (hplain : ∀ e ∈ es, e.check.IsPlain) :
    leftBy es v = some w ↔ w = v ∧ ∀ e ∈ es, e.check.evaluate v = .pass := by
  constructor
  · exact pass_of_leftBy fun e he => (hplain e he).keeps
  · rintro ⟨rfl, hpass⟩
    exact leftBy_eq_some hpass

theorem Structural.leftBy_filter_iff (hnode : node.Structural) {select : CheckKind → Bool} :
    leftBy (node.checks.entries.filter fun e => select e.kind) v = some w ↔
      w = v ∧ ∀ e ∈ node.checks.entries, select e.kind = true → e.check.evaluate v = .pass := by
  have hplain : ∀ e ∈ node.checks.entries.filter fun e => select e.kind, e.check.IsPlain :=
    fun e he => hnode.plainChecks e (List.mem_filter.mp he).1
  rw [leftBy_plain_iff hplain]
  refine and_congr_right fun _ => ?_
  simp only [List.mem_filter, and_imp]

theorem Structural.checked_nil_iff (hnode : node.Structural) {select : CheckKind → Bool} :
    (node.checked call path select v).1 = [] ↔
      ∀ e ∈ node.checks.entries, select e.kind = true → e.check.evaluate v = .pass := by
  constructor
  · intro hnil
    have hpair : node.checked call path select v = ([], (node.checked call path select v).2) :=
      Prod.ext hnil rfl
    exact (hnode.leftBy_filter_iff.mp (checkedBy_nil_iff.mp hpair)).2
  · intro hpass
    have hpair : node.checked call path select v = ([], v) :=
      checkedBy_nil_iff.mpr (hnode.leftBy_filter_iff.mpr ⟨rfl, hpass⟩)
    rw [hpair]

/-- The checks before the descent into a container pass its value. -/
def PassesBefore (node : Schema) (v : Value) : Prop :=
  ∀ e ∈ node.checks.entries, node.runsLater e.kind = false → e.check.evaluate v = .pass

/-- The checks after the descent into a container pass what it is put together to. -/
def PassesAfter (node : Schema) (v : Value) : Prop :=
  ∀ e ∈ node.checks.entries, node.runsLater e.kind = true → e.check.evaluate v = .pass

theorem passes_iff :
    (∀ e ∈ node.checks.entries, e.check.evaluate v = .pass) ↔
      node.PassesBefore v ∧ node.PassesAfter v := by
  constructor
  · exact fun h => ⟨fun e he _ => h e he, fun e he _ => h e he⟩
  · rintro ⟨hbefore, hafter⟩ e he
    cases hk : node.runsLater e.kind with
    | false => exact hbefore e he hk
    | true => exact hafter e he hk

/-! ## Leaves -/

/-- What a schema says about plain values, in any call and at any place. -/
structure Exact (s : Schema) : Prop where
  answers : ∀ call hops path v, ∃ r, Visit.outcome call ⟨hops, s, path, v⟩ = .ok r
  sound : ∀ {call hops path v w}, v.Plain → Visit.outcome call ⟨hops, s, path, v⟩ = .ok (.success w) →
    s.Conforms v ∧ v.Rearranged w
  complete : ∀ call hops path {v}, v.Plain → s.Conforms v →
    ∃ w, Visit.outcome call ⟨hops, s, path, v⟩ = .ok (.success w)
  stable : ∀ {call hops path v w}, v.Plain →
    Visit.outcome call ⟨hops, s, path, v⟩ = .ok (.success w) →
      ∀ call hops path, Visit.outcome call ⟨hops, s, path, w⟩ = .ok (.success w)

theorem outcome_eq_plan :
    Visit.outcome call ⟨hops, node, path, v⟩ =
      (node.plan call path v hops).outcome call.mode (Visit.outcome call) :=
  Visit.outcome_eq call _

theorem leaf_success_iff {l : Leaf} (hnode : node.Structural) (hk : node.kind = .leaf l) :
    Visit.outcome call ⟨hops, node, path, v⟩ = .ok (.success w) ↔ node.Conforms v ∧ w = v := by
  rw [outcome_eq_plan, conforms_iff]
  unfold plan
  rw [hk]
  dsimp only [Plan.outcome]
  rw [Except.ok.injEq, leafValidation_success_iff, hnode.noCoercion, hnode.noCast,
    if_neg (by simp), Leaf.refusal?_eq_none_iff]
  simp only [leftBy_plain_iff hnode.plainChecks, Bool.false_eq_true, if_false, Kind.Matches]
  constructor
  · rintro ⟨hl, u, ⟨rfl, hpass⟩, rfl⟩
    exact ⟨⟨hl, hpass⟩, rfl⟩
  · rintro ⟨⟨hl, hpass⟩, rfl⟩
    exact ⟨hl, w, ⟨rfl, hpass⟩, rfl⟩

theorem exact_leaf {l : Leaf} (hnode : node.Structural) (hk : node.kind = .leaf l) :
    node.Exact where
  answers call hops path v := by
    rw [outcome_eq_plan]
    unfold plan
    rw [hk]
    exact ⟨_, rfl⟩
  sound hv h := by
    obtain ⟨hconforms, rfl⟩ := (leaf_success_iff hnode hk).mp h
    exact ⟨hconforms, .refl _⟩
  complete call hops path v hv hconforms := ⟨v, (leaf_success_iff hnode hk).mpr ⟨hconforms, rfl⟩⟩
  stable hv h call hops path := by
    obtain ⟨hconforms, rfl⟩ := (leaf_success_iff hnode hk).mp h
    exact (leaf_success_iff hnode hk).mpr ⟨hconforms, rfl⟩

/-! ## Unions -/

section Unions

variable {members : List Schema}

theorem union_outcome (hk : node.kind = .union members) :
    Visit.outcome call ⟨hops, node, path, v⟩ =
      (Plan.union (members.map fun s => ⟨hops, s, path, v⟩) fun is =>
        call.issue (.invalidUnion is) path node.settings.typeMessage v).outcome call.mode
          (Visit.outcome call) := by
  rw [outcome_eq_plan]
  unfold plan
  rw [hk]

/-- A union gives the output of its first member that accepts the value. -/
theorem union_member_iff (hk : node.kind = .union members) :
    Visit.outcome call ⟨hops, node, path, v⟩ = .ok (.success w) ↔
      ∃ before t after, members = before ++ t :: after ∧
        (∀ u ∈ before, ∃ is, Visit.outcome call ⟨hops, u, path, v⟩ = .ok (.failure is)) ∧
        Visit.outcome call ⟨hops, t, path, v⟩ = .ok (.success w) := by
  rw [union_outcome hk, Plan.union_success_iff]
  constructor
  · rintro ⟨before, t, after, hsplit, hbefore, ht⟩
    obtain ⟨ms, rest, rfl, rfl, hrest⟩ := List.map_eq_append_iff.mp hsplit
    obtain ⟨m, ms', rfl, rfl, -⟩ := List.map_eq_cons_iff.mp hrest
    exact ⟨ms, m, ms', rfl, fun u hu => hbefore _ (List.mem_map_of_mem hu), ht⟩
  · rintro ⟨before, t, after, rfl, hbefore, ht⟩
    refine ⟨before.map fun s => ⟨hops, s, path, v⟩, ⟨hops, t, path, v⟩,
      after.map fun s => ⟨hops, s, path, v⟩, by simp, fun u hu => ?_, ht⟩
    obtain ⟨m, hm, rfl⟩ := List.mem_map.mp hu
    exact hbefore m hm

theorem exact_union (hnode : node.Everywhere none Structural) (hk : node.kind = .union members)
    (ih : ∀ t ∈ members, t.Exact) : node.Exact where
  answers call hops path v := by
    rw [union_outcome hk]
    refine Plan.union_ok fun t ht => ?_
    obtain ⟨m, hm, rfl⟩ := List.mem_map.mp ht
    exact (ih m hm).answers call hops path v
  sound hv h := by
    obtain ⟨before, t, after, rfl, -, ht⟩ := (union_member_iff hk).mp h
    have hmem : t ∈ before ++ t :: after := by simp
    obtain ⟨hconforms, hrearranged⟩ := (ih t hmem).sound hv ht
    refine ⟨conforms_iff.mpr ⟨?_, ?_⟩, hrearranged⟩
    · rw [hk]
      exact ⟨t, hmem, hconforms⟩
    · rw [hnode.here.checks_eq_nil fun k => by rw [hk]; rfl]
      exact nofun
  complete call hops path v hv hconforms := by
    have hmatches := (conforms_iff.mp hconforms).1
    rw [hk] at hmatches
    obtain ⟨t, ht, hconforms⟩ := hmatches
    obtain ⟨w, hw⟩ := (ih t ht).complete call hops path hv hconforms
    rw [union_outcome hk]
    refine Plan.union_succeeds (fun u hu => ?_) (List.mem_map_of_mem ht) hw
    obtain ⟨m, hm, rfl⟩ := List.mem_map.mp hu
    exact (ih m hm).answers call hops path v
  stable {call hops path v w} hv h call' hops' path' := by
    obtain ⟨before, t, after, rfl, hbefore, ht⟩ := (union_member_iff hk).mp h
    have hmem : t ∈ before ++ t :: after := by simp
    have hrearranged := ((ih t hmem).sound hv ht).2
    refine (union_member_iff hk).mpr ⟨before, t, after, rfl, fun u hu => ?_,
      (ih t hmem).stable hv ht call' hops' path'⟩
    -- A member that accepts the output conforms to it, and so it would have accepted the input.
    have hu' : u ∈ before ++ t :: after := List.mem_append_left _ hu
    have hinner : u.Everywhere none Structural := hnode.inside (.inl (by rw [hk]; exact hu'))
    obtain ⟨r, hr⟩ := (ih u hu').answers call' hops' path' w
    cases r with
    | failure is => exact ⟨is, hr⟩
    | success x =>
        have hconforms := ((ih u hu').sound (hrearranged.plain hv) hr).1
        have hconforms' := conforms_rearranged u hinner w v hrearranged.symm hconforms
        obtain ⟨y, hy⟩ := (ih u hu').complete call hops path hv hconforms'
        obtain ⟨is, his⟩ := hbefore u hu
        cases hy.symm.trans his

end Unions

/-! ## Wrappers -/

/-- A node that lets some values pass and leaves the others to its inner schema. -/
theorem exact_wrapper (skips : Value → Bool) {inner : Schema}
    (hplan : ∀ call path v hops, node.plan call path v hops =
      if skips v then .done (.ok (.success v)) else .pass ⟨hops, inner, path, v⟩)
    (hconforms : ∀ v, node.Conforms v ↔ skips v = true ∨ inner.Conforms v)
    (hskips : ∀ v w, v.Rearranged w → skips v = skips w) (ih : inner.Exact) : node.Exact := by
  have houtcome : ∀ call hops path v, Visit.outcome call ⟨hops, node, path, v⟩ =
      if skips v then .ok (.success v) else Visit.outcome call ⟨hops, inner, path, v⟩ := by
    intro call hops path v
    rw [outcome_eq_plan, hplan]
    cases skips v with
    | true => rfl
    | false => exact Plan.outcome_pass _ _ _
  constructor
  · intro call hops path v
    rw [houtcome]
    split
    · exact ⟨_, rfl⟩
    · exact ih.answers call hops path v
  · intro call hops path v w hv h
    rw [houtcome] at h
    rw [hconforms]
    split at h
    next hs =>
        obtain rfl := Validation.success.inj (Except.ok.inj h)
        exact ⟨.inl hs, .refl v⟩
    next => exact (ih.sound hv h).imp_left .inr
  · intro call hops path v hv h
    rw [houtcome]
    split
    next => exact ⟨v, rfl⟩
    next hs => exact ih.complete call hops path hv (((hconforms v).mp h).resolve_left hs)
  · intro call hops path v w hv h call' hops' path'
    rw [houtcome] at h ⊢
    split at h
    next hs =>
        obtain rfl := Validation.success.inj (Except.ok.inj h)
        rw [if_pos hs]
    next hs =>
        rw [← hskips v w (ih.sound hv h).2, if_neg hs]
        exact ih.stable hv h call' hops' path'

theorem conforms_of_unsupported (hnode : node.Structural)
    (hkind : ∀ k, node.kind.supports k = false) :
    node.Conforms v ↔ node.kind.Matches Conforms v := by
  rw [conforms_iff, hnode.checks_eq_nil hkind]
  exact and_iff_left nofun

theorem exact_optional {inner : Schema} (hnode : node.Structural) (hk : node.kind = .optional inner)
    (ih : inner.Exact) : node.Exact := by
  refine exact_wrapper Value.isUndefined ?_ ?_ (fun v w h => h.isUndefined_eq) ih
  · intro call path v hops
    unfold plan
    rw [hk]
  · intro v
    rw [conforms_of_unsupported hnode (by rw [hk]; exact fun _ => rfl), hk]
    cases v <;> simp [Kind.Matches, Value.isUndefined]

theorem exact_nullable {inner : Schema} (hnode : node.Structural) (hk : node.kind = .nullable inner)
    (ih : inner.Exact) : node.Exact := by
  refine exact_wrapper Value.isNull ?_ ?_ (fun v w h => by cases h <;> rfl) ih
  · intro call path v hops
    unfold plan
    rw [hk]
  · intro v
    rw [conforms_of_unsupported hnode (by rw [hk]; exact fun _ => rfl), hk]
    cases v <;> simp [Kind.Matches, Value.isNull]

theorem exact_brand {inner : Schema} {name : String} (hnode : node.Structural)
    (hk : node.kind = .brand inner name) (ih : inner.Exact) : node.Exact := by
  refine exact_wrapper (fun _ => false) ?_ ?_ (fun _ _ _ => rfl) ih
  · intro call path v hops
    unfold plan
    rw [hk]
    rfl
  · intro v
    rw [conforms_of_unsupported hnode (by rw [hk]; exact fun _ => rfl), hk]
    simp [Kind.Matches]

/-! ## Containers -/

theorem containerInput_eq (h : node.settings.coerces = false) : node.containerInput v = v := by
  unfold containerInput Settings.arrayInput Settings.setInput
  rw [h]
  split <;> cases v <;> rfl

theorem ownIssues_sized_iff (hnode : node.Structural)
    (hown : node.ownIssues call path v = (node.checked call path CheckKind.isSize v).1)
    (hlater : node.runsLater = fun k => !k.isSize) :
    node.ownIssues call path v = [] ↔ node.PassesBefore v := by
  rw [hown, hnode.checked_nil_iff, PassesBefore, hlater]
  simp only [Bool.not_eq_false']

/-- An array is measured before it is taken apart. -/
theorem ownIssues_array_iff {e : Schema} {items : List Value} (hnode : node.Structural)
    (hk : node.kind = .array e) :
    node.ownIssues call path (.array items) = [] ↔ node.PassesBefore (.array items) := by
  refine ownIssues_sized_iff hnode ?_ ?_
  · unfold ownIssues
    rw [containerInput_eq hnode.noCoercion, hk]
  · unfold runsLater
    rw [hk]

/-- A record is measured before it is taken apart. -/
theorem ownIssues_record_iff {key value : Schema} {input : Entries Value}
    (hnode : node.Structural) (hk : node.kind = .record key value) :
    node.ownIssues call path (.object input) = [] ↔ node.PassesBefore (.object input) := by
  refine ownIssues_sized_iff hnode ?_ ?_
  · unfold ownIssues
    rw [containerInput_eq hnode.noCoercion, hk]
  · unfold runsLater
    rw [hk]

theorem passesBefore_of_later (hlater : ∀ k, node.runsLater k = true) : node.PassesBefore v := by
  intro e _ hk
  cases (hlater e.kind).symm.trans hk

theorem runsLater_tuple {items : List Schema} {rest : Option Schema}
    (hk : node.kind = .tuple items rest) (k : CheckKind) : node.runsLater k = true := by
  unfold runsLater
  rw [hk]

theorem runsLater_object {shape : Entries Schema} {unknown : UnknownKeys Schema}
    (hk : node.kind = .object shape unknown) (k : CheckKind) : node.runsLater k = true := by
  unfold runsLater
  rw [hk]

section Containers

variable {parts : List Part} (hnode : node.Everywhere none Structural)

include hnode

/-- The parts of a container that raises no issue itself. -/
theorem taken_of_parts (hparts : node.parts? v call.options.arena = some parts)
    (hown : node.ownIssues call path v = []) : node.Taken v parts ∧ node.PassesBefore v := by
  have hinput := containerInput_eq (v := v) hnode.here.noCoercion
  cases hk : node.kind with
  | array e =>
      obtain ⟨items, hitems, rfl⟩ := (parts?_array_iff hk).mp hparts
      obtain rfl := hinput.symm.trans hitems
      rw [itemParts_eq_tupleParts]
      exact ⟨.array hk, (ownIssues_array_iff hnode.here hk).mp hown⟩
  | tuple items rest =>
      obtain ⟨values, hvalues, harity, rfl⟩ := (parts?_tuple_iff hk).mp hparts
      obtain rfl := hinput.symm.trans hvalues
      rw [hnode.slots_eq (fun _ h => h.kept) hk] at harity ⊢
      exact ⟨.tuple hk harity, passesBefore_of_later (runsLater_tuple hk)⟩
  | object shape unknown =>
      obtain ⟨input, rfl, rfl⟩ := (parts?_object_iff hk).mp hparts
      obtain ⟨habsent, hstrict⟩ := keyCauses_eq_nil_iff.mp ((ownIssues_object_iff hk).mp hown)
      rw [fieldParts_eq habsent]
      exact ⟨.object hk hstrict, passesBefore_of_later (runsLater_object hk)⟩
  | record key value =>
      obtain ⟨input, rfl, rfl⟩ := (parts?_record_iff hk).mp hparts
      exact ⟨.record hk, (ownIssues_record_iff hnode.here hk).mp hown⟩
  | set e =>
      have hstructural := hnode.here.structural
      rw [hk] at hstructural
      exact hstructural.elim
  | _ =>
      -- No other node has parts.
      unfold parts? at hparts
      rw [hk] at hparts
      cases hparts

/-- A container whose parts conform raises no issue itself.  Only here does it matter that an
absent key is accepted beforehand when the missing value conforms. -/
theorem parts_of_taken (h : node.Taken v parts) (hparts : ∀ p ∈ parts, p.schema.Conforms p.value)
    (hbefore : node.PassesBefore v) :
    node.parts? v call.options.arena = some parts ∧ node.ownIssues call path v = [] := by
  cases h with
  | array hk =>
      refine ⟨(parts?_array_iff hk).mpr ⟨_, containerInput_eq hnode.here.noCoercion, ?_⟩,
        (ownIssues_array_iff hnode.here hk).mpr hbefore⟩
      exact itemParts_eq_tupleParts _ _
  | tuple hk harity =>
      have hslots := hnode.slots_eq (fun _ h => h.kept) hk
      refine ⟨(parts?_tuple_iff hk).mpr ⟨_, containerInput_eq hnode.here.noCoercion, ?_, ?_⟩, ?_⟩
      · rwa [hslots]
      · rw [hslots]
      · unfold ownIssues
        rw [hk]
  | @object shape unknown input hk hstrict =>
      have habsent : absentKeys call.options.arena shape input = [] := by
        refine List.map_eq_nil_iff.mpr (List.filter_eq_nil_iff.mpr ?_)
        rintro ⟨k, s⟩ he hmissing
        rw [Bool.and_eq_true, Bool.not_eq_true', Bool.not_eq_true'] at hmissing
        obtain ⟨hkey, haccepts⟩ := hmissing
        have hnone : input.get? k = none := by
          rw [Entries.hasKey] at hkey
          simpa using hkey
        have hp := hparts ⟨.field k, s, (input.get? k).getD .undefined⟩
          (List.mem_append_left _ (List.mem_map.mpr ⟨(k, s), he, rfl⟩))
        rw [hnone] at hp
        cases (acceptsUndefinedIn_of_conforms hp _).symm.trans haccepts
      refine ⟨(parts?_object_iff hk).mpr ⟨input, rfl, ?_⟩, ?_⟩
      · rw [fieldParts_eq habsent]
        rfl
      · exact (ownIssues_object_iff hk).mpr (keyCauses_eq_nil_iff.mpr ⟨habsent, hstrict⟩)
  | record hk =>
      exact ⟨(parts?_record_iff hk).mpr ⟨_, rfl, rfl⟩,
        (ownIssues_record_iff hnode.here hk).mpr hbefore⟩

/-- What a container succeeds with. -/
theorem taken_of_success
    (h : (node.containerPlan call path v hops).outcome call.mode (Visit.outcome call) =
      .ok (.success w)) :
    ∃ parts, ∃ f : Part → Value, node.Taken v parts ∧ node.PassesBefore v ∧
      (∀ p ∈ parts, Visit.outcome call (p.visit hops path) = .ok (.success (f p))) ∧
      w = node.assemble v parts (parts.map f) ∧ node.PassesAfter w := by
  obtain ⟨parts, hparts, hown, f, hf, u, hu, hw⟩ := containerPlan_success_iff.mp h
  obtain ⟨htaken, hbefore⟩ := taken_of_parts hnode hparts hown
  obtain ⟨rfl, hafter⟩ := hnode.here.leftBy_filter_iff.mp hu
  rw [castOutput_of_noCast hnode.here.noCast] at hw
  subst hw
  exact ⟨parts, f, htaken, hbefore, hf, rfl, hafter⟩

/-- When a container succeeds. -/
theorem success_of_taken {f : Part → Value} (h : node.Taken v parts)
    (hparts : ∀ p ∈ parts, p.schema.Conforms p.value) (hbefore : node.PassesBefore v)
    (hf : ∀ p ∈ parts, Visit.outcome call (p.visit hops path) = .ok (.success (f p)))
    (hafter : node.PassesAfter (node.assemble v parts (parts.map f))) :
    (node.containerPlan call path v hops).outcome call.mode (Visit.outcome call) =
      .ok (.success (node.assemble v parts (parts.map f))) := by
  obtain ⟨hp, hown⟩ := parts_of_taken hnode h hparts hbefore
  refine containerPlan_success_iff.mpr ⟨parts, hp, hown, f, hf,
    node.assemble v parts (parts.map f), ?_, ?_⟩
  · exact hnode.here.leftBy_filter_iff.mpr ⟨rfl, hafter⟩
  · exact castOutput_of_noCast hnode.here.noCast _

end Containers

/-! ## Exact containers -/

section Containers

variable {parts : List Part} {f : Part → Value}

theorem container_outcome (hparts : node.HasParts) :
    Visit.outcome call ⟨hops, node, path, v⟩ =
      (node.containerPlan call path v hops).outcome call.mode (Visit.outcome call) := by
  rw [outcome_eq_plan]
  unfold HasParts at hparts
  unfold plan
  cases hk : node.kind with
  | array e => rfl
  | set e => rfl
  | tuple items rest => rfl
  | object shape unknown => rfl
  | record key value => rfl
  | _ =>
      rw [hk] at hparts
      exact hparts.elim

variable (hnode : node.Everywhere none Structural) (ih : ∀ t ∈ node.kind.children, t.Exact)

include ih

theorem container_answers :
    ∃ r, (node.containerPlan call path v hops).outcome call.mode (Visit.outcome call) = .ok r := by
  unfold containerPlan
  cases hp : node.parts? v call.options.arena with
  | none => exact ⟨_, rfl⟩
  | some parts =>
      refine Plan.parts_ok fun t ht => ?_
      obtain ⟨p, hmem, rfl⟩ := List.mem_map.mp ht
      exact (ih _ (parts?_schema hp p hmem)).answers ..

include hnode

/-- Parts that succeed conform, and their outputs are rearranged. -/
theorem parts_sound (hv : v.Plain) (h : node.Taken v parts)
    (hf : ∀ p ∈ parts, Visit.outcome call (p.visit hops path) = .ok (.success (f p))) :
    (∀ p ∈ parts, p.schema.Conforms p.value) ∧ ∀ p ∈ parts, p.value.Rearranged (f p) := by
  have hall : ∀ p ∈ parts, p.schema.Conforms p.value ∧ p.value.Rearranged (f p) := by
    intro p hp
    have hplain := h.plain hnode.here.toWellBuilt hv hp
    exact (ih _ (h.schema_mem hp)).sound hplain (hf p hp)
  exact ⟨fun p hp => (hall p hp).1, fun p hp => (hall p hp).2⟩

theorem container_sound (hv : v.Plain)
    (h : (node.containerPlan call path v hops).outcome call.mode (Visit.outcome call) =
      .ok (.success w)) : node.Conforms v ∧ v.Rearranged w := by
  obtain ⟨parts, f, htaken, hbefore, hf, rfl, hafter⟩ := taken_of_success hnode h
  obtain ⟨hconforms, hout⟩ := parts_sound hnode ih hv htaken hf
  have hrearranged := htaken.rearranged hnode.here hv hout
  refine ⟨conforms_iff.mpr ⟨?_, ?_⟩, hrearranged⟩
  · exact (htaken.matches_iff hnode.here.toWellBuilt hv).mpr hconforms
  · -- The later checks have seen the output, which differs from the input in its order only.
    refine passes_iff.mpr ⟨hbefore, fun e he hk => ?_⟩
    exact (hnode.here.passes_iff hrearranged he).mpr (hafter e he hk)

theorem container_complete (hparts : node.HasParts) (hv : v.Plain) (h : node.Conforms v) :
    ∃ w, (node.containerPlan call path v hops).outcome call.mode (Visit.outcome call) =
      .ok (.success w) := by
  obtain ⟨hmatches, hchecks⟩ := conforms_iff.mp h
  obtain ⟨parts, htaken⟩ := exists_taken hparts hmatches
  have hconforms := (htaken.matches_iff hnode.here.toWellBuilt hv).mp hmatches
  have hf : ∀ p ∈ parts, Visit.outcome call (p.visit hops path) =
      .ok (.success (Visit.outcome call (p.visit hops path)).output) := by
    intro p hp
    have hplain := htaken.plain hnode.here.toWellBuilt hv hp
    obtain ⟨w, hw⟩ := (ih _ (htaken.schema_mem hp)).complete call hops (path.push p.segment)
      hplain (hconforms p hp)
    have hvisit : Visit.outcome call (p.visit hops path) = .ok (.success w) := hw
    rw [Outcome.output_eq hvisit, hvisit]
  have hrearranged := htaken.rearranged hnode.here hv (parts_sound hnode ih hv htaken hf).2
  refine ⟨_, success_of_taken hnode htaken hconforms (passes_iff.mp hchecks).1 hf fun e he _ => ?_⟩
  exact (hnode.here.passes_iff hrearranged he).mp (hchecks e he)

theorem container_stable {call' : Call} {hops' : Nat} {path' : Path} (hparts : node.HasParts)
    (hv : v.Plain)
    (h : (node.containerPlan call path v hops).outcome call.mode (Visit.outcome call) =
      .ok (.success w)) :
    (node.containerPlan call' path' w hops').outcome call'.mode (Visit.outcome call') =
      .ok (.success w) := by
  obtain ⟨hconforms, hrearranged⟩ := container_sound hnode ih hv h
  have hplain := hrearranged.plain hv
  have hconforms' := conforms_rearranged node hnode v w hrearranged hconforms
  obtain ⟨hmatches, hchecks⟩ := conforms_iff.mp hconforms'
  obtain ⟨again, hagain⟩ := exists_taken hparts hmatches
  have hall := (hagain.matches_iff hnode.here.toWellBuilt hplain).mp hmatches
  obtain ⟨parts, f, htaken, -, hf, rfl, -⟩ := taken_of_success hnode h
  have hout := (parts_sound hnode ih hv htaken hf).2
  -- A part of the output is itself the output of a part, and so it is accepted as it is.
  have hstable : ∀ q ∈ again, Visit.outcome call' (q.visit hops' path') = .ok (.success q.value) := by
    intro q hq
    obtain ⟨p, hp, hschema, hvalue⟩ := htaken.exists_part hnode.here hv hout hagain hq
    have hpart := htaken.plain hnode.here.toWellBuilt hv hp
    have hagain := (ih _ (htaken.schema_mem hp)).stable hpart (hf p hp) call' hops'
      (path'.push q.segment)
    rw [Part.visit, hschema, hvalue]
    exact hagain
  have hback := htaken.assemble_again hnode.here hv hout hagain
  have hsuccess := success_of_taken hnode hagain hall (passes_iff.mp hchecks).1 hstable
    (hback.symm ▸ (passes_iff.mp hchecks).2)
  rwa [hback] at hsuccess

/-- A container is exact when its parts are. -/
theorem exact_container (hparts : node.HasParts) : node.Exact where
  answers call hops path v := by
    rw [container_outcome hparts]
    exact container_answers ih
  sound hv h := by
    rw [container_outcome hparts] at h
    exact container_sound hnode ih hv h
  complete call hops path v hv h := by
    simp only [container_outcome hparts]
    exact container_complete hnode ih hparts hv h
  stable hv h call hops path := by
    rw [container_outcome hparts] at h ⊢
    exact container_stable hnode ih hparts hv h

end Containers

/-! ## All schemas -/

/-- Every schema that only tests is exact. -/
theorem exact_of_structural (s : Schema) : s.Everywhere none Structural → s.Exact := by
  induction s using Schema.induction with
  | h s ih =>
      intro hs
      have hinner : ∀ t ∈ s.kind.children, t.Exact := fun t ht => ih t ht (hs.inside (.inl ht))
      cases hk : s.kind with
      | leaf l => exact exact_leaf hs.here hk
      | array e => exact exact_container hs hinner (by rw [HasParts, hk]; trivial)
      | tuple items rest => exact exact_container hs hinner (by rw [HasParts, hk]; trivial)
      | object shape unknown => exact exact_container hs hinner (by rw [HasParts, hk]; trivial)
      | record key value => exact exact_container hs hinner (by rw [HasParts, hk]; trivial)
      | union members =>
          rw [hk] at hinner
          exact exact_union hs hk hinner
      | optional inner =>
          rw [hk] at hinner
          exact exact_optional hs.here hk (hinner inner (List.mem_singleton.mpr rfl))
      | nullable inner =>
          rw [hk] at hinner
          exact exact_nullable hs.here hk (hinner inner (List.mem_singleton.mpr rfl))
      | brand inner name =>
          rw [hk] at hinner
          exact exact_brand hs.here hk (hinner inner (List.mem_singleton.mpr rfl))
      | _ =>
          have hstructural := hs.here.structural
          rw [hk] at hstructural
          exact hstructural.elim

/-- A call that is not answered from a cache succeeds with a schema that only tests just when
the value conforms to it, and refuses the value otherwise.  The output is the value up to the
order of keys, and every other call gives it back as it is. -/
theorem succeeds_iff_conforms (s : Schema) (mode : Mode) (options : Options) (v : Value)
    (hcache : options.cache.bind (·.find? s.id v) = none) (hs : s.Everywhere none Structural)
    (hv : v.Plain) :
    ((∃ w, (s.safeParse mode options v).result = .ok (.success w)) ↔ s.Conforms v) ∧
    ((∃ is, (s.safeParse mode options v).result = .ok (.failure is)) ↔ ¬ s.Conforms v) ∧
    ∀ w, (s.safeParse mode options v).result = .ok (.success w) →
      v.Rearranged w ∧ ∀ (again : Mode) (others : Options),
        others.cache.bind (·.find? s.id w) = none →
        (s.safeParse again others w).result = .ok (.success w) := by
  have hexact := exact_of_structural s hs
  rw [safeParse_result s mode options v hcache]
  have hsound : ∀ w, (s.rootVisit ⟨options, mode⟩ v).outcome ⟨options, mode⟩ = .ok (.success w) →
      s.Conforms v ∧ v.Rearranged w := fun w hw => hexact.sound hv hw
  have hcomplete : s.Conforms v →
      ∃ w, (s.rootVisit ⟨options, mode⟩ v).outcome ⟨options, mode⟩ = .ok (.success w) :=
    fun hconforms => hexact.complete _ _ _ hv hconforms
  refine ⟨⟨fun ⟨w, hw⟩ => (hsound w hw).1, hcomplete⟩, ⟨?_, ?_⟩, fun w hw => ⟨(hsound w hw).2, ?_⟩⟩
  · rintro ⟨is, his⟩ hconforms
    obtain ⟨w, hw⟩ := hcomplete hconforms
    cases hw.symm.trans his
  · intro hnot
    obtain ⟨r, hr⟩ := hexact.answers ⟨options, mode⟩ (hopsOf ⟨options, mode⟩) .root v
    cases r with
    | success w => exact absurd (hsound w hr).1 hnot
    | failure is => exact ⟨is, hr⟩
  · intro again others hothers
    rw [safeParse_result s again others w hothers]
    exact hexact.stable hv hw ..

/-- A text that is not empty. -/
def nameNode : Schema := ⟨0, .leaf .string, ⟨[{ check := .min (.ofNat 1) true }]⟩, {}⟩

/-- A number. -/
def ordinalNode : Schema := ⟨1, .leaf .number, .empty, {}⟩

/-- A number or a text that is not empty. -/
def referenceNode : Schema := ⟨2, .union [ordinalNode, nameNode], .empty, {}⟩

/-- Names that differ. -/
def namesNode : Schema := ⟨3, .array nameNode, ⟨[{ check := .unique none false }]⟩, {}⟩

/-- Names, or none. -/
def someNamesNode : Schema := ⟨4, .optional namesNode, .empty, {}⟩

/-- An object with a reference and perhaps names, which keeps other keys. -/
def entryNode : Schema :=
  ⟨5, .object ⟨[("ref", referenceNode), ("names", someNamesNode)]⟩ .passthrough, .empty, {}⟩

theorem nameNode_structural : nameNode.Everywhere none Structural := by
  refine .of_children nofun ⟨⟨?_, nofun⟩, trivial, ?_, rfl, rfl, rfl⟩ nofun
  · intro e he
    rw [List.mem_singleton.mp he]
    rfl
  · intro e he
    rw [List.mem_singleton.mp he]
    trivial

theorem referenceNode_structural : referenceNode.Everywhere none Structural := by
  have hordinal : ordinalNode.Everywhere none Structural :=
    .of_children nofun ⟨⟨nofun, nofun⟩, trivial, nofun, rfl, rfl, rfl⟩ nofun
  refine .of_children nofun ⟨⟨nofun, nofun⟩, trivial, nofun, rfl, rfl, rfl⟩ ?_
  exact List.forall_mem_cons.mpr ⟨hordinal, List.forall_mem_singleton.mpr nameNode_structural⟩

theorem someNamesNode_structural : someNamesNode.Everywhere none Structural := by
  have hnames : namesNode.Everywhere none Structural := by
    refine .of_children nofun ⟨⟨?_, nofun⟩, trivial, ?_, rfl, rfl, rfl⟩
      (List.forall_mem_singleton.mpr nameNode_structural)
    · intro e he
      rw [List.mem_singleton.mp he]
      rfl
    · intro e he
      rw [List.mem_singleton.mp he]
      exact ⟨rfl, rfl⟩
  exact .of_children nofun ⟨⟨nofun, nofun⟩, trivial, nofun, rfl, rfl, rfl⟩
    (List.forall_mem_singleton.mpr hnames)

theorem entryNode_structural : entryNode.Everywhere none Structural := by
  refine .of_children nofun ⟨⟨nofun, ?_⟩, trivial, nofun, rfl, rfl, rfl⟩ ?_
  · rintro shape unknown ⟨⟩
    decide
  · exact List.forall_mem_cons.mpr
      ⟨referenceNode_structural, List.forall_mem_singleton.mpr someNamesNode_structural⟩

/-- An entry with its keys in another order than declared, and one more. -/
def entryInput : Value :=
  .record [("note", .null), ("names", .array [.string "b", .string "a"]), ("ref", .string "x1")]

/-- The entry as it is given back. -/
def entryOutput : Value :=
  .record [("ref", .string "x1"), ("names", .array [.string "b", .string "a"]), ("note", .null)]

theorem entryInput_plain : entryInput.Plain := by
  have hnames : Value.Plain (.array [.string "b", .string "a"]) := by
    refine .array (List.forall_mem_cons.mpr ⟨.scalar rfl rfl, ?_⟩)
    exact List.forall_mem_singleton.mpr (.scalar rfl rfl)
  refine .of_entries (by decide) (List.forall_mem_cons.mpr ⟨⟨rfl, .scalar rfl rfl⟩, ?_⟩)
  refine List.forall_mem_cons.mpr ⟨⟨rfl, hnames⟩, ?_⟩
  exact List.forall_mem_singleton.mpr ⟨rfl, .scalar rfl rfl⟩

theorem entryNode_exact :
    entryNode.Conforms entryInput ∧ entryInput.Rearranged entryOutput ∧
      (entryNode.safeParse .immediate { abortEarly := some true } entryOutput).result =
        .ok (.success entryOutput) := by
  have h : (entryNode.safeParse .deferred {} entryInput).result = .ok (.success entryOutput) :=
    (entryNode.safeParse_uncached _ _ _ rfl).trans ((Visit.outcome_eq _ _).trans rfl)
  obtain ⟨hiff, -, hback⟩ := succeeds_iff_conforms entryNode .deferred {} entryInput rfl
    entryNode_structural entryInput_plain
  exact ⟨hiff.mp ⟨_, h⟩, (hback _ h).1, (hback _ h).2 .immediate { abortEarly := some true } rfl⟩

end Schema

end ValueSchema
