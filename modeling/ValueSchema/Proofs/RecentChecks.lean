import ValueSchema.Proofs.BuilderCalls

/-!
# The check that a message is for

`Edit.error` gives its message to the entry that stands last in the registry.  An entry that
replaces another one of its kind stands where that one stood, so the last entry need not be the
one that was written last.

A `DatedCheck` is an entry together with two calls of builders: the one that first put a check
in its place, and the one that put this check there.  `DatedCheck.history` dates the registry of a
schema along a run of builders.  The first dates ascend from the start of the registry to its end
(`Dated.after`), hence the message goes to the entry whose place is the newest
(`Schema.error_words_newest_place`).  The entry with the newest of the second dates is the check
that was added last (`Dated.newest_written_add`).
-/

namespace ValueSchema

/-- An entry with another message. -/
def CheckEntry.reworded (e : CheckEntry) (message : String) : CheckEntry :=
  { e with message := some message }

/-- An entry of a registry and when it got there. -/
structure DatedCheck where
  /-- The entry. -/
  entry : CheckEntry
  /-- The number of the call that put a check at the end of the registry, in this place. -/
  placed : Nat
  /-- The number of the last call that put a check in this place. -/
  written : Nat

namespace DatedCheck

/-! ## Registries with dates -/

/-- Puts an entry in the place of the first one of its kind. -/
def overwriteFirst (e : CheckEntry) (now : Nat) : List DatedCheck → List DatedCheck
  | [] => []
  | d :: ds =>
      if d.entry.kind = e.kind then ⟨e, d.placed, now⟩ :: ds else d :: overwriteFirst e now ds
termination_by structural ds => ds

/-- Adds an entry, in the place of one of its kind or at the end. -/
def add (e : CheckEntry) (beside : Bool) (now : Nat) (ds : List DatedCheck) : List DatedCheck :=
  if !beside && ds.any (·.entry.kind = e.kind) then overwriteFirst e now ds
  else ds ++ [⟨e, now, now⟩]

/-- An entry with another message, with the same dates. -/
def reworded (d : DatedCheck) (message : String) : DatedCheck :=
  { d with entry := d.entry.reworded message }

/-- Gives the last entry a message. -/
def rewordLast (message : String) (ds : List DatedCheck) : List DatedCheck :=
  match ds.getLast? with
  | some d => ds.dropLast ++ [d.reworded message]
  | none => ds

/-- The registry after call number `now`, which is called on a node of the given kind.  A node
that is wrapped starts over, without checks. -/
def after (kind : Kind Schema) (now : Nat) (ds : List DatedCheck) : Edit → List DatedCheck
  | .addCheck c => if kind.supports c.kind then add ⟨c, none⟩ (c.kind = .custom) now ds else ds
  | .withoutCheck k => ds.filter (·.entry.kind ≠ k)
  | .error message => rewordLast message ds
  | .optional => []
  | .nullable => []
  | .nullish => []
  | .default _ => []
  | .brand _ => []
  | .pipe _ => []
  | .or _ => []
  | .and _ => []
  | .effect _ => []
  | _ => ds

/-- The registry of a schema after a run of builders, the first of which is call number `now`. -/
def history (s : Schema) (n now : Nat) (ds : List DatedCheck) : List Edit → List DatedCheck
  | [] => ds
  | e :: es =>
      history ((s.apply e).run n).1 ((s.apply e).run n).2 (now + 1) (after s.kind now ds e) es
termination_by structural es => es

/-- The registry that a run of builders starts from.  Its entries count as added one after
another, by one call each. -/
def start (s : Schema) : List DatedCheck := s.checks.entries.mapIdx fun i e => ⟨e, i, i⟩

/-- The entry whose date is the latest. -/
def Newest (date : DatedCheck → Nat) (ds : List DatedCheck) (d : DatedCheck) : Prop :=
  d ∈ ds ∧ ∀ c ∈ ds, date c ≤ date d

/-! ## Dates along a run -/

/-- What is true of the dates in a registry before call number `now`. -/
structure Dated (now : Nat) (ds : List DatedCheck) : Prop where
  /-- Places are in the order in which they were taken. -/
  ascending : (ds.map placed).Pairwise (· < ·)
  /-- A call writes one entry. -/
  distinct : (ds.map written).Nodup
  /-- An entry is written after its place has been taken, and before the call. -/
  ordered : ∀ d ∈ ds, d.placed ≤ d.written ∧ d.written < now

variable {now : Nat} {ds : List DatedCheck} {e : CheckEntry}

theorem map_entry_overwriteFirst :
    (overwriteFirst e now ds).map entry = Checks.replaceFirst e (ds.map entry) := by
  induction ds with
  | nil => rfl
  | cons d ds ih =>
      rw [overwriteFirst, List.map_cons, Checks.replaceFirst]
      split
      · rfl
      · rw [List.map_cons, ih]

theorem map_placed_overwriteFirst : (overwriteFirst e now ds).map placed = ds.map placed := by
  induction ds with
  | nil => rfl
  | cons d ds ih =>
      rw [overwriteFirst]
      split
      · rfl
      · rw [List.map_cons, List.map_cons, ih]

theorem mem_overwriteFirst {c : DatedCheck} (h : c ∈ overwriteFirst e now ds) :
    c ∈ ds ∨ ∃ d ∈ ds, c = ⟨e, d.placed, now⟩ := by
  induction ds with
  | nil => exact .inl h
  | cons d ds ih =>
      rw [overwriteFirst] at h
      split at h
      · rcases List.mem_cons.mp h with rfl | hm
        · exact .inr ⟨d, List.mem_cons_self .., rfl⟩
        · exact .inl (List.mem_cons_of_mem d hm)
      · rcases List.mem_cons.mp h with rfl | hm
        · exact .inl (List.mem_cons_self ..)
        · rcases ih hm with hm | ⟨d', hd', hc⟩
          · exact .inl (List.mem_cons_of_mem d hm)
          · exact .inr ⟨d', List.mem_cons_of_mem d hd', hc⟩

/-- A place of the kind is found when there is one. -/
theorem exists_mem_overwriteFirst (now : Nat) (h : ds.any (·.entry.kind = e.kind) = true) :
    ∃ d ∈ ds, ⟨e, d.placed, now⟩ ∈ overwriteFirst e now ds := by
  induction ds with
  | nil => cases h
  | cons d ds ih =>
      rw [overwriteFirst]
      split
      next => exact ⟨d, List.mem_cons_self .., List.mem_cons_self ..⟩
      next hd =>
          rw [List.any_cons, decide_eq_false hd, Bool.false_or] at h
          obtain ⟨d', hd', hm⟩ := ih h
          exact ⟨d', List.mem_cons_of_mem d hd', List.mem_cons_of_mem d hm⟩

theorem nodup_written_overwriteFirst (hdistinct : (ds.map written).Nodup)
    (hpast : ∀ d ∈ ds, d.written < now) : ((overwriteFirst e now ds).map written).Nodup := by
  induction ds with
  | nil => exact hdistinct
  | cons d ds ih =>
      obtain ⟨hhead, htail⟩ := List.nodup_cons.mp hdistinct
      obtain ⟨hd, hds⟩ := List.forall_mem_cons.mp hpast
      rw [overwriteFirst]
      split
      · refine List.nodup_cons.mpr ⟨fun hm => ?_, htail⟩
        obtain ⟨c, hc, hnow⟩ := List.mem_map.mp hm
        exact absurd hnow (Nat.ne_of_lt (hds c hc))
      · refine List.nodup_cons.mpr ⟨fun hm => ?_, ih htail hds⟩
        obtain ⟨c, hc, hwritten⟩ := List.mem_map.mp hm
        rcases mem_overwriteFirst hc with hc | ⟨c', -, rfl⟩
        · exact hhead (List.mem_map.mpr ⟨c, hc, hwritten⟩)
        · exact absurd hwritten.symm (Nat.ne_of_lt hd)

theorem map_entry_add (beside : Bool) (cs : Checks) (hcs : cs.entries = ds.map entry) :
    (add e beside now ds).map entry = (cs.add e beside).entries := by
  have hany : ds.any (·.entry.kind = e.kind) = cs.hasKind e.kind := by
    rw [Checks.hasKind, hcs, List.any_map]
    rfl
  rw [add, Checks.add, hany]
  split
  · rw [map_entry_overwriteFirst, hcs]
  · rw [List.map_append, hcs]
    rfl

theorem rewordLast_concat (message : String) (before : List DatedCheck) (d : DatedCheck) :
    rewordLast message (before ++ [d]) = before ++ [d.reworded message] := by
  rw [rewordLast, List.getLast?_concat, List.dropLast_concat]

theorem map_entry_rewordLast (message : String) (cs : Checks) (hcs : cs.entries = ds.map entry) :
    (rewordLast message ds).map entry = (cs.setLastMessage message).entries := by
  rw [rewordLast, Checks.setLastMessage, hcs, List.getLast?_map]
  cases ds.getLast? with
  | none => exact hcs.symm
  | some d =>
      rw [List.map_append, List.map_dropLast]
      rfl

namespace Dated

variable (h : Dated now ds)

include h

theorem mono {later : Nat} (hle : now ≤ later) : Dated later ds where
  ascending := h.ascending
  distinct := h.distinct
  ordered d hd := ⟨(h.ordered d hd).1, Nat.lt_of_lt_of_le (h.ordered d hd).2 hle⟩

theorem add (e : CheckEntry) (beside : Bool) : Dated (now + 1) (add e beside now ds) := by
  unfold DatedCheck.add
  split
  · refine ⟨?_, ?_, fun c hc => ?_⟩
    · rw [map_placed_overwriteFirst]
      exact h.ascending
    · exact nodup_written_overwriteFirst h.distinct fun d hd => (h.ordered d hd).2
    · rcases mem_overwriteFirst hc with hc | ⟨d, hd, rfl⟩
      · exact (h.mono (Nat.le_succ now)).ordered c hc
      · obtain ⟨hplaced, hwritten⟩ := h.ordered d hd
        exact ⟨Nat.le_trans hplaced (Nat.le_of_lt hwritten), Nat.lt_succ_self now⟩
  · have hlast {date : DatedCheck → Nat} (hdate : ∀ d ∈ ds, date d < now) :
        ∀ n ∈ ds.map date, n < now := by
      rintro n hn
      obtain ⟨d, hd, rfl⟩ := List.mem_map.mp hn
      exact hdate d hd
    refine ⟨?_, ?_, fun c hc => ?_⟩
    · rw [List.map_append]
      refine List.pairwise_append.mpr ⟨h.ascending, List.pairwise_singleton .., fun n hn m hm => ?_⟩
      rw [List.mem_singleton.mp hm]
      exact hlast (fun d hd => Nat.lt_of_le_of_lt (h.ordered d hd).1 (h.ordered d hd).2) n hn
    · rw [List.map_append]
      refine List.nodup_append.mpr ⟨h.distinct, List.pairwise_singleton .., fun n hn m hm => ?_⟩
      rw [List.mem_singleton.mp hm]
      exact Nat.ne_of_lt (hlast (fun d hd => (h.ordered d hd).2) n hn)
    · rcases List.mem_append.mp hc with hc | hc
      · exact (h.mono (Nat.le_succ now)).ordered c hc
      · rw [List.mem_singleton.mp hc]
        exact ⟨Nat.le_refl now, Nat.lt_succ_self now⟩

/-- Entries may be removed. -/
theorem sublist {ds' : List DatedCheck} (hsub : ds'.Sublist ds) : Dated now ds' where
  ascending := h.ascending.sublist (hsub.map placed)
  distinct := h.distinct.sublist (hsub.map written)
  ordered d hd := h.ordered d (hsub.subset hd)

/-- Entries may be reworded. -/
theorem rewordLast (message : String) : Dated now (rewordLast message ds) := by
  rcases List.eq_nil_or_concat ds with rfl | ⟨before, d, rfl⟩
  · exact h
  · rw [List.concat_eq_append] at h ⊢
    rw [rewordLast_concat]
    have hmap (date : DatedCheck → Nat) (d' : DatedCheck) (hd' : date d' = date d) :
        (before ++ [d']).map date = (before ++ [d]).map date := by
      rw [List.map_append, List.map_append, List.map_singleton, List.map_singleton, hd']
    refine ⟨?_, ?_, fun c hc => ?_⟩
    · exact (hmap placed (d.reworded message) rfl).symm ▸ h.ascending
    · exact (hmap written (d.reworded message) rfl).symm ▸ h.distinct
    · rcases List.mem_append.mp hc with hc | hc
      · exact h.ordered c (List.mem_append_left _ hc)
      · rw [List.mem_singleton.mp hc]
        exact h.ordered d (List.mem_append_right _ (List.mem_singleton_self d))

end Dated

/-- A call keeps the dates in order. -/
theorem Dated.after (h : Dated now ds) (kind : Kind Schema) (e : Edit) :
    Dated (now + 1) (after kind now ds e) := by
  have hnil : Dated (now + 1) [] := ⟨.nil, .nil, nofun⟩
  have hsame : Dated (now + 1) ds := h.mono (Nat.le_succ now)
  cases e with
  | addCheck c =>
      dsimp only [DatedCheck.after]
      split
      · exact h.add ⟨c, none⟩ _
      · exact hsame
  | withoutCheck k => exact hsame.sublist List.filter_sublist
  | error message => exact hsame.rewordLast message
  | optional => exact hnil
  | nullable => exact hnil
  | nullish => exact hnil
  | default _ => exact hnil
  | brand _ => exact hnil
  | pipe _ => exact hnil
  | or _ => exact hnil
  | and _ => exact hnil
  | effect _ => exact hnil
  | _ => exact hsame

/-- The dated registry after a call, without its dates. -/
theorem map_entry_after (now : Nat) (kind : Kind Schema) (cs : Checks)
    (hcs : cs.entries = ds.map entry) (e : Edit) :
    (after kind now ds e).map entry =
      (if e.keepsNode then e.recheck kind cs else .empty).entries := by
  cases e with
  | addCheck c =>
      have hkeeps : (Edit.addCheck c).keepsNode = true := rfl
      rw [after, if_pos hkeeps, Edit.recheck]
      split
      · exact map_entry_add _ cs hcs
      · exact hcs.symm
  | withoutCheck k =>
      show _ = cs.entries.filter _
      rw [hcs, List.filter_map]
      rfl
  | error message => exact map_entry_rewordLast message cs hcs
  | _ => first | rfl | exact hcs.symm

/-- The registry after a call is the dated one without its dates. -/
theorem apply_entries (now : Nat) (s : Schema) (hs : s.checks.entries = ds.map entry) (e : Edit) :
    (s.apply e).Makes fun t => t.checks.entries = (after s.kind now ds e).map entry := by
  intro n
  rw [map_entry_after now s.kind s.checks hs e, s.apply_checks e n]

/-- A run of builders keeps the dates in order, and its registry is the dated one without its
dates. -/
theorem history_entries (es : List Edit) :
    ∀ (s : Schema) (n now : Nat) (ds : List DatedCheck), Dated now ds →
      s.checks.entries = ds.map entry →
      Dated (now + es.length) (history s n now ds es) ∧
        ((s.applyAll es).run n).1.checks.entries = (history s n now ds es).map entry := by
  induction es with
  | nil => exact fun s n now ds h hs => ⟨h, hs⟩
  | cons e es ih =>
      intro s n now ds h hs
      obtain ⟨hdated, hentries⟩ := ih ((s.apply e).run n).1 ((s.apply e).run n).2 (now + 1)
        (after s.kind now ds e) (h.after s.kind e) (apply_entries now s hs e n)
      refine ⟨?_, hentries⟩
      have hlength : now + (e :: es).length = now + 1 + es.length := by
        rw [List.length_cons]
        omega
      rw [hlength]
      exact hdated

/-- The dates that a run starts with are in order. -/
theorem start_dated (s : Schema) : Dated s.checks.size (start s) := by
  have hdates (date : DatedCheck → Nat) (hdate : ∀ i e, date ⟨e, i, i⟩ = i) :
      (start s).map date = List.range s.checks.size := by
    refine List.ext_getElem (by simp [start, Checks.size]) fun i hi hi' => ?_
    simp [start, hdate]
  refine ⟨?_, ?_, fun d hd => ?_⟩
  · rw [hdates placed fun _ _ => rfl]
    exact List.pairwise_lt_range
  · rw [hdates written fun _ _ => rfl]
    exact List.nodup_range
  · obtain ⟨i, hi, rfl⟩ := List.mem_mapIdx.mp hd
    exact ⟨Nat.le_refl i, hi⟩

theorem map_entry_start (s : Schema) : s.checks.entries = (start s).map entry := by
  refine List.ext_getElem (by simp [start]) fun i hi hi' => ?_
  simp [start]

/-! ## The newest entry -/

/-- A check that is added is the one written last. -/
theorem Dated.newest_written_add (h : Dated now ds) (e : CheckEntry) (beside : Bool) :
    ∃ d, Newest written (DatedCheck.add e beside now ds) d ∧ d.entry = e := by
  have hnewest {d : DatedCheck} (hd : d ∈ DatedCheck.add e beside now ds)
      (hnow : d.written = now) : Newest written (DatedCheck.add e beside now ds) d := by
    refine ⟨hd, fun c hc => ?_⟩
    rw [hnow]
    exact Nat.lt_succ_iff.mp ((h.add e beside).ordered c hc).2
  cases hplace : !beside && ds.any (·.entry.kind = e.kind) with
  | true =>
      obtain ⟨d, -, hd⟩ := exists_mem_overwriteFirst now (Bool.and_eq_true_iff.mp hplace).2
      refine ⟨⟨e, d.placed, now⟩, hnewest ?_ rfl, rfl⟩
      rw [DatedCheck.add, hplace]
      exact hd
  | false =>
      refine ⟨⟨e, now, now⟩, hnewest ?_ rfl, rfl⟩
      rw [DatedCheck.add, hplace]
      exact List.mem_append_right _ (List.mem_singleton_self _)

/-- Some entry has the newest place, and it stands last. -/
theorem Dated.eq_concat (h : Dated now ds) (hne : ds ≠ []) :
    ∃ before d, ds = before ++ [d] ∧ Newest placed ds d ∧ ∀ c ∈ before, c.placed < d.placed := by
  rcases List.eq_nil_or_concat ds with rfl | ⟨before, d, rfl⟩
  · exact absurd rfl hne
  · rw [List.concat_eq_append] at h ⊢
    have hascending := h.ascending
    rw [List.map_append] at hascending
    have hbefore : ∀ c ∈ before, c.placed < d.placed := fun c hc =>
      (List.pairwise_append.mp hascending).2.2 _ (List.mem_map_of_mem hc) _
        (List.mem_singleton_self _)
    refine ⟨before, d, rfl, ⟨List.mem_append_right _ (List.mem_singleton_self d), ?_⟩, hbefore⟩
    rintro c hc
    rcases List.mem_append.mp hc with hc | hc
    · exact Nat.le_of_lt (hbefore c hc)
    · exact Nat.le_of_eq (congrArg placed (List.mem_singleton.mp hc))

section Last

variable {before : List DatedCheck} {d : DatedCheck} (hbefore : ∀ c ∈ before, c.placed < d.placed)

include hbefore

/-- An entry that was written last, and added to the end by that, stands last. -/
theorem eq_last_of_newest_written (h : Dated now (before ++ [d])) {c : DatedCheck}
    (hc : Newest written (before ++ [d]) c) (hnew : c.placed = c.written) : c = d := by
  have hd : d ∈ before ++ [d] := List.mem_append_right _ (List.mem_singleton_self d)
  have hle : d.placed ≤ c.placed := by
    calc d.placed ≤ d.written := (h.ordered d hd).1
      _ ≤ c.written := hc.2 d hd
      _ = c.placed := hnew.symm
  rcases List.mem_append.mp hc.1 with hm | hm
  · exact absurd (hbefore c hm) (Nat.not_lt.mpr hle)
  · exact List.mem_singleton.mp hm

/-- The entry with the newest place is the one that is reworded. -/
theorem map_entry_rewordLast_concat (message : String) :
    (rewordLast message (before ++ [d])).map entry = (before ++ [d]).map fun c =>
      if c.placed = d.placed then c.entry.reworded message else c.entry := by
  rw [rewordLast_concat, List.map_append, List.map_append, List.map_singleton, List.map_singleton,
    if_pos rfl]
  refine congrArg (· ++ _) (List.map_congr_left fun c hc => ?_)
  exact (if_neg (Nat.ne_of_lt (hbefore c hc))).symm

end Last

end DatedCheck

/-! ## Messages -/

open DatedCheck

namespace Schema

section Error

variable (s : Schema) (message : String) (n : Nat)

theorem kind_setError : ((s.setError message).run n).1.kind = s.kind := by
  unfold setError
  split <;> rfl

theorem settings_setError_of_isEmpty (h : s.checks.isEmpty = true) :
    ((s.setError message).run n).1.settings =
      { s.settings with typeMessage := some message } := by
  rw [setError, h]
  rfl

theorem settings_setError_of_not_isEmpty (h : s.checks.isEmpty = false) :
    ((s.setError message).run n).1.settings = s.settings := by
  rw [setError, h]
  rfl

end Error

/-- A message goes to the entry with the newest place, after any run of builders.  It is the entry
that was added last unless that one took over the place of another one.  Only a registry
without entries leaves the message to values of a wrong type. -/
theorem error_words_newest_place (s : Schema) (n : Nat) (es : List Edit) (message : String) :
    let t := ((s.applyAll es).run n).1
    let ds := history s n s.checks.size (start s) es
    t.checks.entries = ds.map entry ∧ Dated (s.checks.size + es.length) ds ∧
    (t.apply (.error message)).Makes fun u =>
      u.kind = t.kind ∧
      (ds = [] → u.checks.entries = [] ∧
        u.settings = { t.settings with typeMessage := some message }) ∧
      (ds ≠ [] → u.settings = t.settings ∧
        ∃ d, Newest placed ds d ∧
          u.checks.entries =
            ds.map (fun c => if c.placed = d.placed then c.entry.reworded message else c.entry) ∧
          ∀ c, Newest written ds c → c.placed = c.written → c = d) := by
  intro t ds
  obtain ⟨hdated, hentries⟩ : Dated (s.checks.size + es.length) ds ∧
      t.checks.entries = ds.map entry :=
    history_entries es s n s.checks.size (start s) (start_dated s) (map_entry_start s)
  refine ⟨hentries, hdated, fun m => ?_⟩
  have hafter : ((t.setError message).run m).1.checks.entries =
      (rewordLast message ds).map entry :=
    apply_entries 0 t hentries (.error message) m
  have hempty : t.checks.isEmpty = ds.isEmpty := by
    rw [Checks.isEmpty, hentries, List.isEmpty_map]
  refine ⟨?_, fun hnil => ⟨?_, ?_⟩, fun hne => ⟨?_, ?_⟩⟩
  · exact t.kind_setError message m
  · show ((t.setError message).run m).1.checks.entries = []
    rw [hafter, hnil]
    rfl
  · rw [hnil] at hempty
    exact t.settings_setError_of_isEmpty message m hempty
  · rw [List.isEmpty_eq_false_iff.mpr hne] at hempty
    exact t.settings_setError_of_not_isEmpty message m hempty
  · obtain ⟨before, d, hds, hd, hbefore⟩ := hdated.eq_concat hne
    refine ⟨d, hd, ?_, fun c hc hnew => ?_⟩
    · show ((t.setError message).run m).1.checks.entries = _
      rw [hafter, hds]
      exact map_entry_rewordLast_concat hbefore message
    · rw [hds] at hdated hc
      exact eq_last_of_newest_written hbefore hdated hc hnew

/-- The builder calls `min(1)`, `integer()` and `min(5)`. -/
def boundedAgain : List Edit := [.min (.ofNat 1), .addCheck .integer, .min (.ofNat 5)]

/-- On a number the bound that replaced the first one was written last, and the message goes to
the check for integers, whose place is newer. -/
theorem boundedAgain_misworded :
    let s : Schema := ⟨0, .leaf .number, .empty, {}⟩
    let t := ((s.applyAll boundedAgain).run 1).1
    let bound : DatedCheck := ⟨⟨.min (.ofNat 5) true, none⟩, 0, 2⟩
    Newest written (history s 1 0 (start s) boundedAgain) bound ∧
      t.checks.entries = [bound.entry, ⟨.integer, none⟩] ∧
      ((t.apply (.error "too small")).run 4).1.checks.entries =
        [bound.entry, ⟨.integer, some "too small"⟩] ∧
      ((t.apply (.error "too small")).run 4).1.checks.entries ≠
        [bound.entry.reworded "too small", ⟨.integer, none⟩] := by
  have hhistory : history ⟨0, .leaf .number, .empty, {}⟩ 1 0 (start ⟨0, .leaf .number, .empty, {}⟩)
      boundedAgain = [⟨⟨.min (.ofNat 5) true, none⟩, 0, 2⟩, ⟨⟨.integer, none⟩, 1, 1⟩] := rfl
  refine ⟨?_, rfl, rfl, fun h => ?_⟩
  · rw [hhistory]
    refine ⟨List.mem_cons_self .., fun c hc => ?_⟩
    rcases List.mem_cons.mp hc with rfl | hc
    · exact Nat.le_refl 2
    · rw [List.mem_singleton.mp hc]
      exact Nat.le_succ 1
  · cases congrArg (List.map CheckEntry.message) h

end Schema

end ValueSchema
