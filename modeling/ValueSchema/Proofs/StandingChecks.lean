import ValueSchema.Proofs.RecentChecks

/-!
# What a run of builders leaves in the registry

The registry of a node can be read off the calls of builders that made the node, without
following them one by one.  A check is *standing* when a call adds it, the kind of the node supports
it, and no later call removes its kind (`standing`).  Each of the named checks has a place of its
own.  Of every other kind the first standing check fixes the place and the last one takes it
(`Check.settled`).

`Schema.apply_registry` says what one call does to the registry, and `Schema.registry_of_calls`
what a whole run leaves there.  A call that the kind of the node does not support gives the node
back, with its id (`Schema.apply_refused`).
-/

namespace ValueSchema

/-! ## Calls -/

namespace Edit

/-- The check that a call adds to a node that supports the given kinds of checks. -/
def added? (supports : CheckKind → Bool) : Edit → Option Check
  | .addCheck c => if supports c.kind then some c else none
  | _ => none

/-- Whether a call removes the checks of a kind. -/
def removes (k : CheckKind) : Edit → Bool
  | .withoutCheck j => j = k
  | _ => false

end Edit

/-! ## Standing checks and their places -/

/-- The checks that a run adds to a node and that no later call of the run removes, in the order of
the calls. -/
def standing (supports : CheckKind → Bool) : List Edit → List Check
  | [] => []
  | e :: es =>
      (e.added? supports).toList.filter (fun c => !es.any (·.removes c.kind)) ++
        standing supports es
termination_by structural es => es

namespace Check

/-- Whether two checks compete for one place: they are of one kind, and are not named ones. -/
def competes (c d : Check) : Bool := c.kind = d.kind && c.kind ≠ .custom

/-- The checks that come before all others that compete with them. -/
def leading : List Check → List Check
  | [] => []
  | c :: cs => c :: (leading cs).filter (!·.competes c)
termination_by structural cs => cs

/-- The last check that competes with a given one for its place. -/
def latest (cs : List Check) (c : Check) : Check := (cs.filter (·.competes c)).getLastD c

/-- One check for each place: the places in the order of their first checks, each with the last
check that competes for it. -/
def settled (cs : List Check) : List Check := (leading cs).map (latest cs)

section Places

variable {c d : Check} {cs : List Check} {k : CheckKind}

theorem competes_iff : c.competes d = true ↔ c.kind = d.kind ∧ c.kind ≠ .custom := by
  rw [competes, Bool.and_eq_true, decide_eq_true_iff, decide_eq_true_iff]

theorem competes_comm (c d : Check) : c.competes d = d.competes c := by
  rw [Bool.eq_iff_iff, competes_iff, competes_iff]
  constructor
  · exact fun ⟨hkind, hnamed⟩ => ⟨hkind.symm, hkind ▸ hnamed⟩
  · exact fun ⟨hkind, hnamed⟩ => ⟨hkind.symm, hkind ▸ hnamed⟩

theorem kind_latest : (latest cs c).kind = c.kind := by
  rw [latest, List.getLastD_eq_getLast?]
  cases h : (cs.filter (·.competes c)).getLast? with
  | none => rfl
  | some d => exact (competes_iff.mp (List.mem_filter.mp (List.mem_of_getLast? h)).2).1

theorem mem_of_mem_leading (h : c ∈ leading cs) : c ∈ cs := by
  induction cs with
  | nil => exact h
  | cons d cs ih =>
      rcases List.mem_cons.mp h with rfl | hm
      · exact List.mem_cons_self ..
      · exact List.mem_cons_of_mem d (ih (List.mem_filter.mp hm).1)

/-- No two leading checks compete. -/
theorem leading_pairwise (cs : List Check) :
    (leading cs).Pairwise fun c d => d.competes c = false := by
  induction cs with
  | nil => exact .nil
  | cons c cs ih =>
      refine List.pairwise_cons.mpr ⟨fun d hd => ?_, ih.filter _⟩
      exact Bool.not_eq_true' _ ▸ (List.mem_filter.mp hd).2

/-- What competes with a check competes with all that the check competes with. -/
theorem competes_trans {b : Check} (hb : b.competes c = true) (hc : c.competes d = true) :
    b.competes d = true := by
  obtain ⟨hbc, hnamed⟩ := competes_iff.mp hb
  exact competes_iff.mpr ⟨hbc.trans (competes_iff.mp hc).1, hnamed⟩

/-- Whether a check competes for a place shows at the check that opens the place. -/
theorem any_leading (cs : List Check) (c : Check) :
    (leading cs).any (·.competes c) = cs.any (·.competes c) := by
  rw [Bool.eq_iff_iff, List.any_eq_true, List.any_eq_true]
  refine ⟨fun ⟨d, hd, hc⟩ => ⟨d, mem_of_mem_leading hd, hc⟩, ?_⟩
  induction cs with
  | nil => exact fun h => h
  | cons b cs ih =>
      rintro ⟨d, hd, hc⟩
      cases hb : b.competes c with
      | true => exact ⟨b, List.mem_cons_self .., hb⟩
      | false =>
          rcases List.mem_cons.mp hd with rfl | hm
          · cases hb.symm.trans hc
          · obtain ⟨d', hd', hc'⟩ := ih ⟨d, hm, hc⟩
            refine ⟨d', List.mem_cons_of_mem b (List.mem_filter.mpr ⟨hd', ?_⟩), hc'⟩
            rw [Bool.not_eq_true', Bool.eq_false_iff]
            intro hdb
            rw [competes_comm] at hdb
            cases hb.symm.trans (competes_trans hdb hc')

/-- A check that competes with an earlier one opens no place, and any other check does. -/
theorem leading_concat (cs : List Check) (c : Check) :
    leading (cs ++ [c]) = if cs.any (·.competes c) then leading cs else leading cs ++ [c] := by
  induction cs with
  | nil => rfl
  | cons d cs ih =>
      rw [List.cons_append, leading, leading, ih, List.any_cons]
      cases hcs : cs.any (·.competes c) with
      | true => rw [Bool.or_true, if_pos rfl, if_pos rfl]
      | false =>
          rw [Bool.or_false, if_neg Bool.false_ne_true, List.filter_append, List.filter_singleton,
            competes_comm c d]
          cases d.competes c <;> simp

theorem latest_concat (cs : List Check) (c d : Check) :
    latest (cs ++ [c]) d = if c.competes d then c else latest cs d := by
  rw [latest, List.filter_append, List.filter_singleton]
  cases c.competes d <;> simp [latest]

theorem latest_of_none (h : cs.any (·.competes c) = false) : latest cs c = c := by
  have hnil : cs.filter (·.competes c) = [] :=
    List.filter_eq_nil_iff.mpr fun d hd => List.any_eq_false.mp h d hd
  rw [latest, hnil]
  rfl

/-- A check takes the place of the one that it competes with, or goes to the end. -/
theorem settled_concat (cs : List Check) (c : Check) :
    settled (cs ++ [c]) =
      if cs.any (·.competes c) then (settled cs).map fun d => if c.competes d then c else d
      else settled cs ++ [c] := by
  rw [settled, leading_concat]
  split
  next =>
      rw [settled, List.map_map]
      refine List.map_congr_left fun d _ => ?_
      have hlatest : c.competes (latest cs d) = c.competes d := by
        rw [competes, competes, kind_latest]
      rw [latest_concat, Function.comp_apply, hlatest]
  next hnone =>
      rw [Bool.not_eq_true] at hnone
      rw [List.map_append, List.map_singleton, latest_concat, latest_of_none hnone, ite_self, settled]
      refine congrArg (· ++ _) (List.map_congr_left fun d hd => ?_)
      have hd : d.competes c = false :=
        Bool.eq_false_iff.mpr (List.any_eq_false.mp hnone d (mem_of_mem_leading hd))
      rw [latest_concat, competes_comm, hd, if_neg Bool.false_ne_true]

theorem leading_filter (cs : List Check) (k : CheckKind) :
    leading (cs.filter (·.kind ≠ k)) = (leading cs).filter (·.kind ≠ k) := by
  induction cs with
  | nil => rfl
  | cons d cs ih =>
      by_cases hd : d.kind = k
      · -- What competes with a removed check is removed as well.
        have hremoved : ∀ c : Check, c.kind ≠ k → c.competes d = false := by
          intro c hc
          rw [Bool.eq_false_iff]
          exact fun h => hc ((competes_iff.mp h).1.trans hd)
        rw [List.filter_cons_of_neg (by simp [hd]), ih, leading,
          List.filter_cons_of_neg (by simp [hd]), List.filter_filter]
        refine List.filter_congr fun c _ => ?_
        by_cases hc : c.kind = k
        · simp [hc]
        · simp [hc, hremoved c hc]
      · rw [List.filter_cons_of_pos (by simp [hd]), leading, ih, leading,
          List.filter_cons_of_pos (by simp [hd]), List.filter_filter, List.filter_filter]
        refine congrArg _ (List.filter_congr fun c _ => ?_)
        exact Bool.and_comm ..

/-- Removing the checks of a kind removes their place. -/
theorem settled_filter (cs : List Check) (k : CheckKind) :
    settled (cs.filter (·.kind ≠ k)) = (settled cs).filter (·.kind ≠ k) := by
  rw [settled, leading_filter, settled, List.filter_map]
  have hkind : (fun c : Check => decide (c.kind ≠ k)) ∘ latest cs = fun c => decide (c.kind ≠ k) := by
    funext c
    rw [Function.comp_apply, kind_latest]
  rw [hkind]
  refine List.map_congr_left fun d hd => ?_
  have hd : d.kind ≠ k := of_decide_eq_true (List.mem_filter.mp hd).2
  rw [latest, latest, List.filter_filter]
  refine congrArg (List.getLastD · d) (List.filter_congr fun c _ => ?_)
  cases hc : c.competes d with
  | false => rfl
  | true =>
      rw [(competes_iff.mp hc).1]
      simp [hd]

/-- No two checks in the registry compete. -/
theorem settled_pairwise (cs : List Check) :
    (settled cs).Pairwise fun c d => d.competes c = false := by
  refine List.pairwise_map.mpr ((leading_pairwise cs).imp fun {c d} h => ?_)
  rwa [competes, kind_latest, kind_latest]

theorem any_settled (cs : List Check) (c : Check) :
    (settled cs).any (·.competes c) = cs.any (·.competes c) := by
  rw [← any_leading cs c, settled, List.any_map]
  refine congrArg (List.any _) (funext fun d => ?_)
  rw [Function.comp_apply, competes, competes, kind_latest]

/-- Of each kind but the named ones at most one check is in the registry. -/
theorem nodup_kind_settled (cs : List Check) :
    (((settled cs).map kind).filter (· ≠ .custom)).Nodup := by
  refine List.pairwise_filter.mpr (List.pairwise_map.mpr ((settled_pairwise cs).imp ?_))
  intro c d hcd _ hd hkind
  have hdc : d.competes c = true := competes_iff.mpr ⟨hkind.symm, of_decide_eq_true hd⟩
  cases hcd.symm.trans hdc

/-- Only standing checks are in the registry. -/
theorem mem_of_mem_settled (h : c ∈ settled cs) : c ∈ cs := by
  obtain ⟨d, hd, rfl⟩ := List.mem_map.mp h
  rw [latest, List.getLastD_eq_getLast?]
  cases hlast : (cs.filter (·.competes d)).getLast? with
  | none => exact mem_of_mem_leading hd
  | some b => exact (List.mem_filter.mp (List.mem_of_getLast? hlast)).1

end Places

end Check

/-! ## One call -/

namespace Checks

open Check

variable {cs : List Check}

/-- Where no two checks compete, the first one of a kind is the only one. -/
theorem map_check_replaceFirst {e : CheckEntry} (hnamed : e.kind ≠ .custom) {es : List CheckEntry}
    (hes : (es.map CheckEntry.check).Pairwise fun c d => d.competes c = false) :
    (replaceFirst e es).map CheckEntry.check =
      (es.map CheckEntry.check).map fun d => if e.check.competes d then e.check else d := by
  induction es with
  | nil => rfl
  | cons d ds ih =>
      rw [List.map_cons] at hes
      obtain ⟨hd, hds⟩ := List.pairwise_cons.mp hes
      rw [replaceFirst, List.map_cons, List.map_cons]
      split
      next hkind =>
          have hed : e.check.competes d.check = true := competes_iff.mpr ⟨hkind.symm, hnamed⟩
          rw [List.map_cons, if_pos hed]
          refine congrArg _ ((List.map_congr_left fun c hc => ?_).trans (List.map_id _)).symm
          rw [if_neg]
          · rfl
          · intro hec
            have hdc : d.check.competes e.check = true := competes_comm e.check d.check ▸ hed
            have hcd := competes_comm d.check c ▸ hd c hc
            cases hcd.symm.trans (competes_trans hdc hec)
      next hkind =>
          have hed : e.check.competes d.check = false := by
            rw [Bool.eq_false_iff]
            exact fun h => hkind (competes_iff.mp h).1.symm
          rw [List.map_cons, ih hds, hed, if_neg Bool.false_ne_true]

/-- A check that is added settles among the others. -/
theorem map_check_add {registry : Checks} (h : registry.entries.map CheckEntry.check = settled cs)
    (c : Check) :
    (registry.add ⟨c, none⟩ (c.kind = .custom)).entries.map CheckEntry.check =
      settled (cs ++ [c]) := by
  have hplace : (!decide (c.kind = .custom) && registry.hasKind c.kind) = cs.any (·.competes c) := by
    rw [← any_settled, ← h, List.any_map, hasKind, ← decide_not, Bool.eq_iff_iff, Bool.and_eq_true,
      decide_eq_true_iff, List.any_eq_true, List.any_eq_true]
    constructor
    · rintro ⟨hnamed, e, he, hkind⟩
      have hkind : e.check.kind = c.kind := of_decide_eq_true hkind
      exact ⟨e, he, competes_iff.mpr ⟨hkind, hkind ▸ hnamed⟩⟩
    · rintro ⟨e, he, hcompetes⟩
      obtain ⟨hkind, hnamed⟩ := competes_iff.mp hcompetes
      exact ⟨hkind ▸ hnamed, e, he, decide_eq_true hkind⟩
  have hadd : registry.add ⟨c, none⟩ (c.kind = .custom) =
      if cs.any (·.competes c) then ⟨replaceFirst ⟨c, none⟩ registry.entries⟩
      else ⟨registry.entries ++ [⟨c, none⟩]⟩ := by
    rw [← hplace]
    rfl
  rw [settled_concat, hadd, ← h]
  cases hany : cs.any (·.competes c) with
  | true =>
      obtain ⟨d, -, hd⟩ := List.any_eq_true.mp hany
      have hnamed : c.kind ≠ .custom := (competes_iff.mp hd).1 ▸ (competes_iff.mp hd).2
      rw [if_pos rfl, if_pos rfl]
      exact map_check_replaceFirst (e := ⟨c, none⟩) hnamed (h ▸ settled_pairwise cs)
  | false =>
      rw [if_neg Bool.false_ne_true, if_neg Bool.false_ne_true]
      exact List.map_append

/-- A message changes no check. -/
theorem map_check_setLastMessage (registry : Checks) (message : String) :
    (registry.setLastMessage message).entries.map CheckEntry.check =
      registry.entries.map CheckEntry.check := by
  rw [setLastMessage]
  cases hlast : registry.entries.getLast? with
  | none => rfl
  | some e =>
      obtain ⟨before, hentries⟩ := List.getLast?_eq_some_iff.mp hlast
      rw [hentries, List.dropLast_concat, List.map_append, List.map_append]
      rfl

/-- The checks of a kind are removed together with their place. -/
theorem map_check_remove {registry : Checks}
    (h : registry.entries.map CheckEntry.check = settled cs) (k : CheckKind) :
    (registry.remove k).2.entries.map CheckEntry.check = settled (cs.filter (·.kind ≠ k)) := by
  rw [settled_filter, ← h, List.filter_map]
  rfl

end Checks

/-- The checks that stand after a call, if `cs` do before it. -/
def Edit.standingAfter (supports : CheckKind → Bool) (cs : List Check) (e : Edit) : List Check :=
  cs.filter (fun c => !e.removes c.kind) ++ (e.added? supports).toList

namespace Schema

open Check Checks

variable {s : Schema} {cs : List Check} {e : Edit}

/-- What a call does to a registry. -/
theorem apply_registry (hs : s.checks.entries.map CheckEntry.check = settled cs)
    (he : e.keepsNode = true) :
    (s.apply e).Makes fun t =>
      t.checks.entries.map CheckEntry.check = settled (e.standingAfter s.kind.supports cs) := by
  intro n
  rw [s.apply_checks e n, if_pos he]
  have hkept : cs.filter (fun _ => !false) = cs := List.filter_eq_self.mpr fun _ _ => rfl
  have hsame : s.checks.entries.map CheckEntry.check =
      settled (cs.filter (fun _ => !false) ++ []) := by
    rw [hkept, List.append_nil, hs]
  cases e with
  | addCheck c =>
      dsimp only [Edit.recheck, Edit.standingAfter, Edit.removes, Edit.added?]
      split
      · rw [map_check_add hs, hkept]
        rfl
      · exact hsame
  | withoutCheck k =>
      dsimp only [Edit.recheck, Edit.standingAfter, Edit.removes, Edit.added?]
      rw [map_check_remove hs, Option.toList_none, List.append_nil]
      refine congrArg settled (List.filter_congr fun c _ => ?_)
      rw [← decide_not]
      exact decide_eq_decide.mpr ne_comm
  | error message => exact (map_check_setLastMessage s.checks message).trans hsame
  | _ => exact hsame

end Schema

/-! ## A run of calls -/

open Check

/-- Of the checks that stand before a run, those stand after it that no call removes. -/
theorem Edit.standingAfter_cons (supports : CheckKind → Bool) (cs : List Check) (e : Edit)
    (es : List Edit) :
    (e.standingAfter supports cs).filter (fun c => !es.any (·.removes c.kind)) ++
        standing supports es =
      cs.filter (fun c => !(e :: es).any (·.removes c.kind)) ++ standing supports (e :: es) := by
  rw [standingAfter, List.filter_append, List.filter_filter, standing, List.append_assoc]
  refine congrArg (· ++ _) (List.filter_congr fun c _ => ?_)
  rw [List.any_cons, Bool.not_or, Bool.and_comm]

theorem mem_standing {supports : CheckKind → Bool} {es : List Edit} {c : Check}
    (h : c ∈ standing supports es) : supports c.kind = true := by
  induction es with
  | nil => cases h
  | cons e es ih =>
      rcases List.mem_append.mp h with hadded | hm
      · have hadded := (List.mem_filter.mp hadded).1
        cases e with
        | addCheck d =>
            rw [Edit.added?] at hadded
            split at hadded
            next hsupports => exact List.mem_singleton.mp hadded ▸ hsupports
            next => cases hadded
        | _ => cases hadded
      · exact ih hm

namespace Schema

/-- What a run of calls makes of a registry. -/
theorem applyAll_registry (es : List Edit) :
    ∀ (s : Schema) (cs : List Check), s.checks.entries.map CheckEntry.check = settled cs →
      (∀ e ∈ es, e.keepsNode = true) →
      (s.applyAll es).Makes fun t =>
        t.kind.SameForm s.kind ∧
        t.checks.entries.map CheckEntry.check =
          settled (cs.filter (fun c => !es.any (·.removes c.kind)) ++
            standing s.kind.supports es) := by
  induction es with
  | nil =>
      intro s cs hs _
      refine Build.makes_pure ⟨.inl rfl, ?_⟩
      rw [hs, standing, List.append_nil]
      exact congrArg settled (List.filter_eq_self.mpr fun _ _ => rfl).symm
  | cons e es ih =>
      intro s cs hs hkeeps n
      obtain ⟨he, hes⟩ := List.forall_mem_cons.mp hkeeps
      have hform := apply_sameForm (s := s) he n
      obtain ⟨hform', hregistry⟩ := ih _ _ (apply_registry hs he n) hes ((s.apply e) n).2
      rw [hform.supports_eq, Edit.standingAfter_cons] at hregistry
      exact ⟨hform'.trans hform, hregistry⟩

/-- The registry after any run of calls on a new node.  It has the standing checks, one for each
place, all of them of kinds that the node supports, and of each kind but the named ones at most
one.  A call that the kind of the node does not support changes nothing at any time. -/
theorem registry_of_calls (kind : Kind Schema) (es : List Edit)
    (hkeeps : ∀ e ∈ es, e.keepsNode = true) :
    (make kind >>= (applyAll · es)).Makes fun t =>
      t.checks.entries.map CheckEntry.check = settled (standing kind.supports es) ∧
      (∀ d ∈ t.checks.entries, kind.supports d.kind = true) ∧
      (t.checks.kinds.filter (· ≠ .custom)).Nodup ∧
      ∀ e : Edit, e.isRefusedBy kind = true → (t.apply e).Makes (· = t) := by
  refine Build.makes_bind (P := fun s => s.kind = kind ∧ s.checks.entries = [])
    (fun _ => ⟨rfl, rfl⟩) fun s ⟨hkind, hempty⟩ n => ?_
  have hs : s.checks.entries.map CheckEntry.check = settled [] := by
    rw [hempty]
    rfl
  obtain ⟨hform, hregistry⟩ := applyAll_registry es s [] hs hkeeps n
  rw [List.filter_nil, List.nil_append, hkind] at hregistry
  rw [hkind] at hform
  generalize ((s.applyAll es) n).1 = t at hform hregistry
  have hsupported : ∀ d ∈ t.checks.entries, kind.supports d.kind = true := by
    intro d hd
    have hm : d.check ∈ settled (standing kind.supports es) :=
      hregistry ▸ List.mem_map_of_mem hd
    exact mem_standing (mem_of_mem_settled hm)
  refine ⟨hregistry, hsupported, ?_, fun e he => apply_refused ?_ ?_⟩
  · have hkinds : t.checks.kinds = (settled (standing kind.supports es)).map Check.kind := by
      rw [← hregistry, List.map_map]
      rfl
    rw [hkinds]
    exact nodup_kind_settled _
  · rw [hform.supports_eq]
    exact hsupported
  · rw [hform.isRefusedBy_eq]
    exact he

/-- Calls on a number: a lower bound, whole numbers, two named checks, the bound again, a check that
numbers do not support, and whole numbers removed and added once more. -/
def manyCalls : List Edit :=
  [.min (.ofNat 1), .addCheck .integer, .addCheck (.custom "first" fun _ => true),
    .min (.ofNat 5), .error "too small", .addCheck .email, .withoutCheck .integer,
    .addCheck (.custom "second" fun _ => true), .addCheck .integer]

/-- The bound keeps its place, and the check for whole numbers gets a new one. -/
theorem manyCalls_registry :
    (∀ e ∈ manyCalls, e.keepsNode = true) ∧
    (make (.leaf .number) >>= (applyAll · manyCalls)).Makes fun t =>
      t.checks.entries.map CheckEntry.check =
        [.min (.ofNat 5) true, .custom "first" fun _ => true, .custom "second" fun _ => true,
          .integer] ∧
      (t.apply (.addCheck .email)).Makes (· = t) := by
  have hkeeps : ∀ e ∈ manyCalls, e.keepsNode = true := by decide
  refine ⟨hkeeps, fun n => ?_⟩
  obtain ⟨hregistry, -, -, hrefused⟩ := registry_of_calls (.leaf .number) manyCalls hkeeps n
  exact ⟨hregistry, hrefused (.addCheck .email) rfl⟩

end Schema

end ValueSchema
