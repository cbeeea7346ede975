import ValueSchema.Proofs.Run

/-!
# Rules of steps

A `Parser.Judgement` says something of the steps of a call: how a step behaves at a place, and
what its results satisfy.  It comes with one rule for each way to make a step.  From the rules
alone it holds of everything that parses, with one lemma for each way to parse, and so of every
run (`Parser.Judgement.holds_runWithin`).

A step may attach or discard the report of a step that ran on its own at the same place or one
segment further (`Path.Leads`).  `Judgement.Made` says what is known of such a report.
-/

namespace ValueSchema

/-- A context may be opened from the first place to the second one. -/
inductive Path.Leads (here : Path) : Path → Prop where
  /-- At the same place. -/
  | same : Leads here here
  /-- One segment further. -/
  | further (s : Segment) : Leads here (here.push s)

namespace Parser

/-- What is said of the steps of a call, and the rules that it follows. -/
structure Judgement (call : Call) where
  /-- A step behaves as it should at a place, and its results satisfy a property. -/
  At {α : Type} (here : Path) (x : Parser α) (post : α → Prop) : Prop
  /-- What is known of the report of a step that ran on its own at a place. -/
  Made (here : Path) (r : Report) : Prop
  of_pure {α : Type} {here : Path} {a : α} {post : α → Prop} : post a → At here (pure a) post
  of_misuse {α : Type} (here : Path) (e : Misuse) (post : α → Prop) : At here (misuse e) post
  of_bind {α β : Type} {here : Path} {x : Parser α} {f : α → Parser β} {mid : α → Prop}
    {post : β → Prop} : At here x mid → (∀ a, mid a → At here (f a) post) → At here (x >>= f) post
  of_path (here : Path) : At here path (· = here)
  of_isInvalid (here : Path) : At here isInvalid fun _ => True
  of_countCall (here : Path) : At here countCall fun _ => True
  of_raise (here : Path) (cause : Cause Issue) (own : Option String) (data : Value) :
    At here (raise call cause own data) fun _ => True
  of_attach {here there : Path} {below : Report} : here.Leads there → Made there below →
    At here (attach below) fun _ => True
  of_discard {here there : Path} {below : Report} : here.Leads there → Made there below →
    At here (discard below) fun _ => True
  of_isolated {α : Type} (here : Path) {there : Path} {x : Parser α} :
    At there x (fun _ => True) → At here (isolated there x) fun r => Made there r.2

namespace Judgement

variable {call : Call} (J : Judgement call) {α β : Type}

/-- A step behaves as it should at every place. -/
def Holds (x : Parser α) : Prop := ∀ here, J.At here x fun _ => True

theorem holds_pure (a : α) : J.Holds (pure a) := fun _ => J.of_pure trivial

theorem holds_misuse (e : Misuse) : J.Holds (misuse e : Parser α) := fun _ => J.of_misuse _ e _

theorem holds_ofExcept : ∀ r : Except Misuse α, J.Holds (ofExcept r)
  | .ok a => J.holds_pure a
  | .error e => J.holds_misuse e

theorem holds_bind {x : Parser α} {f : α → Parser β} (hx : J.Holds x) (hf : ∀ a, J.Holds (f a)) :
    J.Holds (x >>= f) :=
  fun here => J.of_bind (hx here) fun a _ => hf a here

theorem holds_raise (cause : Cause Issue) (own : Option String) (data : Value) :
    J.Holds (raise call cause own data) :=
  fun here => J.of_raise here cause own data

theorem holds_refuse (cause : Cause Issue) (own : Option String) (data : Value) :
    J.Holds (refuse call cause own data : Parser (Option α)) :=
  J.holds_bind (J.holds_raise cause own data) fun _ => J.holds_pure _

/-- A step that looks at its path. -/
theorem at_path {f : Path → Parser β} {here : Path} {post : β → Prop}
    (h : J.At here (f here) post) : J.At here (path >>= f) post :=
  J.of_bind (J.of_path here) fun _ h' => h' ▸ h

theorem holds_ite {c : Prop} [Decidable c] {x y : Parser α} (hx : J.Holds x) (hy : J.Holds y) :
    J.Holds (if c then x else y) := by
  split
  · exact hx
  · exact hy

/-- A step that goes on in two ways, with an output and without one. -/
theorem holds_next {x : Parser (Option α)} {f : Option α → Parser β} (hx : J.Holds x)
    (hnone : J.Holds (f none)) (hsome : ∀ a, J.Holds (f (some a))) : J.Holds (x >>= f) := by
  refine J.holds_bind hx fun out => ?_
  cases out with
  | none => exact hnone
  | some a => exact hsome a

/-- What comes after a step, when nothing was refused. -/
theorem holds_guarded {x : Parser α} {k : α → Parser (Option β)} (hx : J.Holds x)
    (hk : ∀ a, J.Holds (k a)) :
    J.Holds (do
      let a ← x
      if ← Parser.isInvalid then return none
      k a) :=
  J.holds_bind hx fun a =>
    J.holds_bind J.of_isInvalid fun _ => J.holds_ite (J.holds_pure _) (hk a)

/-! ## Descent -/

theorem holds_descendInTurn (stops : Bool) :
    ∀ {ds : List Descent}, (∀ d ∈ ds, J.Holds d.step) → J.Holds (descendInTurn stops ds)
  | [], _ => J.holds_pure _
  | d :: ds, h => by
      obtain ⟨hd, hds⟩ := List.forall_mem_cons.mp h
      have hrest := holds_descendInTurn stops hds
      intro here
      rw [descendInTurn]
      refine J.at_path (J.of_bind (J.of_isolated here (hd _)) fun r hr => ?_)
      refine J.of_bind (J.of_attach (.further d.segment) hr) fun _ _ =>
        J.holds_bind (J.holds_ofExcept _) (fun out => ?_) here
      split
      · exact J.holds_bind hrest fun _ => J.holds_pure _
      · exact J.holds_ite (J.holds_pure _) (J.holds_bind hrest fun _ => J.holds_pure _)

/-- The report of one of several steps that ran at places which `here` leads to. -/
def MadeBelow (here : Path) (r : Report) : Prop := ∃ there, here.Leads there ∧ J.Made there r

theorem at_runAll (here : Path) :
    ∀ {xs : List (Path × Parser (Option Value))}, (∀ x ∈ xs, here.Leads x.1 ∧ J.Holds x.2) →
      J.At here (runAll xs) fun rs => ∀ r ∈ rs, J.MadeBelow here r.2
  | [], _ => J.of_pure (List.forall_mem_nil _)
  | x :: xs, h => by
      obtain ⟨⟨hleads, hx⟩, hxs⟩ := List.forall_mem_cons.mp h
      refine J.of_bind (J.of_isolated here (hx x.1)) fun r hr =>
        J.of_bind (at_runAll here hxs) fun rs hrs => J.of_pure ?_
      exact List.forall_mem_cons.mpr ⟨⟨x.1, hleads, hr⟩, hrs⟩

theorem at_settle (stops : Bool) {here : Path} :
    ∀ (failed : Bool) {rs : List (Except Misuse (Option Value) × Report)},
      (∀ r ∈ rs, J.MadeBelow here r.2) → J.At here (settle stops failed rs) fun _ => True
  | _, [], _ => J.of_pure trivial
  | failed, (result, report) :: rs, h => by
      obtain ⟨⟨there, hleads, hmade⟩, hrs⟩ := List.forall_mem_cons.mp h
      rw [settle]
      split
      · exact J.of_bind (J.of_discard hleads hmade) fun _ _ =>
          J.of_bind (at_settle stops _ hrs) fun _ _ => J.of_pure trivial
      · exact J.of_bind (J.of_attach hleads hmade) fun _ _ =>
          J.of_bind (J.holds_ofExcept _ here) fun _ _ =>
            J.of_bind (at_settle stops _ hrs) fun _ _ => J.of_pure trivial

theorem holds_descend (stops : Bool) {ds : List Descent} (h : ∀ d ∈ ds, J.Holds d.step) :
    J.Holds (descend call stops ds) := by
  unfold descend
  cases call.mode with
  | immediate => exact J.holds_descendInTurn stops h
  | deferred =>
      refine fun here => J.at_path (J.of_bind (J.at_runAll here ?_) fun rs hrs =>
        J.at_settle stops false hrs)
      intro x hx
      obtain ⟨d, hd, rfl⟩ := List.mem_map.mp hx
      exact ⟨.further d.segment, h d hd⟩

end Judgement

end Parser

open ValueSchema.Parser ValueSchema.Schema

namespace Parser.Judgement

variable {call : Call} (J : Judgement call) (node : Schema)

/-! ## Checks -/

theorem holds_runEntries (stops : Bool) :
    ∀ (es : List CheckEntry) (v : Value), J.Holds (node.runEntries call stops es v)
  | [], v => J.holds_pure _
  | e :: es, v => by
      have hcounted {x : Parser (Bool × Value)} (hx : J.Holds x) :
          J.Holds (if e.kind = .custom then countCall >>= fun _ => x else x) :=
        J.holds_ite (J.holds_bind J.of_countCall fun _ => hx) hx
      rw [runEntries]
      cases e.check.evaluate v with
      | pass => exact hcounted (holds_runEntries stops es v)
      | rewrite w => exact hcounted (holds_runEntries stops es w)
      | fail received =>
          exact hcounted (J.holds_bind (J.holds_raise _ _ _) fun _ => J.holds_ite (J.holds_pure _)
            (J.holds_bind (holds_runEntries stops es v) fun _ => J.holds_pure _))

theorem holds_runChecks (select : CheckKind → Bool) (v : Value) :
    J.Holds (node.runChecks call select v) :=
  J.holds_runEntries node _ _ v

theorem holds_finishChecks (select : CheckKind → Bool) (v : Value) :
    J.Holds (node.finishChecks call select v) :=
  J.holds_bind (J.holds_runChecks node select v) fun _ => J.holds_pure _

theorem holds_refuseType (expected : ValueKind) (v : Value) :
    J.Holds (node.refuseType call expected v) :=
  J.holds_refuse _ _ _

theorem holds_parseLeaf (l : Leaf) (v : Value) : J.Holds (node.parseLeaf call l v) := by
  unfold parseLeaf
  dsimp only
  split
  · exact J.holds_refuse _ _ _
  · exact J.holds_bind (J.holds_finishChecks node _ _) fun _ => J.holds_pure _

/-! ## Containers -/

theorem holds_parseItems {element : Runner} (h : ∀ v, J.Holds (element v)) (container : Value) :
    J.Holds (node.parseItems call element container) := by
  refine J.holds_bind (J.holds_runChecks node _ _) fun r => J.holds_ite (J.holds_pure _) ?_
  refine J.holds_guarded (J.holds_descend _ ?_) fun _ => J.holds_pure _
  intro d hd
  rw [List.mapIdx_eq_zipIdx_map] at hd
  obtain ⟨x, -, rfl⟩ := List.mem_map.mp hd
  exact h x.1

theorem holds_parseArray {element : Runner} (h : ∀ v, J.Holds (element v)) (v : Value) :
    J.Holds (node.parseArray call element v) := by
  unfold parseArray
  dsimp only
  split
  · exact J.holds_next (J.holds_parseItems node h _) (J.holds_pure _) fun _ =>
      J.holds_bind (J.holds_finishChecks node _ _) fun _ => J.holds_pure _
  · exact J.holds_refuseType node _ _

theorem holds_parseSet {element : Runner} (h : ∀ v, J.Holds (element v)) (v : Value) :
    J.Holds (node.parseSet call element v) := by
  unfold parseSet
  dsimp only
  split
  · exact J.holds_next (J.holds_parseItems node h _) (J.holds_pure _) fun _ =>
      J.holds_bind (J.holds_finishChecks node _ _) fun _ => J.holds_pure _
  · exact J.holds_refuseType node _ _

theorem holds_tupleDescents {rest : Option Runner} (hrest : ∀ r ∈ rest, ∀ v, J.Holds (r v)) :
    ∀ {i : Nat} {slots : List Runner} {values : List Value},
      (∀ r ∈ slots, ∀ v, J.Holds (r v)) → ∀ d ∈ tupleDescents rest i slots values, J.Holds d.step
  | _, [], [], _, _, hd => by cases hd
  | _, _ :: _, [], _, _, hd => by cases hd
  | i, s :: slots, v :: vs, hslots, d, hd => by
      obtain ⟨hs, hslots⟩ := List.forall_mem_cons.mp hslots
      rw [tupleDescents] at hd
      rcases List.mem_cons.mp hd with rfl | hd
      · exact hs v
      · exact holds_tupleDescents hrest hslots d hd
  | i, [], v :: vs, hslots, d, hd => by
      cases rest with
      | none => cases hd
      | some s =>
          rw [tupleDescents] at hd
          rcases List.mem_cons.mp hd with rfl | hd
          · exact hrest s rfl v
          · exact holds_tupleDescents hrest hslots d hd

theorem holds_parseTuple {items : List (Schema × Runner)} {rest : Option Runner}
    (hitems : ∀ s ∈ items, ∀ v, J.Holds (s.2 v)) (hrest : ∀ r ∈ rest, ∀ v, J.Holds (r v))
    (v : Value) : J.Holds (node.parseTuple call items rest v) := by
  unfold parseTuple
  dsimp only
  split
  next values _ =>
      split
      · exact J.holds_refuse _ _ _
      · refine J.holds_guarded (J.holds_descend _ (J.holds_tupleDescents hrest ?_)) fun _ =>
          J.holds_finishChecks node _ _
        intro r hr
        obtain ⟨s, hs, rfl⟩ := List.mem_map.mp hr
        exact hitems s (List.mem_filter.mp hs).1
  · exact J.holds_refuseType node _ _

theorem holds_raiseThen {stops : Bool} {v : Value} {rest : Parser (Option Value)}
    (h : J.Holds rest) : ∀ causes, J.Holds (raiseThen call stops v rest causes)
  | [] => h
  | _ :: causes => J.holds_bind (J.holds_raise _ _ _) fun _ =>
      J.holds_ite (J.holds_pure _) (holds_raiseThen h causes)

theorem holds_parseFields {run : Schema → Runner} {parts : List Part}
    (h : ∀ t ∈ parts, ∀ v, J.Holds (run t.schema v)) (extra : List (String × Value)) :
    J.Holds (node.parseFields call run parts extra) := by
  refine J.holds_guarded (J.holds_descend _ ?_) fun _ => J.holds_finishChecks node _ _
  intro d hd
  obtain ⟨t, ht, rfl⟩ := List.mem_map.mp hd
  exact h t ht t.value

theorem holds_parseObject {run : Schema → Runner} {shape : Entries Schema}
    {unknown : UnknownKeys Schema}
    (h : ∀ s ∈ (Kind.object shape unknown).children, ∀ v, J.Holds (run s v)) (v : Value) :
    J.Holds
      (node.parseObject call (shape.map fun s => (s, run s)) (besideRuns run unknown) v) := by
  cases v with
  | object input =>
      rw [parseObject_eq]
      exact J.holds_raiseThen
        (J.holds_parseFields node (fun t ht => h t.schema (objectSchema_mem ht)) _) _
  | _ =>
      unfold parseObject
      exact J.holds_refuseType node .object _

theorem holds_parseRecord {key value : Runner} (hkey : ∀ v, J.Holds (key v))
    (hvalue : ∀ v, J.Holds (value v)) (v : Value) :
    J.Holds (node.parseRecord call key value v) := by
  unfold parseRecord
  split
  next input =>
      refine J.holds_bind (J.holds_runChecks node _ _) fun r => J.holds_ite (J.holds_pure _) ?_
      refine J.holds_guarded (J.holds_descend _ ?_) fun _ => J.holds_finishChecks node _ _
      intro d hd
      obtain ⟨e, -, hd⟩ := List.mem_flatMap.mp hd
      simp only [List.mem_cons, List.not_mem_nil, or_false] at hd
      rcases hd with rfl | rfl
      · exact hkey _
      · exact hvalue _
  · exact J.holds_refuseType node _ _

/-! ## Unions and intersections -/

theorem holds_tryInTurn (here : Path) (v : Value) :
    ∀ {members : List Runner} (reports : List Report), (∀ m ∈ members, J.Holds (m v)) →
      J.Holds (tryInTurn here v reports members)
  | [], _, _ => J.holds_pure _
  | m :: ms, reports, h => by
      obtain ⟨hm, hms⟩ := List.forall_mem_cons.mp h
      intro place
      rw [tryInTurn]
      refine J.of_bind (J.of_isolated place (hm here)) fun r _ =>
        J.of_bind (J.holds_ofExcept _ place) fun out _ => ?_
      split
      · exact J.holds_pure _ place
      · exact holds_tryInTurn here v _ hms place

theorem holds_firstAccepted :
    ∀ (reports : List Report) (rs : List (Except Misuse (Option Value) × Report)),
      J.Holds (firstAccepted reports rs)
  | _, [] => J.holds_pure _
  | reports, (result, report) :: rs => by
      rw [firstAccepted]
      refine J.holds_bind (J.holds_ofExcept _) fun out => ?_
      split
      · exact J.holds_pure _
      · exact holds_firstAccepted _ rs

/-- The members of a union or an intersection run at the place itself. -/
theorem at_runMembersAll {members : List Runner} {v : Value} (h : ∀ m ∈ members, J.Holds (m v))
    (here : Path) :
    J.At here (runAll (members.map fun m => (here, m v))) fun rs =>
      ∀ r ∈ rs, J.MadeBelow here r.2 := by
  refine J.at_runAll here fun x hx => ?_
  obtain ⟨m, hm, rfl⟩ := List.mem_map.mp hx
  exact ⟨.same, h m hm⟩

theorem holds_parseUnion {members : List Runner} {v : Value} (h : ∀ m ∈ members, J.Holds (m v)) :
    J.Holds (node.parseUnion call members v) := by
  have htry : J.Holds (tryMembers call members v) := by
    refine fun here => J.at_path ?_
    cases call.mode with
    | immediate => exact J.holds_tryInTurn here v [] h here
    | deferred =>
        exact J.of_bind (J.at_runMembersAll h here) fun rs _ => J.holds_firstAccepted [] rs here
  refine J.holds_bind htry fun r => ?_
  cases r with
  | ok w => exact J.holds_pure _
  | error reports => exact J.holds_refuse _ _ _

theorem at_runInTurn (stops : Bool) (here : Path) (v : Value) :
    ∀ {members : List Runner}, (∀ m ∈ members, J.Holds (m v)) →
      J.At here (runInTurn stops here v members) fun _ => True
  | [], _ => J.of_pure trivial
  | m :: ms, h => by
      obtain ⟨hm, hms⟩ := List.forall_mem_cons.mp h
      have hrest := at_runInTurn stops here v hms
      rw [runInTurn]
      refine J.of_bind (J.of_isolated here (hm here)) fun r hr => ?_
      refine J.of_bind (J.of_attach .same hr) fun _ _ =>
        J.of_bind (J.holds_ofExcept _ here) fun out _ => ?_
      split
      · exact J.of_bind hrest fun _ _ => J.of_pure trivial
      · split
        · exact J.of_pure trivial
        · exact hrest

theorem at_gather (stops : Bool) {here : Path} :
    ∀ (failed : Bool) {rs : List (Except Misuse (Option Value) × Report)},
      (∀ r ∈ rs, J.MadeBelow here r.2) → J.At here (gather stops failed rs) fun _ => True
  | _, [], _ => J.of_pure trivial
  | failed, (result, report) :: rs, h => by
      obtain ⟨⟨there, hleads, hmade⟩, hrs⟩ := List.forall_mem_cons.mp h
      rw [gather]
      refine J.of_bind (J.holds_ofExcept _ here) fun out _ => ?_
      split
      · exact J.of_bind (J.of_discard hleads hmade) fun _ _ => at_gather stops _ hrs
      · refine J.of_bind (J.of_attach hleads hmade) fun _ _ => ?_
        split
        · exact J.of_bind (at_gather stops _ hrs) fun _ _ => J.of_pure trivial
        · exact at_gather stops _ hrs

theorem holds_parseIntersection {members : List Runner} {v : Value}
    (h : ∀ m ∈ members, J.Holds (m v)) : J.Holds (node.parseIntersection call members v) := by
  have hrun (stops : Bool) : J.Holds (runMembers call stops members v) := by
    refine fun here => J.at_path ?_
    cases call.mode with
    | immediate => exact J.at_runInTurn stops here v h
    | deferred =>
        exact J.of_bind (J.at_runMembersAll h here) fun rs hrs =>
          J.of_bind (J.at_gather stops false hrs) fun _ _ => J.of_pure trivial
  refine J.holds_next (hrun _) (J.holds_pure _) fun outputs => ?_
  refine J.holds_bind J.of_isInvalid fun _ => J.holds_ite (J.holds_pure _) ?_
  cases outputs with
  | nil => exact J.holds_pure _
  | cons w ws =>
      dsimp only
      split
      · exact J.holds_pure _
      · exact J.holds_refuse _ _ _

/-! ## Effects -/

theorem holds_raiseFindings (v : Value) : ∀ fs, J.Holds (raiseFindings call v fs)
  | [] => J.holds_pure _
  | _ :: fs => J.holds_bind (J.holds_raise _ _ _) fun _ => holds_raiseFindings v fs

theorem holds_applyEffect (stops : Bool) (effect : Effect) (v : Value) :
    J.Holds (applyEffect call stops effect v) := by
  cases effect with
  | preprocess flavour map => exact J.holds_pure _
  | refine flavour accepts message =>
      exact J.holds_bind J.of_countCall fun _ =>
        J.holds_ite (J.holds_pure _) (J.holds_refuse _ _ _)
  | rule findings =>
      exact J.holds_bind J.of_countCall fun _ => J.holds_ite (J.holds_pure _)
        (J.holds_bind (J.holds_raiseFindings v _) fun _ => J.holds_pure _)
  | transform flavour map =>
      refine J.holds_bind J.of_countCall fun _ => ?_
      split
      · exact J.holds_pure _
      · exact J.holds_refuse _ _ _

theorem holds_parseEffect {inner : Schema × Runner} (h : ∀ v, J.Holds (inner.2 v))
    (effect : Effect) (v : Value) : J.Holds (node.parseEffect call inner effect v) := by
  unfold parseEffect
  refine J.holds_ite
    (fun here => J.at_path (J.holds_bind (J.holds_misuse _) (fun _ => ?_) here)) ?_
  -- What comes after a misuse is the same as what comes without one.
  all_goals
    split
    · exact J.holds_bind J.of_countCall fun _ => h _
    · exact J.holds_next (h v) (J.holds_pure _) fun w => J.holds_applyEffect _ _ w

/-! ## All nodes -/

theorem holds_follow {run : Option (Schema → Runner)} {id : SchemaId}
    (h : ∀ r ∈ run, ∀ s v, J.Holds (r s v)) (v : Value) : J.Holds (follow call run id v) := by
  unfold follow
  split
  · exact J.holds_misuse _
  · split
    · exact fun here => J.at_path (J.holds_misuse _ here)
    next r =>
        split
        · exact h r rfl _ _
        · exact J.holds_misuse _

/-- A judgement holds of a node when it holds of its inner schemas and of the definitions that
lazy nodes name. -/
theorem holds_parseNode {run : Schema → Runner} {follow : SchemaId → Runner}
    (h : ∀ s ∈ node.kind.children, ∀ v, J.Holds (run s v)) (hfollow : ∀ id v, J.Holds (follow id v))
    (v : Value) :
    J.Holds (parseNode call follow node (node.kind.map fun t => (t, run t)) v) := by
  have hmembers {members : List Schema} (hm : ∀ s ∈ members, s ∈ node.kind.children) :
      ∀ m ∈ (members.map fun t => (t, run t)).map Prod.snd, J.Holds (m v) := by
    intro m hm'
    obtain ⟨x, hx, rfl⟩ := List.mem_map.mp hm'
    obtain ⟨s, hs, rfl⟩ := List.mem_map.mp hx
    exact h s (hm s hs) v
  cases hk : node.kind with
  | leaf l => exact J.holds_parseLeaf node l v
  | array e => exact J.holds_parseArray node (h e (by simp [hk, Kind.children])) v
  | set e => exact J.holds_parseSet node (h e (by simp [hk, Kind.children])) v
  | tuple items rest =>
      refine J.holds_parseTuple node (fun s hs => ?_) (fun r hr => ?_) v
      · obtain ⟨t, ht, rfl⟩ := List.mem_map.mp hs
        exact h t (by rw [hk]; exact List.mem_append_left _ ht)
      · cases rest with
        | none => cases hr
        | some t =>
            cases hr
            exact h t (by rw [hk]; exact List.mem_append_right _ (List.mem_singleton.mpr rfl))
  | object shape unknown =>
      have hobject : (Kind.object shape unknown).map (fun t => (t, run t)) =
          .object (shape.map fun t => (t, run t)) (besideRuns run unknown) := by
        cases unknown <;> rfl
      rw [hobject]
      exact J.holds_parseObject node (by rwa [hk] at h) v
  | record key value =>
      exact J.holds_parseRecord node (h key (by simp [hk, Kind.children]))
        (h value (by simp [hk, Kind.children])) v
  | union members => exact J.holds_parseUnion node (hmembers fun s hs => by rwa [hk])
  | intersection members =>
      exact J.holds_parseIntersection node (hmembers fun s hs => by rwa [hk])
  | optional inner =>
      exact J.holds_ite (J.holds_pure _) (h inner (by simp [hk, Kind.children]) v)
  | nullable inner =>
      exact J.holds_ite (J.holds_pure _) (h inner (by simp [hk, Kind.children]) v)
  | default inner value => exact h inner (by simp [hk, Kind.children]) _
  | brand inner name => exact h inner (by simp [hk, Kind.children]) v
  | effects inner effect =>
      exact J.holds_parseEffect node (h inner (by simp [hk, Kind.children])) effect v
  | pipeline input output =>
      exact J.holds_next (h input (by simp [hk, Kind.children]) v) (J.holds_pure _)
        (h output (by simp [hk, Kind.children]))
  | lazy id => exact hfollow id v

/-- A judgement holds of every run.  The induction is on the lazy nodes that may still be
resolved, and then on schemas. -/
theorem holds_runWithin (hops : Nat) (s : Schema) : ∀ v, J.Holds (runWithin call hops s v) := by
  induction hops generalizing s with
  | zero =>
      have hfollow (id : SchemaId) (v : Value) : J.Holds (follow call none id v) :=
        J.holds_follow (fun r hr => by cases hr) v
      induction s using Schema.induction with
      | h s ih =>
          intro v
          rw [runWithin_eq]
          exact J.holds_parseNode s ih hfollow v
  | succ hops ihops =>
      have hfollow (id : SchemaId) (v : Value) :
          J.Holds (follow call (some (runWithin call hops)) id v) :=
        J.holds_follow (fun r hr => by cases hr; exact ihops) v
      induction s using Schema.induction with
      | h s ih =>
          intro v
          rw [runWithin_eq]
          exact J.holds_parseNode s ih hfollow v

end Parser.Judgement

end ValueSchema
