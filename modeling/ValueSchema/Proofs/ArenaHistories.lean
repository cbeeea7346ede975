import Mathlib.Data.List.Nodup
import ValueSchema.Proofs.ArenaActs

/-!
# Histories of arenas

A history is a list of acts that are carried out one after another.  `Pool.Accounts` relates a
pool to what was answered so far: the two stores of every arena agree, an id that was given back
for a name stands for this name, and an id has the definition that it was given, if it was given
one, which happened once.  Every act keeps this (`Accounts.perform`), so it holds after every
history (`Accounts.after`).

That a name or a definition never changes needs no argument of its own: the answers of a history
are among those of a longer one.
-/

namespace ValueSchema

namespace Pool

variable {p q : Pool} {h : ArenaHandle} {id i : SchemaId} {name : String} {schema : Schema}
  {op : ArenaOp} {act : PoolAct} {answer : PoolAnswer} {acts : List PoolAct} {k : Nat}
  {past : List (PoolAct × PoolAnswer)}

/-! ## Answers -/

/-- The pool after some acts. -/
def after (p : Pool) : List PoolAct → Pool
  | [] => p
  | act :: acts => (p.perform act).2.after acts

/-- Some acts with their answers. -/
def trace (p : Pool) : List PoolAct → List (PoolAct × PoolAnswer)
  | [] => []
  | act :: acts => (act, (p.perform act).1) :: (p.perform act).2.trace acts

/-- Every act goes through the handle of an arena that is there. -/
def Legal (p : Pool) : List PoolAct → Prop
  | [] => True
  | .create :: acts => (p.perform .create).2.Legal acts
  | .on h op :: acts => p.Has h ∧ (p.perform (.on h op)).2.Legal acts

/-- The id that was given back for a name. -/
def naming? : PoolAct × PoolAnswer → Option (String × SchemaId)
  | (.on _ (.declare name), .named (some id)) => some (name, id)
  | (.on _ (.register name _), .named (some id)) => some (name, id)
  | (.on _ (.idOf name), .named (some id)) => some (name, id)
  | _ => none

/-- The definition that an id was given. -/
def definition? : PoolAct × PoolAnswer → Option (SchemaId × Schema)
  | (.on _ (.define id schema), .defined) => some (id, schema)
  | (.on _ (.register _ schema), .named (some id)) => some (id, schema)
  | _ => none

theorem trace_append (p : Pool) (acts later : List PoolAct) :
    p.trace (acts ++ later) = p.trace acts ++ (p.after acts).trace later := by
  induction acts generalizing p with
  | nil => rfl
  | cons act acts ih => exact congrArg _ (ih _)

theorem after_append (p : Pool) (acts later : List PoolAct) :
    p.after (acts ++ later) = (p.after acts).after later := by
  induction acts generalizing p with
  | nil => rfl
  | cons act acts ih => exact ih _

theorem Legal.of_append {later : List PoolAct} (hl : p.Legal (acts ++ later)) : p.Legal acts := by
  induction acts generalizing p with
  | nil => trivial
  | cons act acts ih =>
      cases act with
      | create => exact ih (p := (p.perform .create).2) hl
      | on h op => exact ⟨hl.1, ih hl.2⟩

/-! ## One act -/

/-- What an act through a handle of the arena `k` makes of its directory, where `e` is the act
with its answer. -/
structure Grows (k : Nat) (d d' : Directory) (e : PoolAct × PoolAnswer) : Prop where
  /-- The stores still agree. -/
  indexed : d'.Indexed
  /-- No name changes. -/
  names : ∀ {i name}, d.nameAt i = some name → d'.nameAt i = some name
  /-- The id that is given back for a name stands for it. -/
  named : ∀ {name id}, naming? e = some (name, id) →
    id.arena = k ∧ d'.nameAt id.index = some name
  /-- One definition may be new. -/
  schemas : ∀ {i schema}, d'.schemaAt i = some schema ↔
    d.schemaAt i = some schema ∨ definition? e = some (⟨k, i⟩, schema)
  /-- A new definition takes no place of another one. -/
  fresh : ∀ {id schema}, definition? e = some (id, schema) →
    id.arena = k ∧ d.schemaAt id.index = none

variable {d : Directory} {e : PoolAct × PoolAnswer}

/-- An act may change nothing. -/
theorem Grows.same (hd : d.Indexed)
    (hnamed : ∀ {name id}, naming? e = some (name, id) →
      id.arena = k ∧ d.nameAt id.index = some name)
    (hnone : definition? e = none) : Grows k d d e where
  indexed := hd
  names h := h
  named := hnamed
  schemas := by simp [hnone]
  fresh h := by simp [hnone] at h

theorem Grows.declared (hd : d.Indexed) (hnew : d.names.hasKey name = false) :
    Grows h.id d (d.add name) (.on h (.declare name), .named (some ⟨h.id, d.slots.length⟩)) where
  indexed := hd.add hnew
  names {i n} hi := by
    rw [Directory.nameAt_add, if_neg (Nat.ne_of_lt (Directory.nameAt_lt hi)), hi]
  named hn := by
    cases hn
    exact ⟨rfl, by rw [Directory.nameAt_add, if_pos rfl]⟩
  schemas := by simp [Directory.schemaAt_add, definition?]
  fresh hn := by cases hn

theorem Grows.defined {slot : Slot} (hd : d.Indexed) (hid : id.arena = h.id)
    (hslot : d.slots[id.index]? = some slot) (hfree : slot.schema = none) :
    Grows h.id d (d.fill id.index { slot with schema := some schema })
      (.on h (.define id schema), .defined) where
  indexed := hd.fill hslot rfl
  names hi := (Directory.nameAt_fill hslot { slot with schema := some schema } rfl _).trans hi
  named hn := by cases hn
  schemas {i s} := by
    have hnone : d.schemaAt id.index = none := by rw [Directory.schemaAt, hslot]; exact hfree
    have hid' : id = ⟨h.id, i⟩ ↔ i = id.index := by
      rw [← hid]
      exact ⟨fun h => h ▸ rfl, fun h => h ▸ rfl⟩
    rw [Directory.schemaAt_fill hslot, definition?, Option.some_inj, Prod.mk.injEq, hid']
    split
    next hi => simp [hi, hnone]
    next hi => simp [hi]
  fresh hn := by
    cases hn
    exact ⟨hid, by rw [Directory.schemaAt, hslot]; exact hfree⟩

theorem Grows.registered (hd : d.Indexed) (hnew : d.names.hasKey name = false) :
    Grows h.id d ((d.add name).fill d.slots.length ⟨name, some schema⟩)
      (.on h (.register name schema), .named (some ⟨h.id, d.slots.length⟩)) := by
  have hslot : (d.add name).slots[d.slots.length]? = some ⟨name, none⟩ :=
    (Directory.getElem?_add ..).trans (if_pos rfl)
  have hnone : d.schemaAt d.slots.length = none := by
    rw [Directory.schemaAt, List.getElem?_eq_none (Nat.le_refl _)]
    rfl
  have hname (i : Nat) : ((d.add name).fill d.slots.length ⟨name, some schema⟩).nameAt i =
      (d.add name).nameAt i := Directory.nameAt_fill hslot ⟨name, some schema⟩ rfl i
  -- The definition goes to the slot that the declaration adds.
  have hadd := Grows.declared (h := h) hd hnew
  constructor
  case indexed => exact hadd.indexed.fill hslot rfl
  case names =>
    intro i n hi
    exact (hname i).trans (hadd.names hi)
  case named =>
    intro n id hn
    obtain ⟨hid, hat⟩ := hadd.named hn
    exact ⟨hid, (hname _).trans hat⟩
  case schemas =>
    intro i s
    rw [Directory.schemaAt_fill hslot, Directory.schemaAt_add, definition?, Option.some_inj,
      Prod.mk.injEq, SchemaId.mk.injEq]
    split
    next hi => simp [hi, hnone]
    next hi => simp [Ne.symm hi]
  case fresh =>
    intro id s hn
    cases hn
    exact ⟨rfl, hnone⟩

theorem grows_respond (hh : p.Has h) (hd : (p.directory h.id).Indexed) (op : ArenaOp) :
    ∃ d', (p.respond h op).2 = p.put h.id d' ∧
      Grows h.id (p.directory h.id) d' (.on h op, (p.respond h op).1) := by
  have hresponds := p.responds hh op
  generalize p.respond h op = r at hresponds ⊢
  obtain ⟨answer, q⟩ := r
  dsimp only at hresponds ⊢
  have hsame : p = p.put h.id (p.directory h.id) := (put_directory hh).symm
  cases hresponds with
  | refused e =>
      refine ⟨_, hsame, .same hd (fun hn => ?_) ?_⟩
      · cases op <;> cases hn
      · cases op <;> rfl
  | declared hnew => exact ⟨_, rfl, .declared hd hnew⟩
  | defined hid hslot hfree => exact ⟨_, rfl, .defined hd hid hslot hfree⟩
  | registered hnew => exact ⟨_, rfl, .registered hd hnew⟩
  | get id => exact ⟨_, hsame, .same hd (nomatch ·) rfl⟩
  | idOf n =>
      refine ⟨_, hsame, .same hd (fun hn => ?_) ?_⟩
      · cases hid : (p.view h).idOf? n with
        | none =>
            rw [hid] at hn
            cases hn
        | some id =>
            rw [hid] at hn
            cases hn
            obtain ⟨harena, hget⟩ := idOf?_view_eq_some_iff.mp hid
            exact ⟨harena, (hd _ _).mp hget⟩
      · cases (p.view h).idOf? n <;> rfl
  | getByName n => exact ⟨_, hsame, .same hd (nomatch ·) rfl⟩

/-! ## Histories -/

/-- The name that an id stands for. -/
def nameOf (p : Pool) (id : SchemaId) : Option String := (p.directory id.arena).nameAt id.index

/-- The definition of an id. -/
def schemaOf (p : Pool) (id : SchemaId) : Option Schema :=
  (p.directory id.arena).schemaAt id.index

theorem nameOf_put (hh : p.Has h) (d : Directory) (id : SchemaId) :
    (p.put h.id d).nameOf id = if id.arena = h.id then d.nameAt id.index else p.nameOf id := by
  rw [nameOf, directory_put hh, apply_ite (Directory.nameAt · id.index)]
  rfl

theorem schemaOf_put (hh : p.Has h) (d : Directory) (id : SchemaId) :
    (p.put h.id d).schemaOf id =
      if id.arena = h.id then d.schemaAt id.index else p.schemaOf id := by
  rw [schemaOf, directory_put hh, apply_ite (Directory.schemaAt · id.index)]
  rfl

/-- How a pool accounts for the answers that were given so far. -/
structure Accounts (p : Pool) (past : List (PoolAct × PoolAnswer)) : Prop where
  /-- The stores of each arena agree. -/
  indexed : ∀ k, (p.directory k).Indexed
  /-- An id stands for the name that it was given back for. -/
  names : ∀ {name id}, (name, id) ∈ past.filterMap naming? → p.nameOf id = some name
  /-- An id has the definition that it was given. -/
  schemas : ∀ {id schema}, p.schemaOf id = some schema ↔ (id, schema) ∈ past.filterMap definition?
  /-- No id was given two definitions. -/
  once : ((past.filterMap definition?).map Prod.fst).Nodup

theorem accounts_empty : ({} : Pool).Accounts [] where
  indexed _ := Directory.indexed_empty
  names := (nomatch ·)
  schemas := ⟨(nomatch ·), (nomatch ·)⟩
  once := .nil

theorem Accounts.create (hp : p.Accounts past) :
    p.create.2.Accounts (past ++ [(.create, .created p.create.1)]) := by
  have hquiet {α : Type} (f : PoolAct × PoolAnswer → Option α) {e : PoolAct × PoolAnswer}
      (hf : f e = none) : (past ++ [e]).filterMap f = past.filterMap f := by
    simp [hf]
  constructor
  case indexed =>
    intro k
    rw [directory_create]
    exact hp.indexed k
  case names =>
    intro n id hn
    rw [hquiet _ rfl] at hn
    rw [nameOf, directory_create]
    exact hp.names hn
  case schemas =>
    intro id s
    rw [hquiet definition? rfl, schemaOf, directory_create]
    exact hp.schemas
  case once =>
    rw [hquiet _ rfl]
    exact hp.once

theorem Accounts.put {d' : Directory} (hp : p.Accounts past) (hh : p.Has h)
    (hgrows : Grows h.id (p.directory h.id) d' e) :
    (p.put h.id d').Accounts (past ++ [e]) := by
  have hmem {α : Type} (f : PoolAct × PoolAnswer → Option α) (x : α) :
      x ∈ (past ++ [e]).filterMap f ↔ x ∈ past.filterMap f ∨ f e = some x := by
    simp
  constructor
  case indexed =>
    intro k
    rw [directory_put hh]
    split
    · exact hgrows.indexed
    · exact hp.indexed k
  case names =>
    intro n id hn
    rw [nameOf_put hh]
    rcases (hmem _ _).mp hn with hn | hn
    · have hname := hp.names hn
      split
      next hid => exact hgrows.names (by rwa [nameOf, hid] at hname)
      next => exact hname
    · obtain ⟨hid, hname⟩ := hgrows.named hn
      rw [if_pos hid, hname]
  case schemas =>
    intro id s
    rw [schemaOf_put hh, hmem, ← hp.schemas, schemaOf]
    split
    next hid => rw [hgrows.schemas, ← hid]
    next hid =>
        refine ⟨.inl, ?_⟩
        rintro (hs | hs)
        · exact hs
        · exact absurd (hgrows.fresh hs).1 hid
  case once =>
    rw [List.filterMap_append, List.map_append]
    cases hdefinition : definition? e with
    | none => simpa [hdefinition] using hp.once
    | some r =>
        obtain ⟨id, s⟩ := r
        -- An id that is in the list has a definition, and `id` has none.
        have hnew : id ∉ (past.filterMap definition?).map Prod.fst := by
          intro hmem
          obtain ⟨⟨i, t⟩, ht, rfl⟩ := List.mem_map.mp hmem
          obtain ⟨hid, hnone⟩ := hgrows.fresh hdefinition
          rw [← hid] at hnone
          exact absurd (hp.schemas.mpr ht) (by rw [schemaOf, hnone]; simp)
        rw [List.filterMap_cons_some hdefinition, List.nodup_append_comm]
        exact List.nodup_cons.mpr ⟨hnew, hp.once⟩

theorem Accounts.respond (hp : p.Accounts past) (hh : p.Has h) (op : ArenaOp) :
    (p.respond h op).2.Accounts (past ++ [(.on h op, (p.respond h op).1)]) := by
  obtain ⟨d', hd', hgrows⟩ := grows_respond hh (hp.indexed h.id) op
  rw [hd']
  exact hp.put hh hgrows

/-- A pool accounts for all answers of a history. -/
theorem Accounts.after (hp : p.Accounts past) (hl : p.Legal acts) :
    (p.after acts).Accounts (past ++ p.trace acts) := by
  induction acts generalizing p past with
  | nil => rwa [trace, List.append_nil]
  | cons act acts ih =>
      rw [trace, List.append_cons]
      cases act with
      | create => exact ih hp.create hl
      | on h op => exact ih (hp.respond hl.1 op) hl.2

/-! ## What lasts -/

/-- A refusal changes nothing, of the second call of a registration neither. -/
theorem respond_refused (hh : p.Has h) {e : ArenaError} (hr : (p.respond h op).1 = .refused e) :
    (p.respond h op).2 = p := by
  have hresponds := p.responds hh op
  generalize p.respond h op = r at hresponds hr ⊢
  obtain ⟨answer, q⟩ := r
  cases hr
  cases hresponds
  rfl

theorem define_foreign (hh : p.Has h) (hid : id.arena ≠ h.id) (schema : Schema) :
    p.respond h (.define id schema) = (.refused (.unknownId id), p) := by
  have hrun := (p.view h).run_defining id schema
  rw [slot?_view, if_neg hid] at hrun
  rw [respond, carry_eq hrun, store_view hh]
  rfl

theorem nameOf_eq (hid : id.arena = h.id) :
    p.nameOf id = ((p.view h).slot? id).map Slot.name := by
  rw [slot?_view, if_pos hid, nameOf, hid]
  rfl

theorem Accounts.idOf?_iff (hp : p.Accounts past) :
    (p.view h).idOf? name = some id ↔ ((p.view h).slot? id).map Slot.name = some name := by
  rw [idOf?_view_eq_some_iff, slot?_view, hp.indexed]
  split
  next hid => exact and_iff_right hid
  next hid => exact ⟨fun h => absurd h.1 hid, (nomatch ·)⟩

theorem Accounts.get?_iff (hp : p.Accounts past) :
    (p.view h).get? id = some schema ↔
      id.arena = h.id ∧ (id, schema) ∈ past.filterMap definition? := by
  rw [get?_view, ← hp.schemas, schemaOf]
  split
  next hid => rw [hid, and_iff_right rfl]
  next hid => exact ⟨(nomatch ·), fun h => absurd h.1 hid⟩

/-- What is declared and defined in arenas lasts.  After any acts, done through any handles:

* a name has an id exactly when the slot of the id has the name;
* an id that was given back for a name has this name and is its id, now and later;
* no id was given two definitions, and an id has the definition that it was given, now and later;
* whatever is refused leaves everything as it was;
* an id of another arena has no definition, is not given one and is followed nowhere. -/
theorem names_and_definitions_last (acts later : List PoolAct)
    (hl : ({} : Pool).Legal (acts ++ later)) :
    let p := ({} : Pool).after acts
    let q := p.after later
    let past := ({} : Pool).trace acts
    (∀ h name id, (p.view h).idOf? name = some id ↔
      ((p.view h).slot? id).map Slot.name = some name) ∧
    (∀ name id, (name, id) ∈ past.filterMap naming? → ∀ h : ArenaHandle, h.id = id.arena →
      ((q.view h).slot? id).map Slot.name = some name ∧ (q.view h).idOf? name = some id) ∧
    ((past.filterMap definition?).map Prod.fst).Nodup ∧
    (∀ h id schema, (p.view h).get? id = some schema ↔
      id.arena = h.id ∧ (id, schema) ∈ past.filterMap definition?) ∧
    (∀ h id schema, (p.view h).get? id = some schema → (q.view h).get? id = some schema) ∧
    (∀ h op e, p.Has h → (p.respond h op).1 = .refused e → (p.respond h op).2 = p) ∧
    (∀ h id, p.Has h → id.arena ≠ h.id →
      (p.view h).get? id = none ∧
      (∀ schema, p.respond h (.define id schema) = (.refused (.unknownId id), p)) ∧
      (∀ mode v, (p.view h).safeParse mode id v = .error (.undefinedId id)) ∧
      ∀ call run v, call.options.arena = some (p.view h) →
        Schema.follow call (some run) id v = Parser.misuse (.undefinedId id)) := by
  intro p q past
  have hp : p.Accounts past := accounts_empty.after hl.of_append
  have hq : q.Accounts (past ++ p.trace later) := by
    have := accounts_empty.after hl
    rwa [trace_append, after_append] at this
  have hlonger {α : Type} {f : PoolAct × PoolAnswer → Option α} {x : α}
      (hx : x ∈ past.filterMap f) : x ∈ (past ++ p.trace later).filterMap f := by
    rw [List.filterMap_append]
    exact List.mem_append_left _ hx
  refine ⟨fun h n id => hp.idOf?_iff, fun n id hn h hid => ?_, hp.once, fun h id s => hp.get?_iff,
    fun h id s hs => ?_, fun h op e hh hr => respond_refused hh hr, fun h id hh hid => ?_⟩
  · have hname := (nameOf_eq hid.symm).symm.trans (hq.names (hlonger hn))
    exact ⟨hname, hq.idOf?_iff.mpr hname⟩
  · obtain ⟨hid, hmem⟩ := hp.get?_iff.mp hs
    exact hq.get?_iff.mpr ⟨hid, hlonger hmem⟩
  · have hget : (p.view h).get? id = none := by rw [get?_view, if_neg hid]
    refine ⟨hget, define_foreign hh hid, fun mode v => ?_, fun call run v harena => ?_⟩
    · rw [Arena.safeParse, hget]
    · rw [Schema.follow, harena]
      dsimp only
      rw [hget]

/-- Two arenas are created, and `note` is registered in the first one.  It is refused to declare
the name once more through another handle, and to define its id in the other arena. -/
def noteActs : List PoolAct :=
  [.create, .create, .on ⟨0, 100⟩ (.register "note" ⟨0, .leaf .string, .empty, {}⟩),
    .on ⟨0, 3⟩ (.declare "note"), .on ⟨1, 100⟩ (.define ⟨0, 0⟩ ⟨1, .leaf .any, .empty, {}⟩)]

/-- It is refused to define `note` once more, and the other arena takes up the name. -/
def otherNoteActs : List PoolAct :=
  [.on ⟨0, 3⟩ (.define ⟨0, 0⟩ ⟨1, .leaf .any, .empty, {}⟩),
    .on ⟨1, 100⟩ (.register "note" ⟨1, .leaf .any, .empty, {}⟩)]

theorem noteActs_last :
    ({} : Pool).Legal (noteActs ++ otherNoteActs) ∧
    ((({} : Pool).after noteActs).after otherNoteActs |>.view ⟨0, 7⟩).idOf? "note" = some ⟨0, 0⟩ ∧
    ((({} : Pool).after noteActs).after otherNoteActs |>.view ⟨0, 7⟩).get? ⟨0, 0⟩ =
      some ⟨0, .leaf .string, .empty, {}⟩ := by
  have hl : ({} : Pool).Legal (noteActs ++ otherNoteActs) :=
    ⟨Nat.zero_lt_succ _, Nat.zero_lt_succ _, Nat.lt_succ_self _, Nat.zero_lt_succ _,
      Nat.lt_succ_self _, trivial⟩
  obtain ⟨-, hnames, -, hdefinitions, hlast, -⟩ :=
    names_and_definitions_last noteActs otherNoteActs hl
  refine ⟨hl, (hnames "note" ⟨0, 0⟩ (.head _) ⟨0, 7⟩ rfl).2, hlast _ _ _ ?_⟩
  exact (hdefinitions _ _ _).mpr ⟨rfl, .head _⟩

end Pool

end ValueSchema
