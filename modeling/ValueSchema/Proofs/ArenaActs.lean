import Mathlib.Data.List.Basic
import ValueSchema.Arena.Pool
import ValueSchema.Parse.Entry

/-!
# Acts on arenas

A `PoolAct` is one use of the arenas of a pool: an arena is created, or something is done with
one through a handle.  `Pool.perform` carries an act out and gives the answer.  To register a
name takes two calls, one to declare and one to define it, and a refusal of the second one would
not take the first one back.

`Pool.Responds` lists what an act through a handle may do, with the conditions under which it
does it.  A directory is changed in two ways only, and there are two views of it: the name of a
place (`Directory.nameAt`) and its definition (`Directory.schemaAt`).  Each change has one
equation for each view, and nothing else is needed of the slots.
-/

namespace ValueSchema

/-- What may be done with an arena. -/
inductive ArenaOp where
  /-- Declares a name. -/
  | declare (name : String)
  /-- Defines a declared name. -/
  | define (id : SchemaId) (schema : Schema)
  /-- Declares and defines a name. -/
  | register (name : String) (schema : Schema)
  /-- Asks for the definition of an id. -/
  | get (id : SchemaId)
  /-- Asks for the id of a name. -/
  | idOf (name : String)
  /-- Asks for the definition of a name. -/
  | getByName (name : String)

/-- A use of the arenas of a pool. -/
inductive PoolAct where
  /-- Creates an arena. -/
  | create
  /-- Does something through a handle. -/
  | on (handle : ArenaHandle) (op : ArenaOp)

/-- What an act gives back. -/
inductive PoolAnswer where
  /-- The arena is there. -/
  | created (handle : ArenaHandle)
  /-- The arena refuses to do it. -/
  | refused (e : ArenaError)
  /-- The name is defined. -/
  | defined
  /-- The id of the name, if it is declared. -/
  | named (id : Option SchemaId)
  /-- The definition, if there is one. -/
  | found (schema : Option Schema)

/-- The answer that a result amounts to. -/
def PoolAnswer.of {α : Type} (answer : α → PoolAnswer) : Except ArenaError α → PoolAnswer
  | .ok r => answer r
  | .error e => .refused e

/-! ## Directories -/

namespace Directory

/-- The name of a place. -/
def nameAt (d : Directory) (i : Nat) : Option String := (d.slots[i]?).map Slot.name

/-- The definition of a place. -/
def schemaAt (d : Directory) (i : Nat) : Option Schema := (d.slots[i]?).bind Slot.schema

/-- The map of names and the list of slots agree. -/
def Indexed (d : Directory) : Prop := ∀ name i, d.names.get? name = some i ↔ d.nameAt i = some name

variable {d : Directory} {name : String} {slot slot' : Slot} {i j : Nat}

theorem nameAt_lt (h : d.nameAt i = some name) : i < d.slots.length := by
  obtain ⟨slot, hslot, -⟩ := Option.map_eq_some_iff.mp h
  exact (List.getElem?_eq_some_iff.mp hslot).1

theorem getElem?_add (d : Directory) (name : String) (i : Nat) :
    (d.add name).slots[i]? = if i = d.slots.length then some { name := name } else d.slots[i]? := by
  show (d.slots ++ [({ name := name } : Slot)])[i]? = _
  split
  next h => rw [h, List.getElem?_concat_length]
  next h =>
      rcases Nat.lt_or_ge i d.slots.length with hlt | hge
      · exact List.getElem?_append_left hlt
      · rw [List.getElem?_eq_none (by simp; omega), List.getElem?_eq_none hge]

theorem getElem?_fill (h : d.slots[i]? = some slot) (slot' : Slot) (j : Nat) :
    (d.fill i slot').slots[j]? = if j = i then some slot' else d.slots[j]? := by
  have hlt : i < d.slots.length := (List.getElem?_eq_some_iff.mp h).1
  show (d.slots.set i slot')[j]? = _
  split
  next hj => rw [hj, List.getElem?_set_self hlt]
  next hj => exact List.getElem?_set_ne (Ne.symm hj)

theorem nameAt_add (d : Directory) (name : String) (i : Nat) :
    (d.add name).nameAt i = if i = d.slots.length then some name else d.nameAt i := by
  rw [nameAt, getElem?_add, apply_ite (Option.map Slot.name)]
  rfl

/-- A new name has no definition. -/
theorem schemaAt_add (d : Directory) (name : String) (i : Nat) :
    (d.add name).schemaAt i = d.schemaAt i := by
  rw [schemaAt, getElem?_add]
  split
  next h =>
      rw [schemaAt, h, List.getElem?_eq_none (Nat.le_refl _)]
      rfl
  next => rfl

/-- A slot may be replaced by one of the same name. -/
theorem nameAt_fill (h : d.slots[i]? = some slot) (slot' : Slot)
    (hname : slot'.name = slot.name) (j : Nat) :
    (d.fill i slot').nameAt j = d.nameAt j := by
  rw [nameAt, getElem?_fill h]
  split
  next hj => rw [nameAt, hj, h, Option.map_some, Option.map_some, hname]
  next => rfl

theorem schemaAt_fill (h : d.slots[i]? = some slot) (slot' : Slot) (j : Nat) :
    (d.fill i slot').schemaAt j = if j = i then slot'.schema else d.schemaAt j := by
  rw [schemaAt, getElem?_fill h, apply_ite (fun o : Option Slot => o.bind Slot.schema)]
  rfl

theorem indexed_empty : empty.Indexed :=
  fun _ i => ⟨(nomatch ·), fun h => absurd (nameAt_lt h) (Nat.not_lt_zero i)⟩

/-- A name that is not in the map is in no slot, so it may be added to both. -/
theorem Indexed.add (hd : d.Indexed) (hnew : d.names.hasKey name = false) :
    (d.add name).Indexed := by
  have hunused (i : Nat) : d.nameAt i ≠ some name := by
    intro hi
    have hkey : d.names.hasKey name = true := by rw [Entries.hasKey, (hd name i).mpr hi]; rfl
    rw [hnew] at hkey
    cases hkey
  intro other i
  show (d.names.insert name d.slots.length).get? other = some i ↔ _
  rw [Entries.get?_insert, nameAt_add]
  by_cases hother : name = other
  · subst hother
    rw [if_pos rfl]
    split
    next hi => simp [hi]
    next hi => simp [hunused i, Ne.symm hi]
  · rw [if_neg hother, hd other i]
    split
    next hi =>
        have hnone : d.nameAt i ≠ some other := fun h => by have := nameAt_lt h; omega
        simp [hother, hnone]
    next => rfl

theorem Indexed.fill (hd : d.Indexed) (h : d.slots[i]? = some slot)
    (hname : slot'.name = slot.name) : (d.fill i slot').Indexed := by
  intro other j
  rw [nameAt_fill h slot' hname]
  exact hd other j

end Directory

/-! ## Arenas -/

namespace Arena

/-- A name that was just declared can be defined, so a registration is one change. -/
theorem run_registering_eq (a : Arena) (name : String) (schema : Schema) :
    (registering name schema).run.run a =
      if a.names.hasKey name then (.error (.duplicateName name), a)
      else (.ok (a.idAt a.size),
        { a with toDirectory := (a.add name).fill a.size ⟨name, some schema⟩ }) := by
  rw [run_registering, run_declaring]
  cases a.names.hasKey name with
  | true => rfl
  | false =>
      have hslot : ({ a with toDirectory := a.add name } : Arena).slot? (a.idAt a.size) =
          some ⟨name, none⟩ :=
        (if_pos rfl).trans ((a.getElem?_add name a.size).trans (if_pos rfl))
      simp only [Bool.false_eq_true, if_false, run_defining, hslot]
      rfl

end Arena

/-! ## Pools -/

namespace Pool

/-- The arena of a handle has been created. -/
def Has (p : Pool) (h : ArenaHandle) : Prop := h.id < p.arenas.length

/-- The pool with the directory of an arena replaced. -/
def put (p : Pool) (k : Nat) (d : Directory) : Pool := ⟨p.arenas.set k d⟩

/-- Carries something out through a handle. -/
def respond (p : Pool) (h : ArenaHandle) : ArenaOp → PoolAnswer × Pool
  | .declare name => (p.carry h (Arena.declaring name)).map (.of fun id => .named (some id)) id
  | .define i schema => (p.carry h (Arena.defining i schema)).map (.of fun _ => .defined) id
  | .register name schema =>
      (p.carry h (Arena.registering name schema)).map (.of fun id => .named (some id)) id
  | .get id => (.found ((p.view h).get? id), p)
  | .idOf name => (.named ((p.view h).idOf? name), p)
  | .getByName name => (.found ((p.view h).getByName? name), p)

/-- Carries an act out. -/
def perform (p : Pool) : PoolAct → PoolAnswer × Pool
  | .create => p.create.map .created id
  | .on h op => p.respond h op

variable {p : Pool} {h : ArenaHandle} {id : SchemaId} {k : Nat}

theorem directory_put (hk : k < p.arenas.length) (d : Directory) (j : Nat) :
    (p.put k d).directory j = if j = k then d else p.directory j := by
  unfold directory put
  split
  next hj => rw [hj, List.getElem?_set_self hk, Option.getD_some]
  next hj => rw [List.getElem?_set_ne (Ne.symm hj)]

theorem put_directory (hk : k < p.arenas.length) : p.put k (p.directory k) = p := by
  rw [put, directory, List.getElem?_eq_getElem hk, Option.getD_some, List.set_getElem_self]

theorem directory_create (p : Pool) (k : Nat) : p.create.2.directory k = p.directory k := by
  show ((p.arenas ++ [.empty])[k]?).getD .empty = _
  rcases Nat.lt_trichotomy k p.arenas.length with hlt | rfl | hgt
  · rw [directory, List.getElem?_append_left hlt]
  · rw [directory, List.getElem?_concat_length, List.getElem?_eq_none (Nat.le_refl _)]
    rfl
  · rw [directory, List.getElem?_eq_none (by simp; omega), List.getElem?_eq_none (by omega)]

theorem slot?_view (p : Pool) (h : ArenaHandle) (id : SchemaId) :
    (p.view h).slot? id = if id.arena = h.id then (p.directory h.id).slots[id.index]? else none :=
  rfl

theorem slot?_view_eq_some_iff {slot : Slot} :
    (p.view h).slot? id = some slot ↔
      id.arena = h.id ∧ (p.directory h.id).slots[id.index]? = some slot := by
  rw [slot?_view]
  split <;> simp [*]

/-- A handle finds a definition through the ids of its own arena only. -/
theorem get?_view (p : Pool) (h : ArenaHandle) (id : SchemaId) :
    (p.view h).get? id =
      if id.arena = h.id then (p.directory h.id).schemaAt id.index else none := by
  rw [Arena.get?, slot?_view, apply_ite (fun o : Option Slot => o.bind Slot.schema)]
  rfl

theorem idOf?_view_eq_some_iff {name : String} :
    (p.view h).idOf? name = some id ↔
      id.arena = h.id ∧ (p.directory h.id).names.get? name = some id.index := by
  show ((p.directory h.id).names.get? name).map (⟨h.id, ·⟩) = some id ↔ _
  rw [Option.map_eq_some_iff]
  constructor
  · rintro ⟨i, hi, rfl⟩
    exact ⟨rfl, hi⟩
  · rintro ⟨harena, hi⟩
    exact ⟨id.index, hi, by rw [← harena]⟩

/-! ## What an act does -/

/-- What may come of doing something through a handle. -/
inductive Responds (p : Pool) (h : ArenaHandle) : ArenaOp → PoolAnswer → Pool → Prop where
  | refused {op : ArenaOp} (e : ArenaError) : Responds p h op (.refused e) p
  | declared {name : String} : (p.directory h.id).names.hasKey name = false →
      Responds p h (.declare name) (.named (some ⟨h.id, (p.directory h.id).slots.length⟩))
        (p.put h.id ((p.directory h.id).add name))
  | defined {id : SchemaId} {schema : Schema} {slot : Slot} : id.arena = h.id →
      (p.directory h.id).slots[id.index]? = some slot → slot.schema = none →
      Responds p h (.define id schema) .defined
        (p.put h.id ((p.directory h.id).fill id.index { slot with schema := some schema }))
  | registered {name : String} {schema : Schema} : (p.directory h.id).names.hasKey name = false →
      Responds p h (.register name schema)
        (.named (some ⟨h.id, (p.directory h.id).slots.length⟩))
        (p.put h.id (((p.directory h.id).add name).fill (p.directory h.id).slots.length
          ⟨name, some schema⟩))
  | get (id : SchemaId) : Responds p h (.get id) (.found ((p.view h).get? id)) p
  | idOf (name : String) : Responds p h (.idOf name) (.named ((p.view h).idOf? name)) p
  | getByName (name : String) :
      Responds p h (.getByName name) (.found ((p.view h).getByName? name)) p

theorem store_view (hh : p.Has h) : p.store (p.view h) = p := put_directory hh

theorem carry_eq {α : Type} {x : Arena.Act α} {r : Except ArenaError α} {a : Arena}
    (hx : x.run.run (p.view h) = (r, a)) : p.carry h x = (r, p.store a) := by
  rw [carry, hx]

/-- Everything that is done through a handle is one of these. -/
theorem responds (hh : p.Has h) (op : ArenaOp) :
    p.Responds h op (p.respond h op).1 (p.respond h op).2 := by
  cases op with
  | declare name =>
      have hrun := (p.view h).run_declaring name
      rw [respond]
      cases hkey : (p.directory h.id).names.hasKey name with
      | true =>
          rw [carry_eq (hrun.trans (if_pos hkey)), store_view hh]
          exact .refused _
      | false =>
          rw [carry_eq (hrun.trans (if_neg (Bool.not_eq_true _ ▸ hkey)))]
          exact .declared hkey
  | define id schema =>
      have hrun := (p.view h).run_defining id schema
      rw [respond]
      cases hslot : (p.view h).slot? id with
      | none =>
          rw [hslot] at hrun
          rw [carry_eq hrun, store_view hh]
          exact .refused _
      | some slot =>
          obtain ⟨hid, hat⟩ := slot?_view_eq_some_iff.mp hslot
          rw [hslot] at hrun
          cases hschema : slot.schema with
          | none =>
              rw [carry_eq (hrun.trans (if_neg (by simp [hschema])))]
              exact .defined hid hat hschema
          | some s =>
              rw [carry_eq (hrun.trans (if_pos (by simp [hschema]))), store_view hh]
              exact .refused _
  | register name schema =>
      have hrun := (p.view h).run_registering_eq name schema
      rw [respond]
      cases hkey : (p.directory h.id).names.hasKey name with
      | true =>
          rw [carry_eq (hrun.trans (if_pos hkey)), store_view hh]
          exact .refused _
      | false =>
          rw [carry_eq (hrun.trans (if_neg (Bool.not_eq_true _ ▸ hkey)))]
          exact .registered hkey
  | get id => exact .get id
  | idOf name => exact .idOf name
  | getByName name => exact .getByName name

end Pool

end ValueSchema
