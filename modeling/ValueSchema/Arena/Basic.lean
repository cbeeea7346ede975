import ValueSchema.Schema.Basic

/-!
# Arenas

An `Arena` holds the named definitions that lazy nodes refer to.  A name is declared
first, which gives its id, and defined once afterwards, so that definitions can refer
to themselves and to each other.  The names are kept twice: in a list of slots, where an
id finds its definition, and in a map that finds the place of a name.  The arena also
bounds how deeply lazy nodes may nest in one call.

`Arena.unresolved` lists the ids that the definitions use, or that are declared, and
that have no definition.  `Schema.acceptsUndefinedIn` says whether a missing value can
pass a schema, looking lazy nodes up in an arena.
-/

namespace ValueSchema

/-- A declared name and its definition, if it has one yet. -/
structure Slot where
  /-- The name. -/
  name : String
  /-- The definition. -/
  schema : Option Schema := none

/-- The declared names with their definitions, and the places of the names. -/
structure Directory where
  /-- The declared names, in order. -/
  slots : List Slot := []
  /-- The place of each name. -/
  names : Entries Nat := Entries.ofList (slots.mapIdx fun i s => (s.name, i))

namespace Directory

/-- No names. -/
def empty : Directory := { slots := [], names := .empty }

/-- Adds a name without a definition. -/
def add (d : Directory) (name : String) : Directory :=
  { slots := d.slots ++ [{ name := name }], names := d.names.insert name d.slots.length }

/-- Puts a slot in the place of another one of the same name. -/
def fill (d : Directory) (index : Nat) (slot : Slot) : Directory :=
  { d with slots := d.slots.set index slot }

end Directory

/-- Named definitions. -/
structure Arena extends Directory where
  /-- The number of the arena among all arenas. -/
  id : Nat
  /-- How many lazy nodes may be resolved one inside the other. -/
  maxDepth : Nat := 100

/-- Why an arena refuses a declaration or a definition. -/
inductive ArenaError where
  /-- The name is declared already. -/
  | duplicateName (name : String)
  /-- The name is defined already. -/
  | alreadyDefined (name : String)
  /-- The id belongs to another arena. -/
  | unknownId (id : SchemaId)
deriving DecidableEq, Repr

/-- The message of an error. -/
def ArenaError.message : ArenaError → String
  | .duplicateName name => "schema '" ++ name ++ "' already declared"
  | .alreadyDefined name => "schema '" ++ name ++ "' already defined"
  | .unknownId id => "schema id " ++ id.text ++ " does not belong to this arena"

namespace Arena

/-- The id of a place of the arena. -/
def idAt (a : Arena) (index : Nat) : SchemaId := ⟨a.id, index⟩

/-- The slot of an id, if the id belongs to the arena. -/
def slot? (a : Arena) (id : SchemaId) : Option Slot :=
  if id.arena = a.id then a.slots[id.index]? else none

/-- The definition of an id. -/
def get? (a : Arena) (id : SchemaId) : Option Schema := (a.slot? id).bind Slot.schema

/-- The id of a name. -/
def idOf? (a : Arena) (name : String) : Option SchemaId :=
  (a.names.get? name).map a.idAt

/-- The definition of a name. -/
def getByName? (a : Arena) (name : String) : Option Schema := (a.idOf? name).bind a.get?

/-- The number of declared names. -/
def size (a : Arena) : Nat := a.slots.length

/-- Something that is done with an arena and may be refused.  A refusal does not take back
what was done before it. -/
abbrev Act (α : Type) := ExceptT ArenaError (StateM Arena) α

/-- What an act gives and the arena after it, if it is not refused. -/
def Act.outcome {α : Type} (x : Act α) (a : Arena) : Except ArenaError (α × Arena) :=
  match x.run.run a with
  | (.ok r, b) => .ok (r, b)
  | (.error e, _) => .error e

/-- Declares a name. -/
def declaring (name : String) : Act SchemaId := do
  let a ← get
  if a.names.hasKey name then throw (.duplicateName name)
  set { a with toDirectory := a.add name }
  return a.idAt a.size

/-- Defines a declared name. -/
def defining (id : SchemaId) (schema : Schema) : Act Unit := do
  let a ← get
  match a.slot? id with
  | none => throw (.unknownId id)
  | some slot =>
      if slot.schema.isSome then throw (.alreadyDefined slot.name)
      set { a with toDirectory := a.fill id.index { slot with schema := some schema } }

/-- Declares and defines a name. -/
def registering (name : String) (schema : Schema) : Act SchemaId := do
  let id ← declaring name
  defining id schema
  return id

/-- The arena with a name declared. -/
def declare (a : Arena) (name : String) : Except ArenaError (SchemaId × Arena) :=
  (declaring name).outcome a

/-- The arena with a declared name defined. -/
def define (a : Arena) (id : SchemaId) (schema : Schema) : Except ArenaError Arena :=
  ((defining id schema).outcome a).map Prod.snd

/-- The arena with a name declared and defined. -/
def register (a : Arena) (name : String) (schema : Schema) :
    Except ArenaError (SchemaId × Arena) :=
  (registering name schema).outcome a

theorem run_declaring (a : Arena) (name : String) :
    (declaring name).run.run a =
      if a.names.hasKey name then (.error (.duplicateName name), a)
      else (.ok (a.idAt a.size), { a with toDirectory := a.add name }) := by
  show (ite (a.names.hasKey name = true) _ _ : Act SchemaId) a = _
  split <;> rfl

theorem run_defining (a : Arena) (id : SchemaId) (schema : Schema) :
    (defining id schema).run.run a =
      match a.slot? id with
      | none => (.error (.unknownId id), a)
      | some slot =>
          if slot.schema.isSome then (.error (.alreadyDefined slot.name), a)
          else (.ok (), { a with
            toDirectory := a.fill id.index { slot with schema := some schema } }) := by
  show (match a.slot? id with
    | none => throw _
    | some slot => ite (slot.schema.isSome = true) _ _ : Act Unit) a = _
  cases a.slot? id with
  | none => rfl
  | some slot =>
      dsimp only
      split <;> rfl

theorem run_registering (a : Arena) (name : String) (schema : Schema) :
    (registering name schema).run.run a =
      match (declaring name).run.run a with
      | (.ok id, b) =>
          let (result, c) := (defining id schema).run.run b
          (result.map fun _ => id, c)
      | (.error e, b) => (.error e, b) := by
  rw [registering, ExceptT.run_bind, StateT.run_bind]
  rcases (declaring name).run.run a with ⟨e | id, b⟩
  · rfl
  · show StateT.run (ExceptT.run (defining id schema >>= fun _ => pure id)) b = _
    rw [ExceptT.run_bind, StateT.run_bind]
    dsimp only
    rcases (defining id schema).run.run b with ⟨e | _, c⟩ <;> rfl

theorem declare_eq (a : Arena) (name : String) :
    a.declare name =
      if a.names.hasKey name then .error (.duplicateName name)
      else .ok (a.idAt a.size, { a with toDirectory := a.add name }) := by
  rw [declare, Act.outcome, run_declaring]
  cases a.names.hasKey name <;> rfl

theorem define_eq (a : Arena) (id : SchemaId) (schema : Schema) :
    a.define id schema =
      match a.slot? id with
      | none => .error (.unknownId id)
      | some slot =>
          if slot.schema.isSome then .error (.alreadyDefined slot.name)
          else .ok { a with
            toDirectory := a.fill id.index { slot with schema := some schema } } := by
  rw [define, Act.outcome, run_defining]
  cases a.slot? id with
  | none => rfl
  | some slot => cases hs : slot.schema.isSome <;> simp only [hs] <;> rfl

theorem register_eq (a : Arena) (name : String) (schema : Schema) :
    a.register name schema =
      (a.declare name).bind fun (id, b) => (b.define id schema).map fun c => (id, c) := by
  rw [register, Act.outcome, run_registering, declare, Act.outcome]
  rcases (declaring name).run.run a with ⟨e | id, b⟩
  · rfl
  · show _ = Except.map _ (Except.map Prod.snd ((defining id schema).outcome b))
    rw [Act.outcome]
    dsimp only
    rcases (defining id schema).run.run b with ⟨e | _, c⟩ <;> rfl

/-- The order of ids: by arena, then by place. -/
def idLe (i j : SchemaId) : Bool :=
  i.arena < j.arena || (i.arena = j.arena && i.index ≤ j.index)

/-- The ids that occur in a definition or are declared. -/
def mentioned (a : Arena) : List SchemaId :=
  a.slots.flatMap (fun s => (s.schema.map Schema.lazyIds).getD [])
    ++ (List.range a.size).map a.idAt

/-- The ids that occur in a definition or are declared and have no definition, in
order and each once. -/
def unresolved (a : Arena) : List SchemaId :=
  ((a.mentioned.filter fun id => (a.get? id).isNone).mergeSort idLe).eraseDups

end Arena

/-! ## Missing values -/

/-- Whether a missing value passes a leaf. -/
def Leaf.acceptsUndefined : Leaf → Bool
  | .any => true
  | .unknown => true
  | .never => true
  | .undefined => true
  | .literal v => v.isUndefined
  | .enum values => values.any Value.isUndefined
  | _ => false

namespace Schema

mutual

/-- Whether a missing value can pass a schema, where `follow` answers for lazy nodes.
Wrappers pass the question on, and every other node with inner schemas refuses. -/
def acceptsUndefinedBy (follow : SchemaId → Bool) : Schema → Bool
  | ⟨_, kind, _, _⟩ => kindAcceptsUndefinedBy follow kind

/-- Whether a missing value can pass a node of a kind. -/
def kindAcceptsUndefinedBy (follow : SchemaId → Bool) : Kind Schema → Bool
  | .leaf l => l.acceptsUndefined
  | .optional _ => true
  | .default _ _ => true
  | .nullable s => acceptsUndefinedBy follow s
  | .brand s _ => acceptsUndefinedBy follow s
  | .effects s _ => acceptsUndefinedBy follow s
  | .pipeline i _ => acceptsUndefinedBy follow i
  | .union members => anyAcceptsUndefinedBy follow members
  | .lazy id => follow id
  | _ => false

/-- Whether a missing value can pass one of several schemas. -/
def anyAcceptsUndefinedBy (follow : SchemaId → Bool) : List Schema → Bool
  | [] => false
  | s :: ss => acceptsUndefinedBy follow s || anyAcceptsUndefinedBy follow ss

end

/-- Whether a missing value can pass a schema, resolving at most `hops` lazy nodes one
inside the other. -/
def acceptsUndefinedWithin (a : Arena) : Nat → Schema → Bool
  | 0 => acceptsUndefinedBy fun _ => false
  | hops + 1 => acceptsUndefinedBy fun id => (a.get? id).any (acceptsUndefinedWithin a hops)
termination_by structural hops => hops

/-- Whether a missing value can pass a schema.  Lazy nodes are looked up in the arena,
down to its depth, and refuse without one. -/
def acceptsUndefinedIn (a : Option Arena) (s : Schema) : Bool :=
  match a with
  | some a => acceptsUndefinedWithin a a.maxDepth s
  | none => acceptsUndefinedBy (fun _ => false) s

/-- Whether a missing value can pass a schema, every lazy node refusing. -/
def acceptsUndefined (s : Schema) : Bool := acceptsUndefinedIn none s

end Schema

end ValueSchema
