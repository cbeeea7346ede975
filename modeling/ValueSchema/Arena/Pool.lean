import ValueSchema.Arena.Basic

/-!
# Arenas that share their definitions

A `Pool` keeps the names and definitions of several arenas.  An `ArenaHandle` refers to
one of them and has a depth bound of its own, so two handles to one arena see the same
definitions and may differ in the bound.  The numbers of the arenas follow the order of
their creation.
-/

namespace ValueSchema

/-- A reference to an arena of a pool. -/
structure ArenaHandle where
  /-- The number of the arena. -/
  id : Nat
  /-- How many lazy nodes may be resolved one inside the other through this handle. -/
  maxDepth : Nat := 100
deriving DecidableEq, Repr

/-- What is declared in arenas, in the order of their creation. -/
structure Pool where
  /-- The names and definitions of each arena. -/
  arenas : List Directory := []

namespace Pool

/-- A new arena without names. -/
def create (p : Pool) : ArenaHandle × Pool := ({ id := p.arenas.length }, ⟨p.arenas ++ [.empty]⟩)

/-- The names and definitions of an arena. -/
def directory (p : Pool) (id : Nat) : Directory := (p.arenas[id]?).getD .empty

/-- The arena that a handle sees. -/
def view (p : Pool) (h : ArenaHandle) : Arena :=
  { toDirectory := p.directory h.id, id := h.id, maxDepth := h.maxDepth }

/-- The pool with the names and definitions of an arena replaced. -/
def store (p : Pool) (a : Arena) : Pool := ⟨p.arenas.set a.id a.toDirectory⟩

/-- Does something with an arena through a handle.  The pool takes over what was done, also
when the rest is refused. -/
def carry {α : Type} (p : Pool) (h : ArenaHandle) (x : Arena.Act α) : Except ArenaError α × Pool :=
  let (result, a) := x.run.run (p.view h)
  (result, p.store a)

/-- What an act through a handle gives and the pool after it, if it is not refused. -/
def outcome {α : Type} (p : Pool) (h : ArenaHandle) (x : Arena.Act α) :
    Except ArenaError (α × Pool) :=
  match p.carry h x with
  | (.ok r, q) => .ok (r, q)
  | (.error e, _) => .error e

/-- Declares a name through a handle. -/
def declare (p : Pool) (h : ArenaHandle) (name : String) : Except ArenaError (SchemaId × Pool) :=
  p.outcome h (Arena.declaring name)

/-- Defines a declared name through a handle. -/
def define (p : Pool) (h : ArenaHandle) (id : SchemaId) (schema : Schema) :
    Except ArenaError Pool :=
  (p.outcome h (Arena.defining id schema)).map Prod.snd

/-- Declares and defines a name through a handle. -/
def register (p : Pool) (h : ArenaHandle) (name : String) (schema : Schema) :
    Except ArenaError (SchemaId × Pool) :=
  p.outcome h (Arena.registering name schema)

end Pool

end ValueSchema
