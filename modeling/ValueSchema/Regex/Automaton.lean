import ValueSchema.Regex.Anchor
import ValueSchema.Unicode.ByteRange

/-!
# Automata

An `Automaton` reads the bytes of a text.  Its states are numbered; some read a byte,
others go on without reading.  `Build` is the monad in which automata are built, state by
state.  It fails as soon as the states take more than `Automaton.sizeLimit`, so that no
expression, however often it repeats a part, takes more room than that.

A `Fragment` is a part of an automaton with one entry and one exit.  The combinators of
this module join fragments: one after another, one of several, and repeated.
-/

namespace ValueSchema

namespace Regex

/-- A step to another state by a byte. -/
structure Transition where
  /-- The bytes. -/
  range : ByteRange
  /-- The state after the step. -/
  next : Nat
deriving DecidableEq, Repr

/-- A state of an automaton. -/
inductive State where
  /-- Goes on to another state. -/
  | empty (next : Nat)
  /-- Reads a byte. -/
  | byte (t : Transition)
  /-- Reads a byte in one of several ways. -/
  | choice (ts : List Transition)
  /-- Goes on where the position meets a condition. -/
  | anchor (a : Anchor) (next : Nat)
  /-- Goes on to any of several states. -/
  | union (nexts : List Nat)
  /-- Goes on at the start or the end of a group. -/
  | group (next : Nat)
  /-- The text matches. -/
  | accept
deriving DecidableEq, Repr

/-- An automaton. -/
structure Automaton where
  /-- The states. -/
  states : Array State
  /-- The state in which a search starts. -/
  start : Nat

/-! ## Size -/

/-- The size of a state beyond that of an empty one. -/
def State.extraSize : State → Nat
  | .choice ts => 8 * ts.length
  | .union nexts => 4 * nexts.length
  | _ => 0

/-- The size that an automaton may have: ten binary megabytes, where a state counts 32
bytes, each way to read a byte 8 and each way to go on 4. -/
def Automaton.sizeLimit : Nat := 10 * 1024 * 1024

/-- The states of an automaton that is being built. -/
structure Builder where
  /-- The states. -/
  states : Array State := #[]
  /-- The sizes of the states beyond those of empty ones. -/
  extra : Nat := 0

/-- The size of the states. -/
def Builder.size (b : Builder) : Nat := 32 * b.states.size + b.extra

/-! ## Building -/

/-- A step of building, which fails where the states grow too large. -/
abbrev Build := StateT Builder Option

namespace Build

/-- Adds a state and gives its number. -/
def add (s : State) : Build Nat := fun b =>
  let n := b.states.size
  let b := { states := b.states.push s, extra := b.extra + s.extraSize }
  if b.size ≤ Automaton.sizeLimit then some (n, b) else none

/-- A state that goes on to another one, too. -/
def link (next : Nat) : State → State
  | .empty _ => .empty next
  | .byte t => .byte { t with next := next }
  | .choice ts => .choice ts
  | .anchor a _ => .anchor a next
  | .union nexts => .union (next :: nexts)
  | .group _ => .group next
  | .accept => .accept

/-- Whether a state may go on to any number of states. -/
def isUnion : State → Bool
  | .union _ => true
  | _ => false

/-- Lets a state go on to another one. -/
def connect (n next : Nat) : Build Unit := fun b =>
  let extra := if (b.states[n]?).any isUnion then b.extra + 4 else b.extra
  let b := { states := b.states.modify n (link next), extra := extra }
  if b.size ≤ Automaton.sizeLimit then some ((), b) else none

/-- A state that goes on nowhere yet. -/
def empty : Build Nat := add (.empty 0)

/-- A state that goes on to any number of states, none of them yet. -/
def union : Build Nat := add (.union [])

end Build

/-! ## Fragments -/

/-- A part of an automaton. -/
structure Fragment where
  /-- The state that the part starts with. -/
  entry : Nat
  /-- The state that goes on after the part. -/
  leave : Nat

namespace Fragment

/-- A fragment of one state. -/
def one (s : State) : Build Fragment := do
  let n ← Build.add s
  return ⟨n, n⟩

/-- A fragment that reads nothing. -/
def nothing : Build Fragment := one (.empty 0)

/-- A fragment that reads a byte of an interval. -/
def byte (r : ByteRange) : Build Fragment := one (.byte ⟨r, 0⟩)

/-- A fragment that reads one byte of some intervals. -/
def bytes (rs : List ByteRange) : Build Fragment := do
  let leave ← Build.empty
  let entry ← Build.add (.choice (rs.map fun r => ⟨r, leave⟩))
  return ⟨entry, leave⟩

/-- A fragment followed by others. -/
def chainFrom (f : Fragment) : List (Build Fragment) → Build Fragment
  | [] => return f
  | part :: parts => do
      let g ← part
      Build.connect f.leave g.entry
      chainFrom ⟨f.entry, g.leave⟩ parts
termination_by structural parts => parts

/-- Fragments one after another. -/
def chain : List (Build Fragment) → Build Fragment
  | [] => nothing
  | part :: parts => do chainFrom (← part) parts

/-- Fragments as further branches between a union and its end. -/
def branch (union leave : Nat) : List (Build Fragment) → Build Unit
  | [] => return ()
  | part :: parts => do
      let f ← part
      Build.connect union f.entry
      Build.connect f.leave leave
      branch union leave parts
termination_by structural parts => parts

/-- One of several fragments. -/
def choose : List (Build Fragment) → Build Fragment
  | [] => bytes []
  | [part] => part
  | part :: part' :: parts => do
      let f ← part
      let g ← part'
      let union ← Build.union
      let leave ← Build.empty
      branch union leave [return f, return g]
      branch union leave parts
      return ⟨union, leave⟩

/-- A fragment followed by another one `n` times. -/
def extend (f : Fragment) (part : Build Fragment) : Nat → Build Fragment
  | 0 => return f
  | n + 1 => do
      let g ← part
      Build.connect f.leave g.entry
      extend ⟨f.entry, g.leave⟩ part n
termination_by structural n => n

/-- A fragment `n` times. -/
def exactly (part : Build Fragment) : Nat → Build Fragment
  | 0 => nothing
  | n + 1 => do extend (← part) part n

/-- A fragment or nothing. -/
def optional (part : Build Fragment) : Build Fragment := do
  let union ← Build.union
  let f ← part
  let leave ← Build.empty
  Build.connect union f.entry
  Build.connect union leave
  Build.connect f.leave leave
  return ⟨union, leave⟩

/-- A fragment up to `n` times after the state `last`, where each time may be the last
one before `leave`. -/
def upTo (part : Build Fragment) (leave last : Nat) : Nat → Build Unit
  | 0 => Build.connect last leave
  | n + 1 => do
      let union ← Build.union
      let f ← part
      Build.connect last union
      Build.connect union f.entry
      Build.connect union leave
      upTo part leave f.leave n
termination_by structural n => n

/-- A fragment between `least` and `most` times. -/
def bounded (part : Build Fragment) (least most : Nat) : Build Fragment := do
  let start ← exactly part least
  let leave ← Build.empty
  upTo part leave start.leave (most - least)
  return ⟨start.entry, leave⟩

/-- A fragment that reads at least one byte, any number of times. -/
def loop (part : Build Fragment) : Build Fragment := do
  let union ← Build.union
  let f ← part
  Build.connect union f.entry
  Build.connect f.leave union
  return ⟨union, union⟩

/-- A fragment at least once. -/
def atLeastOnce (part : Build Fragment) : Build Fragment := do
  let f ← part
  let union ← Build.union
  Build.connect f.leave union
  Build.connect union f.entry
  return ⟨f.entry, union⟩

/-- A fragment any number of times. -/
def anyTimes (part : Build Fragment) : Build Fragment := do
  let f ← part
  let again ← Build.union
  Build.connect f.leave again
  Build.connect again f.entry
  let entry ← Build.union
  let leave ← Build.empty
  Build.connect entry f.entry
  Build.connect entry leave
  Build.connect again leave
  return ⟨entry, leave⟩

/-- A fragment at least `n` times, where `reads` says that it reads at least one byte. -/
def atLeast (part : Build Fragment) (reads : Bool) : Nat → Build Fragment
  | 0 => if reads then loop part else anyTimes part
  | 1 => atLeastOnce part
  | n + 1 => do
      let start ← exactly part n
      let f ← part
      let union ← Build.union
      Build.connect start.leave f.entry
      Build.connect f.leave union
      Build.connect union f.entry
      return ⟨start.entry, union⟩

/-- A fragment between `least` and `most` times, or without bound. -/
def repeated (part : Build Fragment) (reads : Bool) (least : Nat) : Option Nat → Build Fragment
  | none => atLeast part reads least
  | some most =>
      if least = 0 ∧ most = 1 then optional part
      else if least = most then exactly part least
      else bounded part least most

/-- A fragment between the marks of a group. -/
def grouped (part : Build Fragment) : Build Fragment := do
  let first ← Build.add (.group 0)
  let f ← part
  let last ← Build.add (.group 0)
  Build.connect first f.entry
  Build.connect f.leave last
  return ⟨first, last⟩

end Fragment

end Regex

end ValueSchema
