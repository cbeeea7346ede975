import ValueSchema.Regex.Compile

/-!
# Searching a text

`Automaton.isMatch` runs an automaton over the bytes of a text.  It keeps the set of the
states that the automaton may be in, each of them once, so that the time is bounded by
the product of the lengths of text and automaton.

Between the bytes of one character no anchor holds and no match ends.
-/

namespace ValueSchema

namespace Regex

/-- The states that an automaton may be in. -/
structure Frontier where
  /-- The number of the last round in which each state was reached. -/
  marks : Array Nat
  /-- The number of the current round. -/
  round : Nat := 0
  /-- The states that read a byte. -/
  active : List Nat := []
  /-- Whether the text matches. -/
  accepted : Bool := false

namespace Automaton

/-- The states to which a state goes on without reading. -/
def silent (holds : Anchor → Bool) : State → List Nat
  | .empty n => [n]
  | .byte _ => []
  | .choice _ => []
  | .anchor a n => if holds a then [n] else []
  | .union ns => ns
  | .group n => [n]
  | .accept => []

/-- Whether a state reads a byte. -/
def reads : State → Bool
  | .byte _ => true
  | .choice _ => true
  | _ => false

/-- The number of all ways to go on without reading. -/
def silentCount (a : Automaton) : Nat :=
  a.states.foldl (fun n s => n + (silent (fun _ => true) s).length) 0

/-- The frontier with all states that are reached from those of a list without reading.
A state is left at most once, so `fuel` suffices if it is the number of all ways to go on
and the length of the list. -/
def close (a : Automaton) (holds : Anchor → Bool) : Nat → List Nat → Frontier → Frontier
  | _, [], f => f
  | 0, _ :: _, f => f
  | fuel + 1, n :: ns, f =>
      match a.states[n]? with
      | none => close a holds fuel ns f
      | some s =>
          if f.marks[n]? = some f.round then close a holds fuel ns f
          else
            close a holds fuel (silent holds s ++ ns)
              { f with
                marks := f.marks.setIfInBounds n f.round
                active := if reads s then n :: f.active else f.active
                accepted := f.accepted || s == .accept }
termination_by structural fuel => fuel

/-- The frontier of the states that are reached from those of a list. -/
def arrive (a : Automaton) (edges : Nat) (holds : Anchor → Bool) (ns : List Nat) (f : Frontier) :
    Frontier :=
  a.close holds (edges + ns.length) ns { marks := f.marks, round := f.round + 1 }

/-- The state after a byte. -/
def next? (b : UInt8) : State → Option Nat
  | .byte t => if t.range.contains b then some t.next else none
  | .choice ts => (ts.find? (·.range.contains b)).map (·.next)
  | _ => none

/-- The states after a byte. -/
def step (a : Automaton) (b : UInt8) (active : List Nat) : List Nat :=
  active.filterMap fun n => a.states[n]?.bind (next? b)

/-- The frontier after the bytes of a character, where `holds` is for the position
behind. -/
def readChar (a : Automaton) (edges : Nat) (holds : Anchor → Bool) (f : Frontier) :
    List UInt8 → Frontier
  | [] => f
  | [b] => a.arrive edges holds (a.step b f.active) f
  | b :: bs => a.readChar edges holds (a.arrive edges (fun _ => false) (a.step b f.active) f) bs
termination_by structural bs => bs

/-- Whether a match is found from a position on, which follows no character where the
frontier allows a match. -/
def search (a : Automaton) (edges : Nat) (f : Frontier) : List Char → Bool
  | [] => f.accepted
  | c :: cs =>
      f.accepted ||
        a.search edges
          (a.readChar edges (Anchor.holds (some c) cs.head?) f (String.utf8EncodeChar c)) cs
termination_by structural cs => cs

/-- Whether some part of a text matches. -/
def isMatch (a : Automaton) (text : String) : Bool :=
  let cs := text.toList
  let edges := a.silentCount
  let start : Frontier := { marks := Array.replicate a.states.size 0 }
  a.search edges (a.arrive edges (Anchor.holds none cs.head?) [a.start] start) cs

end Automaton

/-- Whether an expression has an automaton and matches some part of a text. -/
def isMatch (r : Regex) (text : String) : Bool := r.automaton?.any (·.isMatch text)

example : isMatch (.repeated 1 none true (.chars .asciiDigit)) "ab7" = true := by decide +kernel
example : isMatch (.sequence [.anchor .textStart, .chars .asciiDigit]) "ab7" = false := by
  decide +kernel
example : isMatch (.sequence [.literal ['a'], .anchor .textEnd]) "a\n" = false := by
  decide +kernel
example : isMatch (.literal ['é']) "cafés" = true := by decide +kernel

end Regex

end ValueSchema
