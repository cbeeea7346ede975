import ValueSchema.Regex.Automaton
import ValueSchema.Regex.Memo

/-!
# Fragments for sets

`Fragment.chars` is the fragment that reads one character of a set.  A set of ASCII
characters is one state.  The bytes of other sets form a tree, and parts of the tree that
are equal share their states.

Read forward, the tree branches at the first bytes, and `shareForward` builds it from the
leaves up.  Read backward, the states of the first bytes come last, and `shareBackward`
shares those of sequences that start with the same intervals.
-/

namespace ValueSchema

namespace Regex

/-- A step of building that remembers states. -/
abbrev Shared := StateT Memo Build

/-- The state remembered by a key, or else a new one, which is remembered. -/
def Shared.reuse (key : List Nat) (fresh : Build Nat) : Shared Nat := do
  match (← get).find? key with
  | some n => return n
  | none => do
      let n ← fresh
      modify fun m => m.insert key n
      return n

/-- The part of a key that a step contributes. -/
def Transition.key (t : Transition) : List Nat := [t.range.low.toNat, t.range.high.toNat, t.next]

namespace Fragment

/-! ## Forward -/

/-- The sequences of a list by their first interval, where neighbours with the same one
go together. -/
def byFirst (seqs : List (List ByteRange)) : List (List (List ByteRange)) :=
  seqs.splitBy fun s t => s.head? == t.head?

/-- The state that reads sequences of at most `length` intervals and goes on to the state
`leave`. -/
def shareForward (leave : Nat) : Nat → List (List ByteRange) → Shared Nat
  | 0, _ => return leave
  | length + 1, seqs =>
      if seqs.all (·.isEmpty) then return leave
      else do
        let steps ← (byFirst seqs).mapM fun group => do
          let next ← shareForward leave length (group.map (·.drop 1))
          return (group.head?.bind List.head?).map fun r => Transition.mk r next
        let steps := steps.filterMap id
        Shared.reuse (steps.flatMap Transition.key) (Build.add (.choice steps))
termination_by structural length => length

/-- A fragment that reads one of some sequences. -/
def forward (seqs : List (List ByteRange)) : Build Fragment := do
  let leave ← Build.empty
  let (entry, _) ← (shareForward leave 4 seqs).run ⟨10000, {}⟩
  return ⟨entry, leave⟩

/-! ## Backward -/

/-- The state that reads the intervals of a sequence from the last one to the first and
goes on to the state `leave`. -/
def shareBackward (leave : Nat) : List ByteRange → Shared Nat
  | [] => return leave
  | r :: rs => do
      let n ← Shared.reuse [leave, r.low.toNat, r.high.toNat] do
        let n ← Build.add (.byte ⟨r, 0⟩)
        Build.connect n leave
        return n
      shareBackward n rs
termination_by structural rs => rs

/-- A fragment that reads one of some sequences from its end. -/
def backward (seqs : List (List ByteRange)) : Build Fragment := do
  let union ← Build.union
  let leave ← Build.empty
  let each : Shared Unit := seqs.forM fun s => do Build.connect union (← shareBackward leave s)
  let _ ← each.run ⟨1000, {}⟩
  return ⟨union, leave⟩

/-! ## Sets -/

/-- A fragment that reads one character of a set, and whether from its end. -/
def chars (back : Bool) (s : CodeSet) : Build Fragment :=
  let seqs := s.byteSequences
  if s.isAscii then bytes seqs.flatten else if back then backward seqs else forward seqs

end Fragment

end Regex

end ValueSchema
