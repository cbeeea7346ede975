import ValueSchema.Regex.Automaton

/-!
# Fragments for lists of words

`Fragment.words` is the fragment that reads one of several words, which are given as
their bytes.  Words with a common start share the states of it.

The words that lead to a state come in an order of preference.  Where a word ends, those
before it and those after it are read by different states, so that the order is kept.
-/

namespace ValueSchema

namespace Regex

namespace Fragment

/-- The bytes that words of a list start with, in ascending order. -/
def firstBytes (words : List (List UInt8)) : List UInt8 :=
  (words.filterMap List.head?).eraseDups.mergeSort (· ≤ ·)

/-- The rests of the words of a list that start with a byte. -/
def restsAfter (b : UInt8) (words : List (List UInt8)) : List (List UInt8) :=
  words.filterMap fun
    | [] => none
    | c :: cs => if c = b then some cs else none

/-- The words between the empty ones of a list.  Empty words in front count once. -/
def splitAtEnds (words : List (List UInt8)) : List (List (List UInt8)) :=
  match words with
  | [] :: rest => ([] :: rest.dropWhile (·.isEmpty)).splitOnP (·.isEmpty)
  | words => words.splitOnP (·.isEmpty)

/-- A state that reads one of some steps, unless there is none. -/
def stepState : List Transition → Build (List Nat)
  | [] => return []
  | [t] => return [← Build.add (.byte t)]
  | ts => return [← Build.add (.choice ts)]

/-- The state that reads words of at most `length` bytes and goes on to the state
`leave`. -/
def wordState (leave : Nat) : Nat → List (List UInt8) → Build Nat
  | 0, _ => return leave
  | length + 1, words =>
      if words.all (·.isEmpty) then return leave
      else do
        let parts ← (splitAtEnds words).mapM fun part => do
          let steps ← (firstBytes part).mapM fun b => do
            let next ← wordState leave length (restsAfter b part)
            return Transition.mk ⟨b, b⟩ next
          stepState steps
        Build.add (.union (parts.intersperse [leave]).flatten)
termination_by structural length => length

/-- A fragment that reads one of some words. -/
def words (ws : List (List UInt8)) : Build Fragment := do
  let leave ← Build.empty
  let length := (ws.map List.length).foldl max 0
  return ⟨← wordState leave (length + 1) ws, leave⟩

end Fragment

end Regex

end ValueSchema
