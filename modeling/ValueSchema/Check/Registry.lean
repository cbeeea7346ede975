import ValueSchema.Check.Basic

/-!
# Registries of checks

A `Checks` registry is the ordered list of the checks of one schema.  Adding a check
of a kind that is present replaces the first entry of that kind in its place, so
checks run in the order in which their kinds were first added.  Entries that should
stand beside others of their kind are appended.

`kinds_add` says which kinds a registry has after an addition, in which order.
-/

namespace ValueSchema

/-- A check with the message its issues carry, if it has one of its own. -/
structure CheckEntry where
  /-- The check. -/
  check : Check
  /-- Its own message. -/
  message : Option String := none

/-- The kind of an entry's check. -/
def CheckEntry.kind (e : CheckEntry) : CheckKind := e.check.kind

/-- The checks of a schema, in the order in which they run. -/
structure Checks where
  /-- The entries. -/
  entries : List CheckEntry := []

namespace Checks

/-- No checks. -/
def empty : Checks := {}

instance : Inhabited Checks := ⟨empty⟩

/-- The kinds of the entries. -/
def kinds (cs : Checks) : List CheckKind := cs.entries.map CheckEntry.kind

/-- Whether a kind is present. -/
def hasKind (cs : Checks) (k : CheckKind) : Bool := cs.entries.any (·.kind = k)

/-- The first entry of a kind. -/
def find? (cs : Checks) (k : CheckKind) : Option CheckEntry := cs.entries.find? (·.kind = k)

/-- Replaces the first entry of the same kind. -/
def replaceFirst (e : CheckEntry) : List CheckEntry → List CheckEntry
  | [] => []
  | d :: ds => if d.kind = e.kind then e :: ds else d :: replaceFirst e ds
termination_by structural ds => ds

/-- Adds an entry.  It replaces the first one of its kind, or goes to the end when
there is none or `beside` is set. -/
def add (cs : Checks) (e : CheckEntry) (beside : Bool) : Checks :=
  if !beside && cs.hasKind e.kind then ⟨replaceFirst e cs.entries⟩ else ⟨cs.entries ++ [e]⟩

/-- Removes all entries of a kind.  The answer is the first one removed. -/
def remove (cs : Checks) (k : CheckKind) : Option CheckEntry × Checks :=
  (cs.find? k, ⟨cs.entries.filter (·.kind ≠ k)⟩)

/-- Gives the last entry a message. -/
def setLastMessage (cs : Checks) (message : String) : Checks :=
  match cs.entries.getLast? with
  | some e => ⟨cs.entries.dropLast ++ [{ e with message := some message }]⟩
  | none => cs

/-- The number of entries. -/
def size (cs : Checks) : Nat := cs.entries.length

/-- Whether there are no entries. -/
def isEmpty (cs : Checks) : Bool := cs.entries.isEmpty

theorem map_kind_replaceFirst (e : CheckEntry) (es : List CheckEntry) :
    (replaceFirst e es).map CheckEntry.kind = es.map CheckEntry.kind := by
  induction es with
  | nil => rfl
  | cons d ds ih =>
      rw [replaceFirst]
      split
      · rename_i h
        rw [List.map_cons, List.map_cons, h]
      · rw [List.map_cons, List.map_cons, ih]

theorem kinds_add (cs : Checks) (e : CheckEntry) (beside : Bool) :
    (cs.add e beside).kinds
      = if !beside && cs.hasKind e.kind then cs.kinds else cs.kinds ++ [e.kind] := by
  unfold add
  split
  · exact map_kind_replaceFirst e cs.entries
  · exact List.map_append

end Checks

end ValueSchema
