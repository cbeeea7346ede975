import ValueSchema.Call.Outcome
import ValueSchema.Value.Digest
import ValueSchema.Value.Equality

/-!
# Caches

A `Cache` remembers validations by the id of the schema and a digest of the input.  An
entry also holds its input, and it answers only for inputs equal to that one, so two
inputs with one digest never get each other's answer.  A later entry with the same id
and digest replaces the earlier one.
-/

namespace ValueSchema

/-- A remembered validation. -/
structure CacheEntry where
  /-- The id of the schema. -/
  schema : Nat
  /-- The digest of the input. -/
  digest : UInt64
  /-- The input. -/
  input : Value
  /-- What was said about it. -/
  validation : Validation

/-- Whether an entry has an id and a digest. -/
def CacheEntry.isFor (e : CacheEntry) (schema : Nat) (digest : UInt64) : Bool :=
  e.schema == schema && e.digest == digest

/-- Remembered validations, at most one for an id and a digest. -/
structure Cache where
  /-- How inputs are digested. -/
  digest : Value → UInt64 := Value.digest mixingHash
  /-- The entries. -/
  entries : List CacheEntry := []

namespace Cache

instance : Inhabited Cache := ⟨{}⟩

/-- The validation that is remembered for a schema and an input. -/
def find? (c : Cache) (schema : Nat) (input : Value) : Option Validation :=
  match c.entries.find? (·.isFor schema (c.digest input)) with
  | some e => if e.input == input then some e.validation else none
  | none => none

/-- Remembers a validation in the place of one with the same id and digest. -/
def insert (c : Cache) (schema : Nat) (input : Value) (validation : Validation) : Cache :=
  let digest := c.digest input
  { c with
    entries := ⟨schema, digest, input, validation⟩
      :: c.entries.filter fun e => !e.isFor schema digest }

/-- Forgets everything. -/
def clear (c : Cache) : Cache := { c with entries := [] }

/-- The number of entries. -/
def size (c : Cache) : Nat := c.entries.length

end Cache

end ValueSchema
