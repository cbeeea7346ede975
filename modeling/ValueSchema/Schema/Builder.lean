import ValueSchema.Arena.Basic

/-!
# Building schemas

Schemas are never changed.  A builder takes a schema and gives another one, and every
node that differs from all earlier ones has an id of its own.  `Build` hands out the
ids.

An `Edit` is one call of a builder, as data, and `Schema.apply` carries it out.  An
edit that the kind of the node does not support gives back the very node, with its id.
Edits that wrap the node make a new node around it, and all others make a copy with a
new id and one thing changed.
-/

namespace ValueSchema

/-- A computation that may take new ids.  The state is the next one. -/
abbrev Build := StateM Nat

/-- A call of a builder. -/
inductive Edit where
  /-- Also accept the missing value. -/
  | optional
  /-- Also accept null. -/
  | nullable
  /-- Also accept the missing value and null. -/
  | nullish
  /-- Put a value in the place of the missing one. -/
  | default (value : Value)
  /-- Give the schema a name. -/
  | brand (name : String)
  /-- Feed the output into another schema. -/
  | pipe (output : Schema)
  /-- Also accept what another schema accepts. -/
  | or (other : Schema)
  /-- Accept only what another schema accepts as well. -/
  | and (other : Schema)
  /-- Convert other forms of input. -/
  | coerce
  /-- Convert the output to the kind's other form. -/
  | cast
  /-- Set whether the node stops at its first issue. -/
  | abortEarly (b : Bool)
  /-- Leave the node out of an enclosing tuple. -/
  | discard
  /-- Set the message of the last check, or for a wrong type when there is none. -/
  | error (message : String)
  /-- Set the message for a missing value. -/
  | requiredError (message : String)
  /-- Add a check. -/
  | addCheck (c : Check)
  /-- Remove the checks of a kind. -/
  | withoutCheck (k : CheckKind)
  /-- Set the schema for further places of a tuple. -/
  | rest (schema : Schema)
  /-- Declare a key. -/
  | field (name : String) (schema : Schema)
  /-- Declare a key that may be missing. -/
  | optionalField (name : String) (schema : Schema)
  /-- Declare a key with a value to take when it is missing. -/
  | defaultField (name : String) (schema : Schema) (value : Value)
  /-- Set what happens with keys that were not declared. -/
  | unknownKeys (policy : UnknownKeys Schema)
  /-- Declare the keys of another object. -/
  | extend (other : Schema)
  /-- Declare the keys of another object and take over its policy for other keys. -/
  | merge (other : Schema)
  /-- Keep only the named keys. -/
  | pick (names : List String)
  /-- Remove the named keys. -/
  | omit (names : List String)
  /-- Let every key be missing. -/
  | partialFields
  /-- Attach a function of the user's. -/
  | effect (e : Effect)

namespace Edit

/-! ## Common checks -/

/-- An inclusive lower bound. -/
def min (bound : Value) : Edit := .addCheck (.min bound true)

/-- An inclusive upper bound. -/
def max (bound : Value) : Edit := .addCheck (.max bound true)

/-- An exclusive lower bound. -/
def gt (bound : Value) : Edit := .addCheck (.min bound false)

/-- An exclusive upper bound. -/
def lt (bound : Value) : Edit := .addCheck (.max bound false)

/-- Above zero. -/
def positive : Edit := gt (.ofNat 0)

/-- Below zero. -/
def negative : Edit := lt (.ofNat 0)

/-- Zero or above. -/
def nonnegative : Edit := min (.ofNat 0)

/-- Zero or below. -/
def nonpositive : Edit := max (.ofNat 0)

/-- At least one element, character or byte. -/
def nonEmpty : Edit := min (.ofNat 1)

/-- Refuse equal items. -/
def unique : Edit := .addCheck (.unique none false)

/-- Drop the items that equal an earlier one. -/
def distinct : Edit := .addCheck (.unique none true)

/-- Drop the items that `same` identifies with an earlier one. -/
def distinctBy (same : Value → Value → Bool) : Edit := .addCheck (.unique (some same) true)

/-- Refuse items that are not in ascending order. -/
def sorted : Edit := .addCheck (.sorted none false)

/-- Refuse items that are not in ascending order by `order`. -/
def sortedBy (order : Value → Value → Ordering) : Edit := .addCheck (.sorted (some order) false)

/-- Put the items in ascending order. -/
def sort : Edit := .addCheck (.sorted none true)

/-- Put the items in ascending order by `order`. -/
def sortBy (order : Value → Value → Ordering) : Edit := .addCheck (.sorted (some order) true)

/-- A transform that does not fail. -/
def transform (map : Value → Value) : Edit := .effect (.transform .immediate fun v => .ok (map v))

end Edit

namespace Schema

/-- A new node of a kind. -/
def make (kind : Kind Schema) : Build Schema := do
  let id ← getModify (· + 1)
  return ⟨id, kind, .empty, {}⟩

/-- A new leaf. -/
def leaf (l : Leaf) : Build Schema := make (.leaf l)

/-- A copy of a node with a new id, changed by `patch`. -/
def derive (s : Schema) (patch : Schema → Schema) : Build Schema := do
  let id ← getModify (· + 1)
  return { patch s with id := id }

/-- A copy with the settings changed. -/
def deriveSettings (s : Schema) (patch : Settings → Settings) : Build Schema :=
  s.derive fun s => { s with settings := patch s.settings }

/-- A copy with the shape and the policy of an object changed.  Other nodes stay. -/
def deriveObject (s : Schema)
    (patch : Entries Schema → UnknownKeys Schema → Entries Schema × UnknownKeys Schema) :
    Build Schema :=
  match s.kind with
  | .object shape unknown =>
      let (shape', unknown') := patch shape unknown
      s.derive fun s => { s with kind := .object shape' unknown' }
  | _ => return s

/-- A copy with one more check, if the kind supports it.  Named checks stand beside each
other, and of every other kind the new check replaces the old one. -/
def addCheck (s : Schema) (c : Check) : Build Schema :=
  if s.kind.supports c.kind then
    s.derive fun s => { s with checks := s.checks.add { check := c } (c.kind = .custom) }
  else return s

/-- A copy that declares a key. -/
def addField (s : Schema) (name : String) (schema : Schema) : Build Schema :=
  s.deriveObject fun shape unknown => (shape.insert name schema, unknown)

/-- A new object with the given keys, which refuses all others. -/
def object (fields : List (String × Schema)) : Build Schema := do
  fields.foldlM (fun s e => s.addField e.1 e.2) (← make (.object .empty .strict))

/-- The schema itself if a missing value passes it, and otherwise an optional node around
it. -/
def orOptional (s : Schema) : Build Schema :=
  if s.acceptsUndefined then return s else make (.optional s)

/-- A copy with a message set: that of the last check, or else that for a wrong type. -/
def setError (s : Schema) (message : String) : Build Schema :=
  if s.checks.isEmpty then s.deriveSettings ({ · with typeMessage := some message })
  else s.derive fun s => { s with checks := s.checks.setLastMessage message }

/-- The schema after a call of a builder. -/
def apply (s : Schema) : Edit → Build Schema
  | .optional => make (.optional s)
  | .nullable => make (.nullable s)
  | .nullish => do make (.optional (← make (.nullable s)))
  | .default value => make (.default s value)
  | .brand name => make (.brand s name)
  | .pipe output => make (.pipeline s output)
  | .or other =>
      match s.kind with
      | .union members =>
          make (.union (if s.checks.isEmpty then members ++ [other] else [s, other]))
      | _ => make (.union [s, other])
  | .and other => make (.intersection [s, other])
  | .coerce =>
      if s.kind.supportsCoercion then s.deriveSettings ({ · with coerces := true }) else return s
  | .cast => if s.kind.supportsCast then s.deriveSettings ({ · with casts := true }) else return s
  | .abortEarly b => s.deriveSettings ({ · with abortEarly := some b })
  | .discard => s.deriveSettings ({ · with discarded := true })
  | .error message => s.setError message
  | .requiredError message => s.deriveSettings ({ · with requiredMessage := some message })
  | .addCheck c => s.addCheck c
  | .withoutCheck k =>
      if s.checks.hasKind k then s.derive fun s => { s with checks := (s.checks.remove k).2 }
      else return s
  | .rest schema =>
      match s.kind with
      | .tuple items _ => s.derive fun s => { s with kind := .tuple items (some schema) }
      | _ => return s
  | .field name schema => s.addField name schema
  | .optionalField name schema => do s.addField name (← make (.optional schema))
  | .defaultField name schema value => do s.addField name (← make (.default schema value))
  | .unknownKeys policy => s.deriveObject fun shape _ => (shape, policy)
  | .extend other =>
      match other.kind with
      | .object extra _ => s.deriveObject fun shape unknown => (shape.insertAll extra.toList, unknown)
      | _ => return s
  | .merge other =>
      match other.kind with
      | .object extra policy => s.deriveObject fun shape _ => (shape.insertAll extra.toList, policy)
      | _ => return s
  | .pick names => s.deriveObject fun shape unknown => (shape.filter fun k _ => k ∈ names, unknown)
  | .omit names => s.deriveObject fun shape unknown => (shape.filter fun k _ => k ∉ names, unknown)
  | .partialFields =>
      match s.kind with
      | .object shape unknown => do
          let fields ← shape.toList.mapM fun e => return (e.1, ← e.2.orOptional)
          s.derive fun s => { s with kind := .object ⟨fields⟩ unknown }
      | _ => return s
  | .effect e => make (.effects s e)

/-- The schema after several calls of builders, one after another. -/
def applyAll (s : Schema) : List Edit → Build Schema
  | [] => return s
  | e :: es => do (← s.apply e).applyAll es
termination_by structural es => es

end Schema

end ValueSchema
