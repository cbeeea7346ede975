import ValueSchema.Check.Registry
import ValueSchema.Issue.Basic
import ValueSchema.Schema.Effect

/-!
# Schemas

A `Schema` describes the values of an expected shape.  It is a node with an id, a
kind, checks and settings.  The kind says what the node is and holds the schemas
inside of it.  `Kind` is generic in these inner schemas, so that a function on schemas
can be computed from its results on them.

A *leaf* has no inner schemas.  A *lazy* node names a definition of an arena, which is
looked up when a value is parsed.

`Schema.fold` computes a function on schemas bottom up: it is given, for each node, the
node and its kind with every inner schema beside its result (`Schema.fold_eq`).
-/

namespace ValueSchema

/-- The name of a definition of an arena. -/
structure SchemaId where
  /-- The arena. -/
  arena : Nat
  /-- The place in the arena. -/
  index : Nat
deriving DecidableEq, Repr

/-- An id as messages show it. -/
def SchemaId.text (id : SchemaId) : String := "#" ++ toString id.index

/-- The kinds of nodes without inner schemas. -/
inductive Leaf where
  /-- Every value. -/
  | any
  /-- Every value, to be inspected later. -/
  | unknown
  /-- Only the missing value. -/
  | never
  | undefined
  | null
  | boolean
  | string
  | number
  | bigint
  | date
  | buffer
  /-- One value. -/
  | literal (v : Value)
  /-- One of the listed values. -/
  | enum (values : List Value)

/-- What an object does with keys that were not declared. -/
inductive UnknownKeys (α : Type) where
  /-- They are refused. -/
  | strict
  /-- They are dropped. -/
  | strip
  /-- They are kept as they are. -/
  | passthrough
  /-- Their values have to match a schema. -/
  | catchall (schema : α)

/-- The kinds of nodes, with inner schemas from `α`. -/
inductive Kind (α : Type) where
  /-- A node without inner schemas. -/
  | leaf (l : Leaf)
  /-- An array of equal elements. -/
  | array (element : α)
  /-- A set of equal members. -/
  | set (element : α)
  /-- An array with a schema for each place and perhaps one for all further places. -/
  | tuple (items : List α) (rest : Option α)
  /-- An object with declared keys. -/
  | object (shape : Entries α) (unknown : UnknownKeys α)
  /-- An object with equal keys and equal values. -/
  | record (key value : α)
  /-- The values of any member. -/
  | union (members : List α)
  /-- The values of all members. -/
  | intersection (members : List α)
  /-- Also the missing value. -/
  | optional (inner : α)
  /-- Also null. -/
  | nullable (inner : α)
  /-- A value in place of the missing one. -/
  | default (inner : α) (value : Value)
  /-- A name for the schema. -/
  | brand (inner : α) (name : String)
  /-- A function of the user's. -/
  | effects (inner : α) (effect : Effect)
  /-- The output of one schema as the input of another one. -/
  | pipeline (input output : α)
  /-- A definition of an arena. -/
  | lazy (id : SchemaId)

/-- What a node is told besides its checks. -/
structure Settings where
  /-- Whether the node stops at its first issue. -/
  abortEarly : Option Bool := none
  /-- Whether other forms of input are converted. -/
  coerces : Bool := false
  /-- Whether the output is converted to another form. -/
  casts : Bool := false
  /-- Whether an enclosing tuple leaves the node out. -/
  discarded : Bool := false
  /-- The message for a value of the wrong type. -/
  typeMessage : Option String := none
  /-- The message for a missing value. -/
  requiredMessage : Option String := none

/-- A description of values. -/
structure Schema where
  /-- The id of the node. -/
  id : Nat
  /-- What the node is. -/
  kind : Kind Schema
  /-- Its checks. -/
  checks : Checks
  /-- Its settings. -/
  settings : Settings

/-! ## Names -/

/-- The name of a leaf. -/
def Leaf.name : Leaf → String
  | .any => "any"
  | .unknown => "unknown"
  | .never => "never"
  | .undefined => "undefined"
  | .null => "null"
  | .boolean => "boolean"
  | .string => "string"
  | .number => "number"
  | .bigint => "bigint"
  | .date => "date"
  | .buffer => "buffer"
  | .literal _ => "literal"
  | .enum _ => "enum"

namespace Kind

variable {α β : Type}

/-- The name of a kind. -/
def name : Kind α → String
  | .leaf l => l.name
  | .array _ => "array"
  | .set _ => "set"
  | .tuple .. => "tuple"
  | .object .. => "object"
  | .record .. => "record"
  | .union _ => "union"
  | .intersection _ => "intersection"
  | .optional _ => "optional"
  | .nullable _ => "nullable"
  | .default .. => "default"
  | .brand .. => "brand"
  | .effects .. => "effects"
  | .pipeline .. => "pipeline"
  | .lazy _ => "lazy"

/-! ## Checks and conversions of a kind -/

/-- The checks that a kind supports. -/
def supports : Kind α → CheckKind → Bool
  | .leaf .string, k =>
      k ∈ [.min, .max, .length, .pattern, .startsWith, .endsWith, .includes, .email, .url,
        .uuid, .custom]
  | .leaf .number, k =>
      k ∈ [.min, .max, .range, .integer, .precision, .multiple, .finite, .safe, .custom]
  | .leaf .bigint, k => k ∈ [.min, .max, .range, .multiple, .custom]
  | .leaf .date, k => k ∈ [.min, .max, .range, .custom]
  | .leaf .buffer, k => k ∈ [.min, .max, .length, .custom]
  | .leaf .never, _ => false
  | .leaf .undefined, _ => false
  | .leaf _, k => k = .custom
  | .array _, k => k ∈ [.min, .max, .length, .unique, .sorted, .compact, .custom]
  | .set _, k => k ∈ [.min, .max, .size, .custom]
  | .tuple .., k => k = .custom
  | .object .., k => k = .custom
  | .record .., k => k ∈ [.min, .max, .custom]
  | _, _ => false

/-- Whether a kind converts other forms of input. -/
def supportsCoercion : Kind α → Bool
  | .leaf .string => true
  | .leaf .number => true
  | .leaf .bigint => true
  | .leaf .boolean => true
  | .leaf .date => true
  | .leaf .buffer => true
  | .array _ => true
  | .set _ => true
  | .tuple .. => true
  | _ => false

/-- Whether a kind has another form of output. -/
def supportsCast : Kind α → Bool
  | .leaf .bigint => true
  | .leaf .date => true
  | .array _ => true
  | .set _ => true
  | _ => false

/-- The subject under whose code failed checks of a kind are reported. -/
def subject? : Kind α → Option Subject
  | .leaf .string => some .string
  | .leaf .number => some .number
  | .leaf .bigint => some .bigint
  | .leaf .date => some .date
  | .leaf .buffer => some .buffer
  | .array _ => some .array
  | .set _ => some .set
  | .tuple .. => some .tuple
  | .record .. => some .record
  | _ => none

/-- The cause of an issue for a failed check.  Kinds without a subject report it as a
custom issue. -/
def checkCause {ι : Type} (k : Kind α) (f : CheckFailure) : Cause ι :=
  match k.subject? with
  | some subject => .failedCheck subject f
  | none => .custom (some f.toValue)

/-! ## Inner schemas -/

/-- The kind with every inner schema mapped. -/
def map (f : α → β) : Kind α → Kind β
  | .leaf l => .leaf l
  | .array e => .array (f e)
  | .set e => .set (f e)
  | .tuple items rest => .tuple (items.map f) (rest.map f)
  | .object shape unknown =>
      .object (shape.map f) (match unknown with
        | .strict => .strict
        | .strip => .strip
        | .passthrough => .passthrough
        | .catchall s => .catchall (f s))
  | .record k v => .record (f k) (f v)
  | .union members => .union (members.map f)
  | .intersection members => .intersection (members.map f)
  | .optional s => .optional (f s)
  | .nullable s => .nullable (f s)
  | .default s v => .default (f s) v
  | .brand s n => .brand (f s) n
  | .effects s e => .effects (f s) e
  | .pipeline i o => .pipeline (f i) (f o)
  | .lazy id => .lazy id

/-- The inner schemas, in order. -/
def children : Kind α → List α
  | .leaf _ => []
  | .array e => [e]
  | .set e => [e]
  | .tuple items rest => items ++ rest.toList
  | .object shape unknown =>
      shape.values ++ (match unknown with
        | .catchall s => [s]
        | _ => [])
  | .record k v => [k, v]
  | .union members => members
  | .intersection members => members
  | .optional s => [s]
  | .nullable s => [s]
  | .default s _ => [s]
  | .brand s _ => [s]
  | .effects s _ => [s]
  | .pipeline i o => [i, o]
  | .lazy _ => []

end Kind

/-! ## Recursion over schemas -/

namespace Schema

variable {β : Type}

mutual

/-- The result of a schema, computed from the results of its inner schemas. -/
def fold (step : Schema → Kind (Schema × β) → β) : Schema → β
  | ⟨id, kind, checks, settings⟩ => step ⟨id, kind, checks, settings⟩ (foldKind step kind)

/-- A kind with every inner schema beside its result. -/
def foldKind (step : Schema → Kind (Schema × β) → β) : Kind Schema → Kind (Schema × β)
  | .leaf l => .leaf l
  | .array e => .array (e, fold step e)
  | .set e => .set (e, fold step e)
  | .tuple items rest =>
      .tuple (foldList step items) (match rest with
        | none => none
        | some s => some (s, fold step s))
  | .object ⟨fields⟩ unknown =>
      .object ⟨foldFields step fields⟩ (match unknown with
        | .strict => .strict
        | .strip => .strip
        | .passthrough => .passthrough
        | .catchall s => .catchall (s, fold step s))
  | .record k v => .record (k, fold step k) (v, fold step v)
  | .union members => .union (foldList step members)
  | .intersection members => .intersection (foldList step members)
  | .optional s => .optional (s, fold step s)
  | .nullable s => .nullable (s, fold step s)
  | .default s v => .default (s, fold step s) v
  | .brand s n => .brand (s, fold step s) n
  | .effects s e => .effects (s, fold step s) e
  | .pipeline i o => .pipeline (i, fold step i) (o, fold step o)
  | .lazy id => .lazy id

/-- Schemas beside their results. -/
def foldList (step : Schema → Kind (Schema × β) → β) : List Schema → List (Schema × β)
  | [] => []
  | s :: ss => (s, fold step s) :: foldList step ss

/-- Schemas under keys beside their results. -/
def foldFields (step : Schema → Kind (Schema × β) → β) :
    List (String × Schema) → List (String × (Schema × β))
  | [] => []
  | (k, s) :: fields => (k, (s, fold step s)) :: foldFields step fields

end

private theorem foldList_eq_map (step : Schema → Kind (Schema × β) → β) (ss : List Schema) :
    foldList step ss = ss.map fun s => (s, fold step s) := by
  induction ss with
  | nil => rfl
  | cons s ss ih => rw [foldList, ih, List.map_cons]

private theorem foldFields_eq_map (step : Schema → Kind (Schema × β) → β)
    (fields : List (String × Schema)) :
    foldFields step fields = fields.map fun e => (e.1, (e.2, fold step e.2)) := by
  induction fields with
  | nil => rfl
  | cons e fields ih => rw [foldFields, ih, List.map_cons]

theorem foldKind_eq_map (step : Schema → Kind (Schema × β) → β) (k : Kind Schema) :
    foldKind step k = k.map fun s => (s, fold step s) := by
  cases k with
  | tuple items rest => cases rest <;> simp [foldKind, Kind.map, foldList_eq_map]
  | object shape unknown =>
      cases shape
      cases unknown <;> simp [foldKind, Kind.map, Entries.map, foldFields_eq_map]
  | union members => rw [foldKind, foldList_eq_map, Kind.map]
  | intersection members => rw [foldKind, foldList_eq_map, Kind.map]
  | _ => rfl

/-- A fold is its step at the node, with the results of the inner schemas. -/
theorem fold_eq (step : Schema → Kind (Schema × β) → β) (s : Schema) :
    fold step s = step s (s.kind.map fun t => (t, fold step t)) := by
  cases s
  rw [fold, foldKind_eq_map]

/-! ## Induction over schemas -/

section Induction

variable {P : Schema → Prop}

mutual

/-- What holds of a schema whenever it holds of its inner schemas holds of all. -/
theorem induction (h : ∀ s, (∀ t ∈ s.kind.children, P t) → P s) : ∀ s, P s
  | ⟨id, kind, checks, settings⟩ => h ⟨id, kind, checks, settings⟩ (inductionKind h kind)

private theorem inductionKind (h : ∀ s, (∀ t ∈ s.kind.children, P t) → P s) :
    ∀ k : Kind Schema, ∀ t ∈ k.children, P t
  | .leaf _, _, ht => absurd ht List.not_mem_nil
  | .array e, _, ht => List.mem_singleton.mp ht ▸ induction h e
  | .set e, _, ht => List.mem_singleton.mp ht ▸ induction h e
  | .tuple items none, t, ht =>
      inductionList h items t (by simpa [Kind.children] using ht)
  | .tuple items (some s), t, ht =>
      (List.mem_append.mp ht).elim (inductionList h items t)
        fun hs => List.mem_singleton.mp hs ▸ induction h s
  | .object ⟨fields⟩ .strict, t, ht =>
      inductionFields h fields t (by simpa [Kind.children, Entries.values] using ht)
  | .object ⟨fields⟩ .strip, t, ht =>
      inductionFields h fields t (by simpa [Kind.children, Entries.values] using ht)
  | .object ⟨fields⟩ .passthrough, t, ht =>
      inductionFields h fields t (by simpa [Kind.children, Entries.values] using ht)
  | .object ⟨fields⟩ (.catchall s), t, ht =>
      (List.mem_append.mp ht).elim (inductionFields h fields t)
        fun hs => List.mem_singleton.mp hs ▸ induction h s
  | .record k v, _, ht =>
      (List.mem_cons.mp ht).elim (· ▸ induction h k)
        fun hv => List.mem_singleton.mp hv ▸ induction h v
  | .union members, t, ht => inductionList h members t ht
  | .intersection members, t, ht => inductionList h members t ht
  | .optional s, _, ht => List.mem_singleton.mp ht ▸ induction h s
  | .nullable s, _, ht => List.mem_singleton.mp ht ▸ induction h s
  | .default s _, _, ht => List.mem_singleton.mp ht ▸ induction h s
  | .brand s _, _, ht => List.mem_singleton.mp ht ▸ induction h s
  | .effects s _, _, ht => List.mem_singleton.mp ht ▸ induction h s
  | .pipeline i o, _, ht =>
      (List.mem_cons.mp ht).elim (· ▸ induction h i)
        fun ho => List.mem_singleton.mp ho ▸ induction h o
  | .lazy _, _, ht => absurd ht List.not_mem_nil

private theorem inductionList (h : ∀ s, (∀ t ∈ s.kind.children, P t) → P s) :
    ∀ ss : List Schema, ∀ t ∈ ss, P t
  | [], _, ht => absurd ht List.not_mem_nil
  | s :: ss, t, ht => (List.mem_cons.mp ht).elim (· ▸ induction h s) (inductionList h ss t)

private theorem inductionFields (h : ∀ s, (∀ t ∈ s.kind.children, P t) → P s) :
    ∀ fields : List (String × Schema), ∀ t ∈ fields.map Prod.snd, P t
  | [], _, ht => absurd ht List.not_mem_nil
  | (_, s) :: fields, t, ht =>
      (List.mem_cons.mp ht).elim (· ▸ induction h s) (inductionFields h fields t)

end

end Induction

/-- The definitions that lazy nodes of the schema name, without looking into them. -/
def lazyIds : Schema → List SchemaId :=
  fold fun _ kind =>
    match kind with
    | .lazy id => [id]
    | k => k.children.flatMap Prod.snd

end Schema

end ValueSchema
