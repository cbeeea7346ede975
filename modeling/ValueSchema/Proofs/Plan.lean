import ValueSchema.Proofs.Choice

/-!
# Plans of nodes

A `Visit` is a schema that is run on a value at a path.  The `Plan` of a visit says what
its node does, one level deep: which visits it starts, in which order, how it goes on
after them, and what it makes of their outputs.  It says so without reports, marks or
modes.  `Plan.outcome` is what a plan amounts to, given the outcomes of the visits it
starts, and it is the only place where the mode of a call matters.

The five kinds of containers share one form of plan.  `Schema.parts?` lists the parts
that a container descends into, `Schema.ownIssues` the issues it raises before, and
`Schema.assemble` puts an output together from those of the parts.
-/

namespace ValueSchema

/-! ## Visits and parts -/

/-- A schema that is run on a value at a path, while at most `hops` lazy nodes may still
be resolved one inside the other. -/
structure Visit where
  /-- The number of lazy nodes. -/
  hops : Nat
  /-- The schema. -/
  schema : Schema
  /-- The place of the value. -/
  path : Path
  /-- The value. -/
  value : Value

/-- What a visit amounts to in a call. -/
def Visit.outcome (call : Call) (t : Visit) : Outcome :=
  (show Runner from t.schema.runWithin call t.hops).outcome t.path t.value

/-- A part of a value with the schema it is parsed with. -/
structure Part where
  /-- The segment that leads to the part. -/
  segment : Segment
  /-- The schema. -/
  schema : Schema
  /-- The part. -/
  value : Value

/-- The visit of a part. -/
def Part.visit (hops : Nat) (here : Path) (p : Part) : Visit :=
  ⟨hops, p.schema, here.push p.segment, p.value⟩

/-! ## Plans -/

/-- What a node does with a value. -/
inductive Plan where
  /-- It answers at once. -/
  | done (o : Outcome)
  /-- It makes a visit and goes on with its output. -/
  | andThen (first : Visit) (next : Value → Plan)
  /-- It raises issues, visits parts and puts a validation together. -/
  | parts (own : List Issue) (stops : Bool) (parts : List Visit)
      (build : List Value → Validation)
  /-- It takes the output of the first member that succeeds. -/
  | union (members : List Visit) (refusal : List Issue → Issue)
  /-- It puts the outputs of all members together. -/
  | intersection (stops : Bool) (members : List Visit) (build : List Value → Validation)

namespace Plan

/-- A plan that leaves everything to one visit. -/
def pass (t : Visit) : Plan := .andThen t fun w => .done (.ok (.success w))

/-- The outcome of steps that all have to succeed. -/
def conclude (r : Except Misuse (List Issue × List Value)) (build : List Value → Validation) :
    Outcome :=
  r.map fun (is, ws) => .after is (build ws)

/-- What a plan amounts to, given the outcomes of the visits it starts. -/
def outcome (mode : Mode) (visit : Visit → Outcome) : Plan → Outcome
  | .done o => o
  | .andThen t next =>
      match visit t with
      | .ok (.success w) => (next w).outcome mode visit
      | o => o
  | .parts own stops ts build =>
      conclude (Outcome.gather stops (Outcome.raised own ++ ts.map visit)) build
  | .union ts refusal =>
      (Outcome.choose (ts.map visit)).map fun
        | .ok w => .success w
        | .error is => .failure ⟨refusal is, []⟩
  | .intersection stops ts build =>
      conclude (Outcome.gatherMembers mode stops (ts.map visit)) build

/-- The visits that a plan may start. -/
inductive Starts : Plan → Visit → Prop where
  | first {t : Visit} {next : Value → Plan} : Starts (.andThen t next) t
  | next {t u : Visit} {next : Value → Plan} {w : Value} :
      Starts (next w) u → Starts (.andThen t next) u
  | part {own : List Issue} {stops : Bool} {t : Visit} {ts : List Visit}
      {build : List Value → Validation} : t ∈ ts → Starts (.parts own stops ts build) t
  | member {t : Visit} {ts : List Visit} {refusal : List Issue → Issue} :
      t ∈ ts → Starts (.union ts refusal) t
  | joined {stops : Bool} {t : Visit} {ts : List Visit} {build : List Value → Validation} :
      t ∈ ts → Starts (.intersection stops ts build) t

end Plan

/-! ## Containers -/

/-- The items of a list, each with one schema. -/
def itemParts (element : Schema) (items : List Value) : List Part :=
  items.mapIdx fun i w => ⟨.index i, element, w⟩

/-- The items of a tuple: each with the schema of its place, from place `i` on, and
further ones with the schema for the rest. -/
def tupleParts (rest : Option Schema) (i : Nat) : List Schema → List Value → List Part
  | _, [] => []
  | s :: slots, v :: vs => ⟨.index i, s, v⟩ :: tupleParts rest (i + 1) slots vs
  | [], v :: vs =>
      match rest with
      | some s => ⟨.index i, s, v⟩ :: tupleParts rest (i + 1) [] vs
      | none => []
termination_by structural _ vs => vs

/-- The declared fields of an object in the order of the shape.  An absent key stands for
the missing value if its schema accepts that, and is left out otherwise. -/
def fieldParts (arena : Option Arena) (shape : Entries Schema) (input : Entries Value) :
    List Part :=
  shape.toList.filterMap fun (k, s) =>
    (Schema.fieldValue? arena input k s).map fun w => ⟨.field k, s, w⟩

/-- The entries of an object that are not declared, in the order of the input. -/
def undeclaredEntries (shape : Entries Schema) (input : Entries Value) : List (String × Value) :=
  input.toList.filter fun e => !shape.hasKey e.1

/-- The undeclared fields of an object that have a schema. -/
def catchallParts (shape : Entries Schema) (unknown : UnknownKeys Schema)
    (input : Entries Value) : List Part :=
  match unknown with
  | .catchall s => (undeclaredEntries shape input).map fun e => ⟨.field e.1, s, e.2⟩
  | _ => []

/-- The key and the value of each entry of a record. -/
def entryParts (key value : Schema) (input : Entries Value) : List Part :=
  input.toList.flatMap fun (k, w) => [⟨.field k, key, .string k⟩, ⟨.field k, value, w⟩]

/-- The declared keys that are absent although their schema does not accept that. -/
def absentKeys (arena : Option Arena) (shape : Entries Schema) (input : Entries Value) :
    List String :=
  (shape.toList.filter fun e => !input.hasKey e.1 && !e.2.acceptsUndefinedIn arena).map Prod.fst

/-- What an object may raise before it descends: keys that are absent, and keys that are
not declared. -/
def keyCauses (arena : Option Arena) (shape : Entries Schema) (unknown : UnknownKeys Schema)
    (input : Entries Value) : List (Cause Issue) :=
  let absent := absentKeys arena shape input
  let extra := (undeclaredEntries shape input).map Prod.fst
  (if absent.isEmpty then [] else [.missingKeys absent]) ++
  match unknown with
  | .strict => if extra.isEmpty then [] else [.unrecognizedKeys extra]
  | _ => []

/-- The outputs of fields under their keys, without missing values. -/
def keptEntries (parts : List Part) (outputs : List Value) : List (String × Value) :=
  (parts.zip outputs).filterMap fun (p, w) =>
    if w.isUndefined then none else some (p.segment.text, w)

/-! ## The schemas of parts -/

theorem mem_itemParts {e : Schema} {items : List Value} {t : Part} (h : t ∈ itemParts e items) :
    t.schema = e := by
  rw [itemParts, List.mapIdx_eq_zipIdx_map] at h
  obtain ⟨x, -, rfl⟩ := List.mem_map.mp h
  rfl

theorem mem_tupleParts {rest : Option Schema} {t : Part} :
    ∀ {i : Nat} {slots : List Schema} {values : List Value},
      t ∈ tupleParts rest i slots values → t.schema ∈ slots ++ rest.toList
  | _, [], [], h => nomatch h
  | _, _ :: _, [], h => nomatch h
  | _, s :: slots, v :: vs, h => by
      rw [tupleParts] at h
      cases List.mem_cons.mp h with
      | inl he => exact he ▸ List.mem_cons_self ..
      | inr hm => exact List.mem_cons_of_mem _ (mem_tupleParts hm)
  | _, [], v :: vs, h => by
      cases rest with
      | none => exact nomatch h
      | some s =>
          rw [tupleParts] at h
          cases List.mem_cons.mp h with
          | inl he => exact he ▸ List.mem_cons_self ..
          | inr hm => exact mem_tupleParts hm

theorem mem_fieldParts {arena : Option Arena} {shape : Entries Schema} {input : Entries Value}
    {t : Part} (h : t ∈ fieldParts arena shape input) : t.schema ∈ shape.values := by
  obtain ⟨⟨k, s⟩, he, ht⟩ := List.mem_filterMap.mp h
  obtain ⟨w, -, rfl⟩ := Option.map_eq_some_iff.mp ht
  exact List.mem_map.mpr ⟨(k, s), he, rfl⟩

theorem mem_catchallParts {shape : Entries Schema} {unknown : UnknownKeys Schema}
    {input : Entries Value} {t : Part} (h : t ∈ catchallParts shape unknown input) :
    unknown = .catchall t.schema := by
  cases unknown with
  | catchall s =>
      obtain ⟨e, -, rfl⟩ := List.mem_map.mp h
      rfl
  | _ => exact nomatch h

theorem mem_entryParts {key value : Schema} {input : Entries Value} {t : Part}
    (h : t ∈ entryParts key value input) : t.schema ∈ [key, value] := by
  obtain ⟨⟨k, w⟩, -, ht⟩ := List.mem_flatMap.mp h
  simp only [List.mem_cons, List.not_mem_nil, or_false] at ht
  rcases ht with rfl | rfl
  · exact List.mem_cons_self ..
  · exact List.mem_cons_of_mem _ (List.mem_cons_self ..)

namespace Schema

variable (node : Schema) (call : Call) (path : Path) (v : Value)

/-- Whether a node stops at its first issue. -/
def stops : Bool := call.abortsEarly node.settings.abortEarly

/-- The schemas of the places of a tuple. -/
def slots (items : List Schema) : List Schema := items.filter fun s => !s.settings.discarded

/-- The value that a container looks at: the input, converted if the node coerces. -/
def containerInput : Value :=
  match node.kind with
  | .array _ => node.settings.arrayInput v
  | .set _ => node.settings.setInput v
  | .tuple .. => node.settings.arrayInput v
  | _ => v

/-- The failed check of a tuple with the wrong number of items. -/
def wrongArity? : Option CheckFailure :=
  match node.kind, node.containerInput v with
  | .tuple items rest, .array values => arityFailure? (slots items).length values.length rest.isSome
  | _, _ => none

/-- The parts of a value that a container descends into, if it does. -/
def parts? (arena : Option Arena) : Option (List Part) :=
  match node.kind, node.containerInput v with
  | .array e, .array items => some (itemParts e items)
  | .set e, .set items => some (itemParts e items)
  | .tuple items rest, .array values =>
      if (node.wrongArity? v).isSome then none else some (tupleParts rest 0 (slots items) values)
  | .object shape unknown, .object input =>
      some (fieldParts arena shape input ++ catchallParts shape unknown input)
  | .record key value, .object input => some (entryParts key value input)
  | _, _ => none

/-- Why a container refuses a value without a descent, and its message for that. -/
def containerRefusal : Cause Issue × Option String :=
  match node.wrongArity? v with
  | some failure => (.failedCheck .tuple failure, node.settings.typeMessage)
  | none =>
      node.settings.typeRefusal (match node.kind with
        | .array _ => .array
        | .set _ => .set
        | .tuple .. => .array
        | _ => .object) (node.containerInput v)

/-- The issues that a container raises before it descends.  An early stop leaves the
first one. -/
def ownIssues : List Issue :=
  match node.kind, node.containerInput v with
  | .object shape unknown, .object input =>
      let issues := (keyCauses call.options.arena shape unknown input).map fun c =>
        call.issue c path none (.object input)
      if node.stops call then issues.take 1 else issues
  | .tuple .., _ => []
  | _, w => (node.checked call path CheckKind.isSize w).1

/-- The output of a container, put together from the outputs of its parts. -/
def assemble (parts : List Part) (outputs : List Value) : Value :=
  match node.kind, v with
  | .set _, _ => .set (Value.distinct outputs)
  | .object shape .passthrough, .object input =>
      let declared := Entries.ofList (keptEntries parts outputs)
      .object (declared.insertAll (undeclaredEntries shape input))
  | .object .., _ => .object (Entries.ofList (keptEntries parts outputs))
  | .record .., _ => .object (recordEntries .empty (outputs.map some))
  | _, _ => .array outputs

/-- Whether a check of a container runs after the descent. -/
def runsLater (k : CheckKind) : Bool :=
  match node.kind with
  | .tuple .. => true
  | .object .. => true
  | _ => !k.isSize

/-- The output of a container in the form that the node asks for. -/
def castOutput (w : Value) : Value :=
  match node.kind with
  | .array _ => node.settings.arrayOutput w
  | .set _ => node.settings.setOutput w
  | _ => w

/-- The plan of a container. -/
def containerPlan (hops : Nat) : Plan :=
  match node.parts? v call.options.arena with
  | none =>
      .done (.ok (.failure ⟨call.issue (node.containerRefusal v).1 path (node.containerRefusal v).2
        (node.containerInput v), []⟩))
  | some parts =>
      .parts (node.ownIssues call path v) (node.stops call) (parts.map (Part.visit hops path))
        fun ws => node.finished call path node.runsLater node.castOutput (node.assemble v parts ws)

/-! ## Other nodes -/

/-- The validation of a value at a leaf. -/
def leafValidation (l : Leaf) : Validation :=
  let v := if node.settings.coerces then l.coerce v else v
  match l.refusal? node.settings v with
  | some (cause, own) => .failure ⟨call.issue cause path own v, []⟩
  | none =>
      node.finished call path (fun _ => true)
        (fun w => if node.settings.casts then w.cast else w) v

/-- The validation of the output of an inner schema by an effect. -/
def effectValidation (stops : Bool) (effect : Effect) : Validation :=
  match effect with
  | .preprocess .. => .success v
  | .refine _ accepts message =>
      if accepts v then .success v
      else .failure ⟨call.issue (.custom none) path (some message) v, []⟩
  | .rule findings =>
      .after ((if stops then (findings v).take 1 else findings v).map fun f =>
        call.issue (.custom f.payload) path (some f.message) v) (.success v)
  | .transform _ map =>
      match map v with
      | .ok w => .success w
      | .error message => .failure ⟨call.issue (.custom none) path (some message) v, []⟩

/-- The plan of an effect. -/
def effectPlan (hops : Nat) (inner : Schema) (effect : Effect) : Plan :=
  if effect.flavour = .deferred ∧ call.mode = .immediate then
    .done (.error (.deferredEffect effect.name path))
  else
    match effect with
    | .preprocess _ map => .pass ⟨hops, inner, path, map v⟩
    | effect => .andThen ⟨hops, inner, path, v⟩ fun w =>
        .done (.ok (effectValidation call path w
          (call.abortsEarly (node.settings.abortEarly.or inner.settings.abortEarly)) effect))

/-- The validation of the outputs of all members of an intersection. -/
def mergeValidation (outputs : List Value) : Validation :=
  match outputs with
  | [] => .success v
  | w :: ws =>
      match mergeAll? w ws with
      | some merged => .success merged
      | none =>
          .failure ⟨call.issue .invalidIntersection path node.settings.typeMessage v, []⟩

/-- The plan of a lazy node. -/
def lazyPlan (hops : Nat) (id : SchemaId) : Plan :=
  match call.options.arena with
  | none => .done (.error (.missingArena id))
  | some a =>
      match hops with
      | 0 => .done (.error (.depthExceeded a.maxDepth path))
      | hops + 1 =>
          match a.get? id with
          | some s => .pass ⟨hops, s, path, v⟩
          | none => .done (.error (.undefinedId id))

/-- The plan of a node. -/
def plan (hops : Nat) : Plan :=
  match node.kind with
  | .leaf l => .done (.ok (node.leafValidation call path v l))
  | .union members =>
      .union (members.map fun s => ⟨hops, s, path, v⟩) fun is =>
        call.issue (.invalidUnion is) path node.settings.typeMessage v
  | .intersection members =>
      .intersection (node.stops call) (members.map fun s => ⟨hops, s, path, v⟩)
        (node.mergeValidation call path v)
  | .optional inner =>
      if v.isUndefined then .done (.ok (.success v)) else .pass ⟨hops, inner, path, v⟩
  | .nullable inner =>
      if v.isNull then .done (.ok (.success v)) else .pass ⟨hops, inner, path, v⟩
  | .default inner value => .pass ⟨hops, inner, path, if v.isUndefined then value else v⟩
  | .brand inner _ => .pass ⟨hops, inner, path, v⟩
  | .effects inner effect => node.effectPlan call path v hops inner effect
  | .pipeline input output =>
      .andThen ⟨hops, input, path, v⟩ fun w => .pass ⟨hops, output, path, w⟩
  | .lazy id => lazyPlan call path v hops id
  | _ => node.containerPlan call path v hops

/-- A node with parts is a container. -/
theorem plan_of_parts {node : Schema} {call : Call} {v : Value} {parts : List Part}
    (h : node.parts? v call.options.arena = some parts) (path : Path) (hops : Nat) :
    node.plan call path v hops = node.containerPlan call path v hops := by
  unfold parts? at h
  unfold plan
  cases hk : node.kind with
  | array e => rfl
  | set e => rfl
  | tuple items rest => rfl
  | object shape unknown => rfl
  | record key value => rfl
  | _ =>
      rw [hk] at h
      exact nomatch h

end Schema

/-- The plan of a visit. -/
def Visit.plan (call : Call) (t : Visit) : Plan := t.schema.plan call t.path t.value t.hops

end ValueSchema
