import ValueSchema.Parse.Checks
import ValueSchema.Parse.Descent

/-!
# Arrays, sets, tuples, objects and records

Each of these kinds tests the container, descends into its parts, puts an output
together from theirs and applies checks.  Arrays, sets and records measure the container
before they descend, and apply the remaining checks to the output; tuples and objects
apply all checks to the output.  No output is put together when something was refused.
-/

namespace ValueSchema

namespace Settings

/-! ## Conversions between arrays and sets -/

/-- The input of an array or a tuple: a set is converted when the node coerces. -/
def arrayInput (s : Settings) (v : Value) : Value :=
  match v with
  | .set items => if s.coerces then .array items else v
  | _ => v

/-- The input of a set: an array is converted when the node coerces. -/
def setInput (s : Settings) (v : Value) : Value :=
  match v with
  | .array items => if s.coerces then .set (Value.distinct items) else v
  | _ => v

/-- The output of an array: it becomes a set when the node casts. -/
def arrayOutput (s : Settings) (v : Value) : Value :=
  if s.casts then .set (Value.distinct v.items) else v

/-- The output of a set: it becomes an array when the node casts. -/
def setOutput (s : Settings) (v : Value) : Value := if s.casts then .array v.items else v

end Settings

namespace Schema

/-! ## Lists of equal parts -/

/-- The outputs of the items of a container, after its size checks. -/
def parseItems (node : Schema) (call : Call) (element : Runner) (container : Value) :
    Parser (Option (List Value)) := do
  let abortsEarly := call.abortsEarly node.settings.abortEarly
  let (sized, container) ← node.runChecks call CheckKind.isSize container
  if !sized && abortsEarly then return none
  let outputs ← Parser.descend call abortsEarly
    (container.items.mapIdx fun i v => ⟨.index i, element v⟩)
  if ← Parser.isInvalid then return none
  return outputs.mapM fun out => out

/-- Parses an array. -/
def parseArray (node : Schema) (call : Call) (element : Runner) (v : Value) :
    Parser (Option Value) := do
  let v := node.settings.arrayInput v
  match v with
  | .array _ =>
      match ← node.parseItems call element v with
      | none => return none
      | some items =>
          return (← node.finishChecks call (!·.isSize) (.array items)).map node.settings.arrayOutput
  | _ => node.refuseType call .array v

/-- Parses a set.  Equal members are dropped from the output. -/
def parseSet (node : Schema) (call : Call) (element : Runner) (v : Value) :
    Parser (Option Value) := do
  let v := node.settings.setInput v
  match v with
  | .set _ =>
      match ← node.parseItems call element v with
      | none => return none
      | some items =>
          return (← node.finishChecks call (!·.isSize) (.set (Value.distinct items))).map
            node.settings.setOutput
  | _ => node.refuseType call .set v

/-! ## Tuples -/

/-- The failed check of a tuple with the wrong number of items. -/
def arityFailure? (arity received : Nat) (hasRest : Bool) : Option CheckFailure :=
  if hasRest then
    if received < arity then
      some ⟨.min, (Check.min (.ofNat arity) true).expected, .ofNat received⟩
    else none
  else if received ≠ arity then some ⟨.length, .ofNat arity, .ofNat received⟩
  else none

/-- The parts of a tuple: each item with the step of its place, from place `i` on, and
further items with the step for the rest. -/
def tupleDescents (rest : Option Runner) (i : Nat) : List Runner → List Value → List Descent
  | _, [] => []
  | s :: slots, v :: vs => ⟨.index i, s v⟩ :: tupleDescents rest (i + 1) slots vs
  | [], v :: vs =>
      match rest with
      | some s => ⟨.index i, s v⟩ :: tupleDescents rest (i + 1) [] vs
      | none => []
termination_by structural _ vs => vs

/-- Parses a tuple.  Items whose schema is discarded have no place. -/
def parseTuple (node : Schema) (call : Call) (items : List (Schema × Runner))
    (rest : Option Runner) (v : Value) : Parser (Option Value) := do
  let v := node.settings.arrayInput v
  match v with
  | .array values =>
      let slots := (items.filter fun s => !s.1.settings.discarded).map Prod.snd
      match arityFailure? slots.length values.length rest.isSome with
      | some failure =>
          Parser.refuse call (.failedCheck .tuple failure) node.settings.typeMessage v
      | none =>
          let outputs ← Parser.descend call (call.abortsEarly node.settings.abortEarly)
            (tupleDescents rest 0 slots values)
          if ← Parser.isInvalid then return none
          node.finishChecks call (fun _ => true) (.array (outputs.filterMap fun out => out))
  | _ => node.refuseType call .array v

/-! ## Objects -/

/-- The declared keys that an object has to have and has not. -/
def missingKeys (arena : Option Arena) (shape : Entries (Schema × Runner))
    (input : Entries Value) : List String :=
  (shape.toList.filter fun (k, s) => !input.hasKey k && !s.1.acceptsUndefinedIn arena).map Prod.fst

/-- The keys of an object that are not declared. -/
def undeclaredKeys (shape : Entries (Schema × Runner)) (input : Entries Value) : List String :=
  input.keys.filter fun k => !shape.hasKey k

/-- The value that a declared key is parsed with: that of the object, or the missing one
if the schema accepts it. -/
def fieldValue? (arena : Option Arena) (input : Entries Value) (key : String) (schema : Schema) :
    Option Value :=
  match input.get? key with
  | some v => some v
  | none => if schema.acceptsUndefinedIn arena then some .undefined else none

/-- The declared keys that are parsed, in the order of the shape, each with its step. -/
def fieldSteps (arena : Option Arena) (shape : Entries (Schema × Runner))
    (input : Entries Value) : List (String × Parser (Option Value)) :=
  shape.toList.filterMap fun (k, s) => (fieldValue? arena input k s.1).map fun v => (k, s.2 v)

/-- Parses an object.  Its output has the declared keys in the order of the shape and then
the keys kept by the policy, without missing values. -/
def parseObject (node : Schema) (call : Call) (shape : Entries (Schema × Runner))
    (unknown : UnknownKeys (Schema × Runner)) (v : Value) : Parser (Option Value) := do
  match v with
  | .object input =>
      let abortsEarly := call.abortsEarly node.settings.abortEarly
      let missing := missingKeys call.options.arena shape input
      if !missing.isEmpty then
        Parser.raise call (.missingKeys missing) none v
        if abortsEarly then return none
      let undeclared := undeclaredKeys shape input
      if !undeclared.isEmpty then
        if let .strict := unknown then
          Parser.raise call (.unrecognizedKeys undeclared) none v
          if abortsEarly then return none
      let others := input.filter fun k _ => !shape.hasKey k
      let steps := fieldSteps call.options.arena shape input ++ (match unknown with
        | .catchall s => others.toList.map fun (k, w) => (k, s.2 w)
        | _ => [])
      let outputs ← Parser.descend call abortsEarly
        (steps.map fun (k, step) => ⟨.field k, step⟩)
      if ← Parser.isInvalid then return none
      let kept := ((steps.map Prod.fst).zip outputs).filterMap fun (k, out) =>
        match out with
        | some w => if w.isUndefined then none else some (k, w)
        | none => none
      let extra := match unknown with
        | .passthrough => others.toList
        | _ => []
      node.finishChecks call (fun _ => true) (.object ((Entries.ofList kept).insertAll extra))
  | _ => node.refuseType call .object v

/-! ## Records -/

/-- The key that the output of a key schema stands for: a string itself, and otherwise the
text of the value. -/
def recordKey (v : Value) : String := v.bareText

/-- The entries of a record from the outputs of its keys and values in turn. -/
def recordEntries (m : Entries Value) : List (Option Value) → Entries Value
  | some k :: some w :: outs => recordEntries (m.insert (recordKey k) w) outs
  | _ :: _ :: outs => recordEntries m outs
  | _ => m
termination_by structural outs => outs

/-- Parses a record.  Each key is parsed as a string and each value after its key, both at
the path of the entry. -/
def parseRecord (node : Schema) (call : Call) (key value : Runner) (v : Value) :
    Parser (Option Value) := do
  match v with
  | .object input =>
      let abortsEarly := call.abortsEarly node.settings.abortEarly
      let (sized, _) ← node.runChecks call CheckKind.isSize v
      if !sized && abortsEarly then return none
      let outputs ← Parser.descend call abortsEarly
        (input.toList.flatMap fun (k, w) =>
          [⟨.field k, key (.string k)⟩, ⟨.field k, value w⟩])
      if ← Parser.isInvalid then return none
      node.finishChecks call (!·.isSize) (.object (recordEntries .empty outputs))
  | _ => node.refuseType call .object v

end Schema

end ValueSchema
