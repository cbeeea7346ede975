import ValueSchema.Coercion
import ValueSchema.Parse.Choice
import ValueSchema.Parse.Container

/-!
# Parsing at a node

`Schema.parseNode` is the step of a node, given the steps of its inner schemas and of the
definitions that lazy nodes name.  It contains no recursion over schemas.

A leaf converts the value when it coerces, tests it, applies its checks, and converts the
output when it casts.  Wrappers let some values pass or replace them and leave the others
to the inner schema, at the same place.
-/

namespace ValueSchema

/-! ## Leaves -/

/-- The kind of the values of a leaf, if it asks for one. -/
def Leaf.expectedKind? : Leaf → Option ValueKind
  | .undefined => some .undefined
  | .null => some .null
  | .boolean => some .boolean
  | .string => some .string
  | .number => some .number
  | .bigint => some .bigint
  | .date => some .date
  | .buffer => some .buffer
  | _ => none

/-- Why a leaf refuses a value, and the message of the node for it.  Nothing if the leaf
admits the value. -/
def Leaf.refusal? (l : Leaf) (s : Settings) (v : Value) : Option (Cause Issue × Option String) :=
  match l with
  | .never => if v.isUndefined then none else some (.forbidden, s.typeMessage)
  | .literal w =>
      if v == w then none
      else if v.isUndefined then some (s.typeRefusal w.kind v)
      else some (.invalidLiteral w v, s.typeMessage)
  | .enum ws =>
      if ws.any (· == v) then none
      else if v.isUndefined then some (.required, s.requiredMessage)
      else some (.invalidEnumValue ws v, s.typeMessage)
  | l =>
      match l.expectedKind? with
      | some k => if v.kind = k then none else some (s.typeRefusal k v)
      | none => none

namespace Schema

/-- Parses a value at a leaf. -/
def parseLeaf (node : Schema) (call : Call) (l : Leaf) (v : Value) : Parser (Option Value) := do
  let v := if node.settings.coerces then l.coerce v else v
  match l.refusal? node.settings v with
  | some (cause, own) => Parser.refuse call cause own v
  | none =>
      let out ← node.finishChecks call (fun _ => true) v
      return if node.settings.casts then out.map Value.cast else out

/-! ## Effects -/

/-- Raises findings as issues, all of them or only the first one. -/
def raiseFindings (call : Call) (v : Value) : List Finding → Parser Unit
  | [] => return ()
  | f :: fs => do
      Parser.raise call (.custom f.payload) (some f.message) v
      raiseFindings call v fs
termination_by structural fs => fs

/-- What an effect makes of the output of the inner schema. -/
def applyEffect (call : Call) (abortsEarly : Bool) (effect : Effect) (v : Value) :
    Parser (Option Value) := do
  match effect with
  | .preprocess .. => return some v
  | .refine _ accepts message =>
      Parser.countCall
      if accepts v then return some v
      else Parser.refuse call (.custom none) (some message) v
  | .rule findings =>
      Parser.countCall
      let fs := findings v
      if fs.isEmpty then return some v
      raiseFindings call v (if abortsEarly then fs.take 1 else fs)
      return none
  | .transform _ map =>
      Parser.countCall
      match map v with
      | .ok w => return some w
      | .error message => Parser.refuse call (.custom none) (some message) v

/-- Parses a value at an effect.  A deferred effect is a misuse in an immediate call, even
when the inner schema would refuse the value. -/
def parseEffect (node : Schema) (call : Call) (inner : Schema × Runner) (effect : Effect)
    (v : Value) : Parser (Option Value) := do
  if effect.flavour = .deferred ∧ call.mode = .immediate then
    Parser.misuse (.deferredEffect effect.name (← Parser.path))
  match effect with
  | .preprocess _ map =>
      Parser.countCall
      inner.2 (map v)
  | effect =>
      match ← inner.2 v with
      | some w =>
          let abortsEarly :=
            call.abortsEarly (node.settings.abortEarly.or inner.1.settings.abortEarly)
          applyEffect call abortsEarly effect w
      | none => return none

/-! ## All nodes -/

/-- The step of a node.  `follow` gives the steps of the definitions that lazy nodes
name. -/
def parseNode (call : Call) (follow : SchemaId → Runner) (node : Schema)
    (kind : Kind (Schema × Runner)) : Runner := fun v =>
  match kind with
  | .leaf l => node.parseLeaf call l v
  | .array element => node.parseArray call element.2 v
  | .set element => node.parseSet call element.2 v
  | .tuple items rest => node.parseTuple call items (rest.map Prod.snd) v
  | .object shape unknown => node.parseObject call shape unknown v
  | .record key value => node.parseRecord call key.2 value.2 v
  | .union members => node.parseUnion call (members.map Prod.snd) v
  | .intersection members => node.parseIntersection call (members.map Prod.snd) v
  | .optional inner => if v.isUndefined then return some v else inner.2 v
  | .nullable inner => if v.isNull then return some v else inner.2 v
  | .default inner value => inner.2 (if v.isUndefined then value else v)
  | .brand inner _ => inner.2 v
  | .effects inner effect => node.parseEffect call inner effect v
  | .pipeline input output => do
      match ← input.2 v with
      | some w => output.2 w
      | none => return none
  | .lazy id => follow id v

end Schema

end ValueSchema
