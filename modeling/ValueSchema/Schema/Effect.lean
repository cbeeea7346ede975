import ValueSchema.Value.Basic

/-!
# Effects

An `Effect` is a function of the user's that is attached to a schema.

* A preprocessor maps the input before the schema sees it.
* A refinement accepts or refuses the output of the schema.
* A rule, the general refinement, lists the findings it has about the output.
* A transform maps the output, or fails with a message.

The functions are total and have no side effects.  Each but the rule comes in two
flavours.  A deferred one may wait for something before it answers, so it can only
run in a deferred call; the answer is the same.
-/

namespace ValueSchema

/-- Whether a function of the user's answers at once or may wait. -/
inductive Flavour where
  /-- It answers at once. -/
  | immediate
  /-- It may wait. -/
  | deferred
deriving DecidableEq, Repr

/-- What a rule has to say about a value. -/
structure Finding where
  /-- The message of the issue. -/
  message : String
  /-- The payload of the issue. -/
  payload : Option Value := none

/-- A function attached to a schema. -/
inductive Effect where
  /-- Maps the input. -/
  | preprocess (flavour : Flavour) (map : Value → Value)
  /-- Accepts or refuses the output. -/
  | refine (flavour : Flavour) (accepts : Value → Bool) (message : String)
  /-- Lists findings about the output. -/
  | rule (findings : Value → List Finding)
  /-- Maps the output or fails. -/
  | transform (flavour : Flavour) (map : Value → Except String Value)

namespace Effect

/-- The name of an effect in messages. -/
def name : Effect → String
  | .preprocess .. => "preprocess"
  | .refine .. => "refinement"
  | .rule _ => "refinement"
  | .transform .. => "transform"

/-- The flavour of an effect. -/
def flavour : Effect → Flavour
  | .preprocess f _ => f
  | .refine f _ _ => f
  | .rule _ => .immediate
  | .transform f _ => f

/-- An effect on one line, for inspection. -/
def summary (e : Effect) : String :=
  "Effect::" ++ e.name ++ (match e.flavour with | .immediate => "(sync)" | .deferred => "(async)")

end Effect

end ValueSchema
