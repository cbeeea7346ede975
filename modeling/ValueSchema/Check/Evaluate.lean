import ValueSchema.Check.Basic
import ValueSchema.Text.Part
import ValueSchema.Value.Order

/-!
# Evaluating checks

`Check.evaluate` applies a check to a value.  Bounds and lengths apply to the measure
of the value: the size of a container, and the value itself otherwise.  A check on
numbers or texts passes values of other types.

The items of arrays and sets are compared pairwise by `unique`, an item with the
earlier ones that are kept, and by `sorted`, an item with the next one.
-/

namespace ValueSchema

/-- The outcome of a check. -/
inductive Verdict where
  /-- The value meets the rule. -/
  | pass
  /-- The value is replaced by another one. -/
  | rewrite (v : Value)
  /-- The value does not meet the rule, and the measure that failed. -/
  | fail (received : Value)

/-- Passes or fails by a truth value. -/
def Verdict.ofBool (ok : Bool) (received : Value) : Verdict :=
  if ok then .pass else .fail received

namespace Check

/-! ## Texts -/

/-- An email address: a name, an at sign, and at least two labels with dots between,
the last one of two letters or more. -/
def emailRegex : Regex :=
  let label : Regex := .repeated 1 none true (.chars (.asciiAlnum ∪ .single '-'))
  .sequence [.anchor .textStart,
    .repeated 1 none true (.chars (.asciiAlnum ∪ .ofText "._%+-")), .literal ['@'], label,
    .repeated 0 none true (.sequence [.literal ['.'], label]), .literal ['.'],
    .repeated 2 none true (.chars .asciiLetter), .anchor .textEnd]

/-- An address of a resource: a scheme, a colon and two slashes, and a host, without
white space. -/
def urlRegex : Regex :=
  .sequence [.anchor .textStart, .chars .asciiLetter,
    .repeated 0 none true (.chars (.asciiAlnum ∪ .ofText "+.-")), .literal "://".toList,
    .repeated 1 none true (.chars (Unicode.whiteSpace ∪ .ofText "/?#").compl),
    .repeated 0 none true (.chars Unicode.whiteSpace.compl), .anchor .textEnd]

/-- A unique identifier: groups of 8, 4, 4, 4 and 12 hexadecimal digits with dashes
between. -/
def uuidRegex : Regex :=
  let block (n : Nat) : Regex := .repeated n (some n) true (.chars Unicode.asciiHexDigit)
  .sequence [.anchor .textStart, block 8, .literal ['-'], block 4, .literal ['-'], block 4,
    .literal ['-'], block 4, .literal ['-'], block 12, .anchor .textEnd]

/-- The automaton of email addresses. -/
def emailAutomaton : Option Regex.Automaton := emailRegex.automaton?

/-- The automaton of addresses of resources. -/
def urlAutomaton : Option Regex.Automaton := urlRegex.automaton?

/-- The automaton of unique identifiers. -/
def uuidAutomaton : Option Regex.Automaton := uuidRegex.automaton?

/-! ## Numbers -/

/-- How far from a whole number a quotient may lie that counts as whole. -/
def multipleTolerance : Double := Double.nearest false 1 1000000000

/-- The largest magnitude below which all integers are doubles. -/
def safeBound : Double := Double.ofNat ((1 <<< 53) - 1)

/-- Whether a value is a multiple of a step.  Big integers divide exactly, where an
integral double as the step counts as the nearest big integer.  The quotient of two
doubles is rounded and may miss a whole number by the tolerance.  Zero has no
multiples. -/
def isMultiple : Value → Value → Bool
  | .bigint n, .bigint step => step.val ≠ 0 && n.val.tmod step.val = 0
  | .bigint n, .number step =>
      match step.toInt? with
      | some s => s ≠ 0 && n.val.tmod (Int128.clamp s).val = 0
      | none => false
  | .number x, .number step => !step.isZero && (x.div step).isNearWhole multipleTolerance
  | _, _ => false

/-! ## Items -/

/-- The first item that `same` identifies with an earlier one, where `earlier` come
before all. -/
def firstRepeat? (same : Value → Value → Bool) (earlier : List Value) :
    List Value → Option Value
  | [] => none
  | v :: vs =>
      if earlier.any (same · v) then some v else firstRepeat? same (earlier ++ [v]) vs
termination_by structural vs => vs

/-- The first two neighbours in descending order. -/
def firstDescent? (order : Value → Value → Ordering) : List Value → Option (Value × Value)
  | a :: b :: vs => if order a b = .gt then some (a, b) else firstDescent? order (b :: vs)
  | _ => none
termination_by structural vs => vs

/-- Items with one more that came after them, which passes those from the end on that it
is less than.  `before` holds the items latest first. -/
def insertLast (order : Value → Value → Ordering) (v : Value) (before : List Value) :
    List Value :=
  let passed := before.takeWhile fun u => order v u = .lt
  passed ++ v :: before.dropWhile fun u => order v u = .lt

/-- How many items are sorted by inserting one after another. -/
def insertionLimit : Nat := 20

/-- The items in ascending order, equal ones in their old order.  An order that is no
total preorder leaves it to the method what the result is: a short list is sorted by
inserting one item after another from the end, a long one by merging halves. -/
def sortItems (order : Value → Value → Ordering) (items : List Value) : List Value :=
  if items.length ≤ insertionLimit then
    (items.foldl (fun sorted v => insertLast order v sorted) []).reverse
  else items.mergeSort fun a b => order a b != .gt

/-- A sequence of the same type with other items. -/
def withItems (v : Value) (items : List Value) : Value :=
  match v with
  | .set _ => .set items
  | _ => .array items

/-- The verdict of `unique` on a value. -/
def evaluateUnique (same : Value → Value → Bool) (converts : Bool) (v : Value) : Verdict :=
  match v.asItems? with
  | none => .pass
  | some items =>
      if converts then
        let kept := Value.keepFirst same items
        if kept.length = items.length then .pass else .rewrite (withItems v kept)
      else
        match firstRepeat? same [] items with
        | some item => .fail item
        | none => .pass

/-- The verdict of `sorted` on a value. -/
def evaluateSorted (order : Value → Value → Ordering) (converts : Bool) (v : Value) : Verdict :=
  match v.asItems? with
  | none => .pass
  | some items =>
      match firstDescent? order items with
      | none => .pass
      | some (a, b) =>
          if converts then .rewrite (withItems v (sortItems order items))
          else .fail (.array [a, b])

/-! ## Evaluation -/

/-- What bounds and lengths are compared with. -/
def measure (v : Value) : Value := (v.size?.map Value.ofNat).getD v

/-- The verdict of a test on numbers. -/
def onNumber (v : Value) (test : Double → Bool) : Verdict :=
  match v with
  | .number x => .ofBool (test x) v
  | _ => .pass

/-- The verdict of a test on texts. -/
def onString (v : Value) (test : String → Bool) : Verdict :=
  match v with
  | .string s => .ofBool (test s) v
  | _ => .pass

/-- Whether an order of the measure and a bound meets the bound. -/
def meetsBound (inclusive : Bool) (wanted found : Ordering) : Bool :=
  found = wanted || (inclusive && found = .eq)

/-- The verdict of a check on a value of the right type. -/
def evaluate (c : Check) (v : Value) : Verdict :=
  match c with
  | .min bound inclusive =>
      .ofBool (meetsBound inclusive .gt ((measure v).order bound)) (measure v)
  | .max bound inclusive =>
      .ofBool (meetsBound inclusive .lt ((measure v).order bound)) (measure v)
  | .range low high =>
      .ofBool ((measure v).order low != .lt && (measure v).order high != .gt) (measure v)
  | .length n => .ofBool ((measure v).order (.ofNat n) == .eq) (measure v)
  | .size n => .ofBool ((measure v).order (.ofNat n) == .eq) (measure v)
  | .integer => onNumber v Double.isIntegral
  | .precision digits => onNumber v fun x => decide (x.fractionDigits ≤ digits)
  | .multiple step => .ofBool (isMultiple v step) v
  | .finite => onNumber v Double.isFinite
  | .safe => onNumber v fun x => decide (x.magnitude ≤ safeBound.magnitude)
  | .pattern p => onString v p.isMatch
  | .startsWith s => onString v (Text.startsWith · s)
  | .endsWith s => onString v (Text.endsWith · s)
  | .includes s => onString v (Text.contains · s)
  | .email => onString v fun s => emailAutomaton.any (·.isMatch s)
  | .url => onString v fun s => urlAutomaton.any (·.isMatch s)
  | .uuid => onString v fun s => uuidAutomaton.any (·.isMatch s)
  | .unique same converts => evaluateUnique (same.getD (· == ·)) converts v
  | .sorted order converts => evaluateSorted (order.getD Value.order) converts v
  | .compact =>
      match v with
      | .array items => .rewrite (.array (items.filter fun i => !i.isNull && !i.isUndefined))
      | _ => .pass
  | .custom _ accepts => .ofBool (accepts v) v

end Check

end ValueSchema
