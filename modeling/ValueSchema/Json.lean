import ValueSchema.Entries
import ValueSchema.Double.Text

/-!
# JSON documents

A `Json` document keeps its whole numbers apart from its other numbers, since
their text differs: `1` is written without a point and `1e+21` with an exponent.
`Json.render` writes a document without spaces.  In strings it escapes the quote,
the backslash and the controls below the space, and nothing else.
-/

namespace ValueSchema

/-- A JSON document. -/
inductive Json where
  /-- The null document. -/
  | null
  /-- A truth value. -/
  | bool (b : Bool)
  /-- A whole number. -/
  | integer (n : Int)
  /-- Another number.  It is finite. -/
  | number (x : Double)
  /-- A string. -/
  | string (s : String)
  /-- An array. -/
  | array (items : List Json)
  /-- An object, its keys in order. -/
  | object (entries : Entries Json)

namespace Json

/-- The lowercase hexadecimal digit of a number below sixteen. -/
def hexDigit (n : Nat) : Char := (Nat.toDigits 16 n).headD '0'

/-- A character inside a string. -/
def escapeChar (c : Char) : List Char :=
  match c with
  | '"' => ['\\', '"']
  | '\\' => ['\\', '\\']
  | '\x08' => ['\\', 'b']
  | '\x0c' => ['\\', 'f']
  | '\n' => ['\\', 'n']
  | '\x0d' => ['\\', 'r']
  | '\t' => ['\\', 't']
  | c =>
      if c.toNat < 0x20 then ['\\', 'u', '0', '0', hexDigit (c.toNat / 16), hexDigit (c.toNat % 16)]
      else [c]

/-- A string between quotes. -/
def quote (s : String) : String := String.ofList ('"' :: (s.toList.flatMap escapeChar ++ ['"']))

mutual

/-- The text of a document, without spaces. -/
def render : Json → String
  | .null => "null"
  | .bool b => if b then "true" else "false"
  | .integer n => toString n
  | .number x => x.layoutText Double.jsonLayout
  | .string s => quote s
  | .array items => "[" ++ ",".intercalate (renderItems items) ++ "]"
  | .object ⟨entries⟩ => "\x7b" ++ ",".intercalate (renderEntries entries) ++ "\x7d"

/-- The texts of the items of an array. -/
def renderItems : List Json → List String
  | [] => []
  | j :: items => render j :: renderItems items

/-- The texts of the entries of an object. -/
def renderEntries : List (String × Json) → List String
  | [] => []
  | (k, j) :: entries => (quote k ++ ":" ++ render j) :: renderEntries entries

end

example : render (.object ⟨[("a", .array [.integer (-1), .null]), ("\n\x01", .string "é\"")]⟩)
    = "\x7b\"a\":[-1,null],\"\\n\\u0001\":\"é\\\"\"\x7d" := by decide +kernel

end Json

end ValueSchema
