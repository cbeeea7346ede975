/-!
# Parts of texts

Whether one text starts, ends or contains another one, by characters.
-/

namespace ValueSchema

namespace Text

/-- Whether a list of characters begins somewhere in another one. -/
def containsChars (needle : List Char) : List Char → Bool
  | [] => needle.isEmpty
  | c :: cs => needle.isPrefixOf (c :: cs) || containsChars needle cs
termination_by structural cs => cs

/-- Whether a text begins with another one. -/
def startsWith (s start : String) : Bool := start.toList.isPrefixOf s.toList

/-- Whether a text ends with another one. -/
def endsWith (s ending : String) : Bool := ending.toList.isSuffixOf s.toList

/-- Whether a text contains another one. -/
def contains (s needle : String) : Bool := containsChars needle.toList s.toList

theorem containsChars_iff (needle cs : List Char) :
    containsChars needle cs = true ↔ needle <:+: cs := by
  induction cs with
  | nil => simp [containsChars]
  | cons c cs ih => rw [containsChars, Bool.or_eq_true, ih, List.isPrefixOf_iff_prefix,
      List.infix_cons_iff]

end Text

end ValueSchema
