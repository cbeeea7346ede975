import ValueSchema.Unicode.CodeSet

/-!
# Sets with names

The sets of characters that the Unicode standard defines have several names each.
`Unicode.normalName` brings a name into the form in which names are compared, and
`NamedSet.find?` looks a set up.
-/

namespace ValueSchema

namespace Unicode

/-- A set with its names in normal form. -/
structure NamedSet where
  /-- The names. -/
  names : List String
  /-- The members of the set. -/
  members : CodeSet

/-- The first set of a list with a given name in normal form. -/
def NamedSet.find? (name : String) (sets : List NamedSet) : Option CodeSet :=
  (sets.find? (·.names.contains name)).map (·.members)

/-- Whether a character of a name counts. -/
def isNameChar (c : Char) : Bool :=
  c.toNat < 0x80 && c ≠ ' ' && c ≠ '_' && c ≠ '-'

/-- The normal form of a name.  Case, spaces, low lines, hyphens, characters outside of
ASCII and a leading "is" do not count.  The name "isc" alone keeps its start, since "c"
is another one. -/
def normalName (name : String) : String :=
  let normal (cs : List Char) : String := String.ofList ((cs.filter isNameChar).map Char.toLower)
  match name.toList with
  | i :: s :: cs =>
      if i.toLower = 'i' ∧ s.toLower = 's' then
        if normal cs = "c" then "isc" else normal cs
      else normal (i :: s :: cs)
  | cs => normal cs

example : normalName "Is_White-Space" = "whitespace" := by decide +kernel
example : normalName "isC" = "isc" := by decide +kernel

end Unicode

end ValueSchema
