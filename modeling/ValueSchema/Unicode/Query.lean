import ValueSchema.Unicode.Age
import ValueSchema.Unicode.Casing

/-!
# Sets by name

`Unicode.ofName?` finds the set that one name refers to, and `Unicode.ofValue?` the set
of the characters for which a property has a value.
-/

namespace ValueSchema

namespace Unicode

/-- The properties that a character has or does not have. -/
def properties : List NamedSet := listedProperties ++ derivedProperties ++ casingProperties

/-- The set that a name refers to: a property, a general category or a script, in this
order. -/
def ofName? (name : String) : Option CodeSet :=
  let name := normalName name
  (NamedSet.find? name properties).or
    ((NamedSet.find? name categories).or (NamedSet.find? name scriptSets))

/-- The set of the characters with a value of a property. -/
def ofValue? (property value : String) : Option CodeSet :=
  let value := normalName value
  match normalName property with
  | "gc" => NamedSet.find? value categories
  | "generalcategory" => NamedSet.find? value categories
  | "sc" => NamedSet.find? value scriptSets
  | "script" => NamedSet.find? value scriptSets
  | "scx" => NamedSet.find? value scriptExtensionSets
  | "scriptextensions" => NamedSet.find? value scriptExtensionSets
  | "age" => ofAge? value
  | "gcb" => NamedSet.find? value characterBreaks
  | "graphemeclusterbreak" => NamedSet.find? value characterBreaks
  | "wb" => NamedSet.find? value wordBreaks
  | "wordbreak" => NamedSet.find? value wordBreaks
  | "sb" => NamedSet.find? value sentenceBreaks
  | "sentencebreak" => NamedSet.find? value sentenceBreaks
  | _ => none

end Unicode

end ValueSchema
