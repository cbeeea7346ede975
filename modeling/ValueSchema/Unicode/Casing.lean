import ValueSchema.Unicode.Folding
import ValueSchema.Unicode.Segment

/-!
# Properties of case

Properties of characters that concern case: having one, being ignored where case is
decided, and being changed by a conversion.  `Unicode.casingProperties` lists them with
their names.
-/

namespace ValueSchema

namespace Unicode

/-- Characters with a case. -/
def cased : CodeSet := .unionAll [lowercase, uppercase, titlecaseLetter]

/-- Characters that do not count where the case of their neighbours is decided. -/
def caseIgnorable : CodeSet :=
  .unionAll [nonspacingMark, enclosingMark, format, modifierLetter, modifierSymbol, midLetter,
    midNumberLetter, singleQuote]

/-- Characters with case variants. -/
def caseVarying : CodeSet := .ofIntervals (caseClasses.flatten.map fun n => (n, n))

/-- Characters that the conversion to lower case changes. -/
def changesWhenLowercased : CodeSet :=
  (caseVarying ∩ (uppercase ∪ titlecaseLetter)) ∪ .ofTable "130"

/-- Characters that the conversion to upper case changes. -/
def changesWhenUppercased : CodeSet :=
  (caseVarying \ uppercase) ∪ .ofTable "131 149 1f0 587 1e96-1e9a 1f50~1f56 1fb2 1fb4 1fb6-1fb7
    1fc2 1fc4 1fc6-1fc7 1fd2 1fd6-1fd7 1fe2 1fe4 1fe6-1fe7 1ff2 1ff4 1ff6-1ff7 fb00-fb04 fb13-fb17"

/-- Characters that the conversion to title case changes. -/
def changesWhenTitlecased : CodeSet :=
  (changesWhenUppercased ∪ .ofTable "1c4 1c7 1ca 1f1") \
    .unionAll [titlecaseLetter, .ofTable "10d0-10fa 10fd-10ff"]

/-- Characters that full case folding changes. -/
def changesWhenCasefolded : CodeSet :=
  (changesWhenLowercased \ .ofTable "13a0-13f5") ∪
    .ofTable "b5 df 149 17f 345 3c2 3d0-3d1 3d5-3d6 3f0-3f1 3f5 587 13f8-13fd 1c80-1c88
      1e9a-1e9b 1f80-1f87 1f90-1f97 1fa0-1fa7 1fb2-1fb4 1fb7 1fc2-1fc4 1fc7 1ff2-1ff4 1ff7
      ab70-abbf fb00-fb06 fb13-fb17"

/-- Characters that some conversion changes. -/
def changesWhenCasemapped : CodeSet :=
  .unionAll [changesWhenLowercased, changesWhenUppercased, changesWhenTitlecased]

/-- The properties of case. -/
def casingProperties : List NamedSet :=
  [
    ⟨["cased"], cased⟩, ⟨["ci", "caseignorable"], caseIgnorable⟩,
    ⟨["cwl", "changeswhenlowercased"], changesWhenLowercased⟩,
    ⟨["cwu", "changeswhenuppercased"], changesWhenUppercased⟩,
    ⟨["cwt", "changeswhentitlecased"], changesWhenTitlecased⟩,
    ⟨["cwcf", "changeswhencasefolded"], changesWhenCasefolded⟩,
    ⟨["cwcm", "changeswhencasemapped"], changesWhenCasemapped⟩
  ]

end Unicode

end ValueSchema
