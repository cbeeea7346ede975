import ValueSchema.Unicode.Derived
import ValueSchema.Unicode.Script

/-!
# Segments of texts

The Unicode standard cuts texts into characters of a reader, words and sentences by
three properties, each of which gives a character one value.  The module lists the sets
of the characters with a value, except for the value of all other characters.
-/

namespace ValueSchema

namespace Unicode

/-- A carriage return. -/
def carriageReturn : CodeSet := .single '\x0d'

/-- A line feed. -/
def lineFeed : CodeSet := .single '\n'

/-- The joiner of width zero. -/
def joiner : CodeSet := .single '\u200d'

/-- The joiner and the non-joiner of width zero. -/
def joiners : CodeSet := .ofTable "200c-200d"

/-- The tag characters. -/
def tagCharacter : CodeSet := .ofTable "e0020-e007f"

/-! ## Characters of a reader -/

/-- The syllables of an initial and a medial sound. -/
def twoPartSyllable : CodeSet :=
  .ofIntervals ((List.range 399).map fun i => (0xac00 + 28 * i, 0xac00 + 28 * i))

/-- The values of the property that finds the characters of a reader. -/
def characterBreaks : List NamedSet :=
  [
    ⟨["cr"], carriageReturn⟩, ⟨["lf"], lineFeed⟩,
    ⟨["cn", "control"],
      .unionAll [lineSeparator, paragraphSeparator, control, format \ prependedConcatenationMark,
        unassigned ∩ defaultIgnorable] \
        .unionAll [carriageReturn, lineFeed, joiners, tagCharacter]⟩,
    ⟨["ex", "extend"], graphemeExtend ∪ emojiModifier⟩, ⟨["zwj"], joiner⟩,
    ⟨["ri", "regionalindicator"], regionalIndicator⟩,
    ⟨["pp", "prepend"],
      prependedConcatenationMark ∪
        .ofTable "d4e 111c2-111c3 113d1 1193f 11941 11a3a 11a84-11a89 11d46 11f02"⟩,
    ⟨["sm", "spacingmark"],
      (spacingMark ∪ .ofTable "e33 eb3") \
        .unionAll [graphemeExtend, .ofTable "102b-102c 1038 1062-1064 1067-106d 1083
          1087-108c 108f 109a-109c 1a61 1a63-1a64 aa7b aa7d 11720-11721"]⟩,
    ⟨["l"], .ofTable "1100-115f a960-a97c"⟩,
    ⟨["v"], .ofTable "1160-11a7 d7b0-d7c6 16d63 16d67-16d6a"⟩,
    ⟨["t"], .ofTable "11a8-11ff d7cb-d7fb"⟩, ⟨["lv"], twoPartSyllable⟩,
    ⟨["lvt"], .interval 0xac00 0xd7a3 \ twoPartSyllable⟩
  ]

/-! ## Words -/

/-- Digits and what stands inside numbers. -/
def wordNumeric : CodeSet := decimalNumber ∪ .ofTable "600-605 66b 6dd 890-891 8e2 19da 110bd 110cd"

/-- Formatting characters that words do not end at. -/
def wordFormat : CodeSet :=
  format \ .unionAll [prependedConcatenationMark, .ofTable "200b-200d", tagCharacter]

/-- Characters that extend words. -/
def wordExtend : CodeSet := .unionAll [graphemeExtend, spacingMark, emojiModifier]

/-- Letters of the Katakana syllabary and what goes with them. -/
def wordKatakana : CodeSet :=
  (NamedSet.find? "katakana" scriptSets).getD ∅ ∪ .ofTable "3031-3035 309b-309c 30a0 30fc ff70"

/-- Hebrew letters. -/
def hebrewLetter : CodeSet := (NamedSet.find? "hebrew" scriptSets).getD ∅ ∩ otherLetter

/-- The scripts that do not mark the ends of words. -/
def unspacedScripts : CodeSet :=
  .unionAll (["hira", "thai", "laoo", "khmr", "mymr", "tale", "talu", "lana", "tavt", "ahom"].map
    fun s => (NamedSet.find? s scriptSets).getD ∅)

/-- Letters of words. -/
def wordLetter : CodeSet :=
  (alphabetic \ .unionAll [ideographic, wordKatakana, wordExtend, hebrewLetter, unspacedScripts]) ∪
    .ofTable "2c2-2c5 2d2-2d7 2de-2df 2e5-2eb 2ed 2ef-2ff 55a-55c 55e 58a 5f3 70f a708-a716
      a720-a721 a789-a78a ab5b"

/-- Punctuation between the letters of a word. -/
def midLetter : CodeSet := .ofTable "3a b7 387 55f 5f4 2027 fe13 fe55 ff1a"

/-- Punctuation between the letters or the digits of a word. -/
def midNumberLetter : CodeSet := .ofTable "2e 2018-2019 2024 fe52 ff07 ff0e"

/-- The straight single quotation mark. -/
def singleQuote : CodeSet := .ofTable "27"

/-- The values of the property that finds words. -/
def wordBreaks : List NamedSet :=
  [
    ⟨["cr"], carriageReturn⟩, ⟨["lf"], lineFeed⟩,
    ⟨["nl", "newline"], .ofTable "b-c 85 2028-2029"⟩, ⟨["extend"], wordExtend⟩,
    ⟨["zwj"], joiner⟩, ⟨["fo", "format"], wordFormat⟩, ⟨["ka", "katakana"], wordKatakana⟩,
    ⟨["hl", "hebrewletter"], hebrewLetter⟩, ⟨["le", "aletter"], wordLetter⟩,
    ⟨["sq", "singlequote"], singleQuote⟩, ⟨["dq", "doublequote"], .single '"'⟩,
    ⟨["mb", "midnumlet"], midNumberLetter⟩, ⟨["ml", "midletter"], midLetter⟩,
    ⟨["mn", "midnum"], .ofTable "2c 3b 37e 589 60c-60d 66c 7f8 2044 fe50 fe54 ff0c ff1b"⟩,
    ⟨["nu", "numeric"], wordNumeric⟩,
    ⟨["ex", "extendnumlet"], connectorPunctuation ∪ .ofTable "202f"⟩,
    ⟨["ri", "regionalindicator"], regionalIndicator⟩,
    ⟨["wsegspace"], spaceSeparator \ .ofTable "a0 2007 202f"⟩
  ]

/-! ## Sentences -/

/-- Ends of paragraphs. -/
def sentenceSeparator : CodeSet := .ofTable "85 2028-2029"

/-- Characters that extend sentences. -/
def sentenceExtend : CodeSet := .unionAll [graphemeExtend, spacingMark, joiner]

/-- Letters in lower case, for sentences. -/
def sentenceLower : CodeSet := lowercase \ .unionAll [graphemeExtend, .ofTable "10d0-10fa 10fd-10ff"]

/-- Letters in upper case, for sentences. -/
def sentenceUpper : CodeSet := (uppercase ∪ titlecaseLetter) \ .ofTable "1c90-1cba 1cbd-1cbf"

/-- Full stops that may belong to an abbreviation. -/
def ambiguousStop : CodeSet := .ofTable "2e 2024 fe52 ff0e"

/-- The values of the property that finds sentences. -/
def sentenceBreaks : List NamedSet :=
  [
    ⟨["cr"], carriageReturn⟩, ⟨["lf"], lineFeed⟩, ⟨["ex", "extend"], sentenceExtend⟩,
    ⟨["se", "sep"], sentenceSeparator⟩,
    ⟨["fo", "format"],
      format \ .unionAll [prependedConcatenationMark \ .ofTable "70f", joiners, tagCharacter]⟩,
    ⟨["sp"], whiteSpace \ .unionAll [sentenceSeparator, carriageReturn, lineFeed]⟩,
    ⟨["lo", "lower"], sentenceLower⟩, ⟨["up", "upper"], sentenceUpper⟩,
    ⟨["le", "oletter"],
      (alphabetic \ .unionAll [sentenceLower, sentenceUpper, sentenceExtend]) ∪ .ofTable "5f3"⟩,
    ⟨["nu", "numeric"], wordNumeric ∪ .ofTable "66c"⟩, ⟨["at", "aterm"], ambiguousStop⟩,
    ⟨["sc", "scontinue"], .ofTable "2c-2d 3a-3b 37e 55d 60c-60d 7f8 1802 1808 2013-2014 3001
      fe10-fe11 fe13-fe14 fe31-fe32 fe50-fe51 fe54-fe55 fe58 fe63 ff0c-ff0d ff1a-ff1b ff64"⟩,
    ⟨["st", "sterm"], sentenceTerminal \ ambiguousStop⟩,
    ⟨["cl", "close"], .unionAll [openPunctuation, closePunctuation, initialPunctuation,
      finalPunctuation, .ofTable "22 27 275b-2760 2e00-2e01 2e06-2e08 2e0b 1f676-1f678"]⟩
  ]

end Unicode

end ValueSchema
