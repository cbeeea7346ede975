import Mathlib.Data.List.Forall2
import ValueSchema.Path

/-!
# Reading JSON pointers

A pointer is read by cutting it at its slashes and taking the escapes back: first every `~1`
becomes a slash, and then every `~0` a tilde (`Path.readPointer?`).  In that order no tilde that was
escaped can meet a digit of the field to form another escape (`Path.unescape_pointerToken`), and
an escaped segment has no slash, so the cuts are between the segments
(`Path.splitOn_pointer`).

So the texts of the segments come back (`Path.pointer_reads_back`).  What does not come back is
whether a number is a field or an index, and nothing else is lost.
-/

namespace ValueSchema

namespace Text

/-! ## Pairs of characters -/

/-- A text with each pair of the characters `a` and `b`, in this order and next to each other,
replaced by one character.  The pairs are taken from the left. -/
def replacePair (a b c : Char) : List Char → List Char
  | x :: y :: cs =>
      if x = a ∧ y = b then c :: replacePair a b c cs else x :: replacePair a b c (y :: cs)
  | cs => cs

variable {a b c x y : Char}

theorem replacePair_pair (cs : List Char) :
    replacePair a b c (a :: b :: cs) = c :: replacePair a b c cs := by
  rw [replacePair, if_pos ⟨rfl, rfl⟩]

theorem replacePair_of_first_ne (h : x ≠ a) (cs : List Char) :
    replacePair a b c (x :: cs) = x :: replacePair a b c cs := by
  cases cs with
  | nil => rfl
  | cons y cs => rw [replacePair, if_neg fun hxy => h hxy.1]

theorem replacePair_of_second_ne (h : y ≠ b) (cs : List Char) :
    replacePair a b c (x :: y :: cs) = x :: replacePair a b c (y :: cs) := by
  rw [replacePair, if_neg fun hxy => h hxy.2]

end Text

/-- Segments of one text: one segment, or a number as a field and as an index. -/
inductive Segment.SameText : Segment → Segment → Prop where
  | refl (s : Segment) : SameText s s
  | number (n : Nat) : SameText (.field (toString n)) (.index n)
  | numeral (n : Nat) : SameText (.index n) (.field (toString n))

namespace Path

open Text (replacePair replacePair_pair replacePair_of_first_ne replacePair_of_second_ne)

/-! ## Reading -/

/-- A character of a field in a part of a pointer whose slashes were taken back. -/
def escapeTilde (c : Char) : List Char := if c = '~' then ['~', '0'] else [c]

/-- A part of a pointer without its escapes. -/
def unescape (cs : List Char) : List Char :=
  replacePair '~' '0' '~' (replacePair '~' '1' '/' cs)

/-- The parts of a pointer, without their escapes.  There are none in the empty text, and what
begins with anything but a slash is no pointer. -/
def readPointer? (pointer : String) : Option (List String) :=
  match pointer.toList with
  | [] => some []
  | '/' :: cs => some ((cs.splitOn '/').map fun part => String.ofList (unescape part))
  | _ => none

/-! ## Escapes -/

/-- The first step back leaves the escapes of tildes: a zero comes after each of them. -/
theorem replacePair_slash (cs : List Char) :
    replacePair '~' '1' '/' (cs.flatMap escapeChar) = cs.flatMap escapeTilde := by
  induction cs with
  | nil => rfl
  | cons d cs ih =>
      rw [List.flatMap_cons, List.flatMap_cons, escapeChar, escapeTilde]
      by_cases htilde : d = '~'
      · rw [if_pos htilde, if_pos htilde]
        show replacePair '~' '1' '/' ('~' :: '0' :: cs.flatMap escapeChar) = _
        rw [replacePair_of_second_ne (by decide), replacePair_of_first_ne (by decide), ih]
        rfl
      · rw [if_neg htilde, if_neg htilde]
        by_cases hslash : d = '/'
        · rw [if_pos hslash, hslash]
          show replacePair '~' '1' '/' ('~' :: '1' :: cs.flatMap escapeChar) = _
          rw [replacePair_pair, ih]
          rfl
        · rw [if_neg hslash]
          show replacePair '~' '1' '/' (d :: cs.flatMap escapeChar) = _
          rw [replacePair_of_first_ne htilde, ih]
          rfl

/-- The second step back leaves the field. -/
theorem replacePair_tilde (cs : List Char) :
    replacePair '~' '0' '~' (cs.flatMap escapeTilde) = cs := by
  induction cs with
  | nil => rfl
  | cons d cs ih =>
      rw [List.flatMap_cons, escapeTilde]
      by_cases htilde : d = '~'
      · rw [if_pos htilde, htilde]
        show replacePair '~' '0' '~' ('~' :: '0' :: cs.flatMap escapeTilde) = _
        rw [replacePair_pair, ih]
      · rw [if_neg htilde]
        show replacePair '~' '0' '~' (d :: cs.flatMap escapeTilde) = _
        rw [replacePair_of_first_ne htilde, ih]

theorem unescape_escape (cs : List Char) : unescape (cs.flatMap escapeChar) = cs := by
  rw [unescape, replacePair_slash, replacePair_tilde]

theorem slash_not_mem_escape (cs : List Char) : '/' ∉ cs.flatMap escapeChar := by
  intro h
  obtain ⟨c, -, hc⟩ := List.mem_flatMap.mp h
  unfold escapeChar at hc
  split at hc
  next => simp at hc
  next =>
      split at hc
      next => simp at hc
      next hslash => exact hslash (List.mem_singleton.mp hc).symm

/-! ## Segments -/

/-- An index is written as the field of its digits. -/
theorem pointerToken_index (n : Nat) :
    pointerToken (.index n) = pointerToken (.field (toString n)) := by
  have hdigits : (toString n).toList.flatMap escapeChar =
      (toString n).toList.flatMap fun c => [c] := by
    refine List.flatMap_congr fun c hc => ?_
    have hdigit : c.isDigit = true := by
      rw [Nat.toString_eq_repr, Nat.toList_repr] at hc
      exact Nat.isDigit_of_mem_toDigits (by decide) (by decide) hc
    have htilde : c ≠ '~' := fun h => absurd (h ▸ hdigit) (by decide)
    have hslash : c ≠ '/' := fun h => absurd (h ▸ hdigit) (by decide)
    rw [escapeChar, if_neg htilde, if_neg hslash]
  rw [pointerToken, pointerToken, hdigits, List.flatMap_singleton']

/-- A segment is written as the field of its text. -/
theorem pointerToken_eq (s : Segment) : pointerToken s = s.text.toList.flatMap escapeChar := by
  cases s with
  | field name => rfl
  | index n => exact pointerToken_index n

theorem unescape_pointerToken (s : Segment) : unescape (pointerToken s) = s.text.toList := by
  rw [pointerToken_eq, unescape_escape]

/-- The digits of a number are those of no other one. -/
theorem toString_injective {m n : Nat} (h : toString m = toString n) : m = n := by
  have hdigits := congrArg String.toList h
  rw [Nat.toString_eq_repr, Nat.toString_eq_repr, Nat.toList_repr, Nat.toList_repr] at hdigits
  rw [← @Nat.ofDigitChars_ten_toDigits m, hdigits, Nat.ofDigitChars_ten_toDigits]

theorem text_eq_iff_sameText {s t : Segment} : s.text = t.text ↔ s.SameText t := by
  constructor
  · intro h
    cases s with
    | field name =>
        cases t with
        | field name' => exact congrArg Segment.field h ▸ .refl _
        | index n => exact congrArg Segment.field h ▸ .number n
    | index n =>
        cases t with
        | field name => exact congrArg Segment.field h ▸ .numeral n
        | index m => exact congrArg Segment.index (toString_injective h) ▸ .refl _
  · intro h
    cases h <;> rfl

/-! ## Pointers -/

theorem toList_pointer (s : Segment) (ss : List Segment) :
    (pointer ⟨s :: ss⟩).toList = '/' :: ['/'].intercalate ((s :: ss).map pointerToken) := by
  rw [pointer, String.toList_ofList]
  induction ss generalizing s with
  | nil => simp
  | cons t ss ih => simpa using ih t

/-- A pointer is cut between the segments. -/
theorem splitOn_pointer (s : Segment) (ss : List Segment) :
    (['/'].intercalate ((s :: ss).map pointerToken)).splitOn '/' = (s :: ss).map pointerToken := by
  refine List.splitOn_intercalate '/' (fun token htoken => ?_) (List.cons_ne_nil _ _)
  obtain ⟨t, -, rfl⟩ := List.mem_map.mp htoken
  rw [pointerToken_eq]
  exact slash_not_mem_escape _

theorem readPointer?_pointer (p : Path) :
    readPointer? p.pointer = some (p.segments.map Segment.text) := by
  obtain ⟨segments⟩ := p
  cases segments with
  | nil => rfl
  | cons s ss =>
      rw [readPointer?, toList_pointer]
      show some _ = _
      rw [splitOn_pointer, List.map_map]
      refine congrArg some (List.map_congr_left fun t _ => ?_)
      rw [Function.comp_apply, unescape_pointerToken, String.ofList_toList]

/-- Segments of the same texts are written in the same way. -/
theorem pointer_congr {p q : Path} (h : p.segments.map Segment.text = q.segments.map Segment.text) :
    p.pointer = q.pointer := by
  have hpointer (r : Path) : r.pointer = String.ofList
      ((r.segments.map Segment.text).flatMap fun text => '/' :: text.toList.flatMap escapeChar) := by
    rw [List.flatMap_map]
    exact congrArg String.ofList (List.flatMap_congr fun s _ => congrArg _ (pointerToken_eq s))
  rw [hpointer, hpointer, h]

/-- Reading the pointer of a path gives the texts of its segments.  Two paths have one pointer just
when they have equally many segments that differ at most in a number, which is a field in one path
and an index in the other. -/
theorem pointer_reads_back (p : Path) :
    readPointer? p.pointer = some (p.segments.map Segment.text) ∧
      ∀ q : Path, p.pointer = q.pointer ↔
        List.Forall₂ Segment.SameText p.segments q.segments := by
  refine ⟨readPointer?_pointer p, fun q => ?_⟩
  have htexts : p.pointer = q.pointer ↔
      p.segments.map Segment.text = q.segments.map Segment.text := by
    refine ⟨fun h => ?_, pointer_congr⟩
    have hread := congrArg readPointer? h
    rwa [readPointer?_pointer, readPointer?_pointer, Option.some_inj] at hread
  rw [htexts, ← List.forall₂_eq_eq_eq, List.forall₂_map_left_iff, List.forall₂_map_right_iff]
  simp only [text_eq_iff_sameText]

example : readPointer? "/~01//~1~0" = some ["~1", "", "/~"] := by decide +kernel

end Path

end ValueSchema
