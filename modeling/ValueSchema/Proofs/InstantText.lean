import ValueSchema.Calendar.Reader
import ValueSchema.Proofs.CivilDays
import ValueSchema.Proofs.Digits

/-!
# Instants in milliseconds and as text

An instant of a supported day survives being counted in milliseconds, and being written and read
again, but for what is below a millisecond (`Instant.ofMillis?_toMillis`, `Instant.ofText?_toText`).
A timestamp has four digits for its year, so it is read again for the years from 0 to 9999 only; the
text of a plain day is read again for every supported day (`Instant.ofText?_dateText`).

A number padded with zeros is read back by `Instant.readNumber` (`Instant.readNumber_padded`), and
both forms of text are read part by part.
-/

namespace ValueSchema

namespace Instant

/-- The day of an instant. -/
def day (t : Instant) : Int := Int.fdiv t.seconds 86400

/-- The day of an instant is supported. -/
def IsSupported (t : Instant) : Prop := CivilDate.firstDay ≤ t.day ∧ t.day ≤ CivilDate.lastDay

/-- The same instant without what is below a millisecond. -/
def cut (t : Instant) : Instant := { t with nanos := t.nanos / 1000000 * 1000000 }

/-! ## Milliseconds -/

/-- A number of milliseconds is that of the instant that it stands for. -/
theorem toMillis_ofMillis? {ms : Int} {t : Instant} (h : ofMillis? ms = some t) :
    t.toMillis = ms ∧ t.IsSupported ∧ t.nanos < 1000000000 := by
  unfold ofMillis? at h
  dsimp only at h
  split at h
  next hday =>
      obtain rfl := Option.some.inj h
      refine ⟨?_, hday, ?_⟩
      · rw [Int.fmod_eq_emod_of_nonneg _ (by decide), Int.fdiv_eq_ediv_of_nonneg _ (by decide),
          toMillis]
        dsimp only
        omega
      · rw [Int.fmod_eq_emod_of_nonneg _ (by decide)]
        dsimp only
        omega
  next => cases h

/-- An instant of a supported day, not in a leap second, has a number of milliseconds that stands
for it. -/
theorem ofMillis?_toMillis {t : Instant} (hday : t.IsSupported) (hnanos : t.nanos < 1000000000) :
    ofMillis? t.toMillis = some t.cut := by
  have hseconds : Int.fdiv t.toMillis 1000 = t.seconds := by
    rw [Int.fdiv_eq_ediv_of_nonneg _ (by decide), toMillis]
    omega
  have hmillis : Int.fmod t.toMillis 1000 = (t.nanos / 1000000 : Nat) := by
    rw [Int.fmod_eq_emod_of_nonneg _ (by decide), toMillis]
    omega
  unfold ofMillis?
  dsimp only
  rw [hseconds, hmillis]
  exact if_pos hday

/-! ## Numbers -/

theorem padded_toList (width n : Nat) : (padded width n).toList =
    List.replicate (width - (Nat.toDigits 10 n).length) '0' ++ Nat.toDigits 10 n := by
  simp [padded]

theorem allDigits_padded (width n : Nat) : AllDigits (padded width n).toList := by
  rw [padded_toList]
  exact (AllDigits.zeros _).append (AllDigits.toDigits n)

theorem length_padded {width n : Nat} (h : n < 10 ^ width) (hwidth : 0 < width) :
    (padded width n).toList.length = width := by
  have hlength : (Nat.toDigits 10 n).length ≤ width :=
    (Nat.length_toDigits_le_iff (by decide) hwidth).mpr h
  rw [padded_toList, List.length_append, List.length_replicate]
  omega

theorem digitsToNat_padded (width n : Nat) : digitsToNat (padded width n).toList = n := by
  rw [padded_toList, digitsToNat_append, digitsToNat_zeros, digitsToNat_toDigits, Nat.zero_mul,
    Nat.zero_add]

/-! ## Readers -/

variable {width n : Nat} {rest : List Char}

/-- As many digits are read as there are, and at most as many as may be. -/
theorem readNumber_digits {least most : Nat} {ds : List Char} (hds : AllDigits ds)
    (hleast : least ≤ ds.length) (hmost : ds.length ≤ most)
    (hrest : ds.length = most ∨ ∀ c, rest.head? = some c → c.isDigit = false) :
    readNumber least most (ds ++ rest) = some (digitsToNat ds, rest) := by
  have hnone : (rest.take (most - ds.length)).takeWhile Char.isDigit = [] := by
    rcases hrest with hall | hrest
    · rw [hall, Nat.sub_self, List.take_zero, List.takeWhile_nil]
    · cases rest with
      | nil => rw [List.take_nil, List.takeWhile_nil]
      | cons c rest =>
          cases most - ds.length with
          | zero => rfl
          | succ k => rw [List.take_succ_cons, List.takeWhile_cons, hrest c rfl]; rfl
  have htake : ((ds ++ rest).take most).takeWhile Char.isDigit = ds := by
    rw [List.take_append, List.take_of_length_le hmost, List.takeWhile_append_of_pos hds, hnone,
      List.append_nil]
  unfold readNumber
  rw [htake]
  dsimp only
  rw [if_pos hleast, List.drop_left]

/-- What a number is padded to is read back. -/
theorem readNumber_padded {least : Nat} (h : n < 10 ^ width) (hwidth : 0 < width)
    (hleast : least ≤ width) :
    readNumber least width ((padded width n).toList ++ rest) = some (n, rest) := by
  have hlength := length_padded h hwidth
  rw [readNumber_digits (allDigits_padded _ _) (hleast.trans hlength.ge) hlength.le
    (.inl hlength), digitsToNat_padded]

theorem readNumber_two (h : n < 100) :
    readNumber 2 2 ((padded 2 n).toList ++ rest) = some (n, rest) :=
  readNumber_padded h (by decide) le_rfl

theorem readChar_cons {test : Char → Bool} {c : Char} (h : test c = true) :
    readChar test (c :: rest) = some ((), rest) :=
  if_pos h

/-- A reader that reads something goes on with the rest. -/
theorem bind_front {α β : Type} {x : Option (α × List Char)} {a : α}
    {f : α × List Char → Option β} (h : x = some (a, rest)) : (x >>= f) = f (a, rest) := by
  rw [h]
  rfl

/-- A fraction of three digits is one of milliseconds. -/
theorem readFraction_padded (h : n < 1000) :
    readFraction ('.' :: ((padded 3 n).toList ++ 'Z' :: rest)) =
      some (n * 1000000, 'Z' :: rest) := by
  have hlength : (padded 3 n).toList.length = 3 := length_padded h (by decide)
  obtain ⟨htake, hdrop⟩ := @AllDigits.takeWhile _ ('Z' :: rest) (allDigits_padded 3 n) (by simp)
  have hne : (padded 3 n).toList ≠ [] := by
    intro hnil
    rw [hnil] at hlength
    cases hlength
  show (if List.takeWhile Char.isDigit _ = [] then none else
    some (digitsToNat ((List.takeWhile Char.isDigit _).take 9) *
      Nat.pow 10 (9 - ((List.takeWhile Char.isDigit _).take 9).length),
    List.dropWhile Char.isDigit _)) = _
  rw [htake, hdrop, if_neg hne, List.take_of_length_le (by omega), digitsToNat_padded, hlength]

/-! ## Text -/

/-- The instant has nanoseconds of its second: up to two billion in the last second of a minute,
where those from one billion on are the leap second, and up to one billion in the others. -/
def HasNanos (t : Instant) : Prop :=
  t.nanos < 1000000000 ∨ t.nanos < 2000000000 ∧ t.seconds % 60 = 59

/-- The parts of the text of an instant: the date, the time and the milliseconds. -/
structure Written (t : Instant) (date : CivilDate) (hour minute second millis : Nat) : Prop where
  date_eq : date = CivilDate.ofDays t.day
  hour_lt : hour < 24
  minute_lt : minute < 60
  second_le : second ≤ 60
  millis_lt : millis < 1000
  seconds_eq : t.seconds = date.toDays * 86400 +
    (hour * 3600 + minute * 60 + if second = 60 then 59 else second)
  nanos_eq : t.cut.nanos = millis * 1000000 + if second = 60 then 1000000000 else 0
  text_eq : t.toText = yearText date.year ++ "-" ++ padded 2 date.month ++ "-" ++
    padded 2 date.day ++ "T" ++ padded 2 hour ++ ":" ++ padded 2 minute ++ ":" ++
      padded 2 second ++ "." ++ padded 3 millis ++ "Z"

theorem exists_written {t : Instant} (h : t.HasNanos) :
    ∃ date hour minute second millis, t.Written date hour minute second millis := by
  have hday : t.day = t.seconds / 86400 := Int.fdiv_eq_ediv_of_nonneg _ (by decide)
  have hrest : Int.fmod t.seconds 86400 = t.seconds % 86400 :=
    Int.fmod_eq_emod_of_nonneg _ (by decide)
  have hdays := (CivilDate.toDays_ofDays t.day).1
  obtain ⟨s, hs⟩ : ∃ s : Nat, (s : Int) = t.seconds % 86400 :=
    ⟨(t.seconds % 86400).toNat, by omega⟩
  unfold HasNanos at h
  refine ⟨_, s / 3600, s / 60 % 60, s % 60 + (if 1000000000 ≤ t.nanos then 1 else 0),
    (if 1000000000 ≤ t.nanos then t.nanos - 1000000000 else t.nanos) / 1000000, rfl, ?_, ?_, ?_, ?_,
    ?_, ?_, ?_⟩
  · omega
  · omega
  · split <;> omega
  · split <;> omega
  · rw [hdays, hday]
    split <;> split <;> omega
  · unfold cut
    dsimp only
    split <;> split <;> omega
  · unfold toText
    rw [hrest, ← hs, Int.toNat_natCast]
    rfl

/-- What is written of an instant is read as the instant, without what is below a millisecond. -/
theorem ofText?_toText {t : Instant} (hnanos : t.HasNanos)
    (hyear : 0 ≤ (CivilDate.ofDays t.day).year ∧ (CivilDate.ofDays t.day).year ≤ 9999) :
    ofText? t.toText = some t.cut := by
  obtain ⟨hdays, hmonth, hday⟩ := CivilDate.toDays_ofDays t.day
  obtain ⟨date, hour, minute, second, millis, h⟩ := exists_written hnanos
  rw [← h.date_eq] at hdays hmonth hday hyear
  obtain ⟨year, hnatural⟩ : ∃ year : Nat, (year : Int) = date.year :=
    ⟨date.year.toNat, by omega⟩
  have hvalid : date.isValid = true := by
    have hfirst : CivilDate.firstYear ≤ date.year := by
      unfold CivilDate.firstYear
      omega
    have hlast : date.year ≤ CivilDate.lastYear := by
      unfold CivilDate.lastYear
      omega
    simp [CivilDate.isValid, hfirst, hlast, hmonth, hday]
  have hdaysIn := CivilDate.daysIn_le date.year date.month
  have htext : t.toText.toList = (padded 4 year).toList ++ '-' :: ((padded 2 date.month).toList ++
      '-' :: ((padded 2 date.day).toList ++ 'T' :: ((padded 2 hour).toList ++
        ':' :: ((padded 2 minute).toList ++ ':' :: ((padded 2 second).toList ++
          '.' :: ((padded 3 millis).toList ++ ['Z'])))))) := by
    rw [h.text_eq, yearText, if_pos hyear, ← hnatural]
    simp
  have hreads : ofTimestamp? t.toText.toList = some t.cut := by
    have hhour := h.hour_lt
    have hminute := h.minute_lt
    have hsecond := h.second_le
    have hmillis := @readFraction_padded millis [] h.millis_lt
    rw [htext, ofTimestamp?]
    refine (bind_front (readNumber_padded (by omega) (by decide) le_rfl)).trans ?_
    refine (bind_front (readChar_cons (by decide))).trans ?_
    refine (bind_front (readNumber_two (by omega))).trans ?_
    refine (bind_front (readChar_cons (by decide))).trans ?_
    refine (bind_front (readNumber_two (by omega))).trans ?_
    refine (bind_front (readChar_cons (by decide))).trans ?_
    refine (bind_front (readNumber_two (by omega))).trans ?_
    refine (bind_front (readChar_cons (by decide))).trans ?_
    refine (bind_front (readNumber_two (by omega))).trans ?_
    refine (bind_front (readChar_cons (by decide))).trans ?_
    refine (bind_front (readNumber_two (by omega))).trans ?_
    refine (bind_front hmillis).trans ?_
    refine (bind_front rfl).trans ?_
    have hdate : (⟨year, date.month, date.day⟩ : CivilDate) = date := by rw [hnatural]
    dsimp only
    rw [hdate, if_pos ⟨rfl, hvalid, hhour, hminute, hsecond⟩]
    show some (⟨_, _⟩ : Instant) = some ⟨t.seconds, t.cut.nanos⟩
    rw [h.seconds_eq, h.nanos_eq, Int.sub_zero]
  rw [ofText?, hreads]
  rfl

/-- The last instants of a day that ended with a leap second. -/
example : toText ⟨1483228799, 1500000000⟩ = "2016-12-31T23:59:60.500Z" ∧
    ofText? "2016-12-31T23:59:60.500Z" = some ⟨1483228799, 1500000000⟩ := by decide +kernel

/-! ## Plain days -/

/-- The text of a date. -/
def dateText (d : CivilDate) : String :=
  yearText d.year ++ "-" ++ padded 2 d.month ++ "-" ++ padded 2 d.day

theorem trimStart_of_isDigit {c : Char} {cs : List Char} (h : c.isDigit = true) :
    Text.trimStart (c :: cs) = c :: cs := by
  rw [Text.trimStart, List.dropWhile_cons_of_neg (by simp [Text.isBlank_of_isDigit h])]

theorem trimStart_padded (width n : Nat) (rest : List Char) :
    Text.trimStart ((padded width n).toList ++ rest) = (padded width n).toList ++ rest := by
  have hne : (padded width n).toList ≠ [] := by
    rw [padded_toList]
    exact List.append_ne_nil_of_right_ne_nil _ Nat.toDigits_ne_nil
  obtain ⟨c, cs, hcs⟩ := List.exists_cons_of_ne_nil hne
  have hdigit : c.isDigit = true := allDigits_padded _ _ _ (hcs ▸ List.mem_cons_self ..)
  rw [hcs]
  exact trimStart_of_isDigit hdigit

/-- A number of four digits or more is read back when no digit follows. -/
theorem readNumber_padded_dash (n : Nat) {most : Nat} (hmost : (padded 4 n).toList.length ≤ most) :
    readNumber 1 most ((padded 4 n).toList ++ '-' :: rest) = some (n, '-' :: rest) := by
  have hleast : 1 ≤ (padded 4 n).toList.length := by
    rw [padded_toList, List.length_append]
    have hpos : 0 < (Nat.toDigits 10 n).length := List.length_pos_iff.mpr Nat.toDigits_ne_nil
    omega
  rw [readNumber_digits (allDigits_padded _ _) hleast hmost, digitsToNat_padded]
  refine .inr fun c hc => ?_
  obtain rfl := Option.some.inj hc
  rfl

theorem readYear_of_isDigit {c : Char} {cs : List Char} (h : c.isDigit = true) :
    readYear (c :: cs) = (readNumber 1 4 (c :: cs)).map fun p => ((p.1 : Int), p.2) := by
  unfold readYear
  split
  next heq =>
      obtain ⟨rfl, -⟩ := List.cons.inj heq
      cases h
  next heq =>
      obtain ⟨rfl, -⟩ := List.cons.inj heq
      cases h
  next => rfl

/-- The text of a year that has not four digits. -/
theorem yearText_toList {year : Int} (h : ¬(0 ≤ year ∧ year ≤ 9999)) :
    (yearText year).toList =
      (if year < 0 then '-' else '+') :: (padded 4 year.natAbs).toList := by
  rw [yearText, if_neg h]
  split
  next => simp
  next => simp

/-- A year is read back before a dash. -/
theorem readYear_yearText (year : Int) :
    readYear ((yearText year).toList ++ '-' :: rest) = some (year, '-' :: rest) := by
  by_cases hyear : 0 ≤ year ∧ year ≤ 9999
  · have hlength : (padded 4 year.natAbs).toList.length = 4 :=
      length_padded (by omega) (by decide)
    obtain ⟨c, cs, hcs⟩ := List.exists_cons_of_length_eq_add_one hlength
    have hdigit : c.isDigit = true := allDigits_padded _ _ _ (hcs ▸ List.mem_cons_self ..)
    have hread := @readNumber_padded_dash rest year.natAbs 4 hlength.le
    rw [hcs, List.cons_append] at hread
    rw [yearText, if_pos hyear, hcs, List.cons_append, readYear_of_isDigit hdigit, hread,
      Option.map_some, Int.natAbs_of_nonneg hyear.1]
  · have hread (most : Nat) (hmost : (padded 4 year.natAbs).toList.length ≤ most) :=
      @readNumber_padded_dash rest year.natAbs most hmost
    rw [yearText_toList hyear, List.cons_append]
    split
    next hneg =>
        rw [readYear, hread _ (by simp), Option.map_some]
        congr
        omega
    next hpos =>
        rw [readYear, hread _ (by simp), Option.map_some]
        congr
        omega

theorem trimStart_yearText (year : Int) :
    Text.trimStart ((yearText year).toList ++ rest) = (yearText year).toList ++ rest := by
  by_cases hyear : 0 ≤ year ∧ year ≤ 9999
  · rw [yearText, if_pos hyear]
    exact trimStart_padded ..
  · rw [yearText_toList hyear, List.cons_append]
    split
    next => rfl
    next => rfl

/-- A year that has not four digits starts no timestamp. -/
theorem readNumber_yearText {year : Int} (h : ¬(0 ≤ year ∧ year ≤ 9999)) :
    readNumber 4 4 ((yearText year).toList ++ rest) = none := by
  rw [yearText_toList h, List.cons_append]
  split
  next => rfl
  next => rfl

/-- The text of a date is too short for a timestamp. -/
theorem ofTimestamp?_dateText {d : CivilDate} (hmonth : d.month < 100) (hday : d.day < 100) :
    ofTimestamp? (dateText d).toList = none := by
  have htext : (dateText d).toList = (yearText d.year).toList ++ '-' ::
      ((padded 2 d.month).toList ++ '-' :: ((padded 2 d.day).toList ++ [])) := by
    simp [dateText]
  rw [htext, ofTimestamp?]
  by_cases hyear : 0 ≤ d.year ∧ d.year ≤ 9999
  · rw [yearText, if_pos hyear]
    refine (bind_front (readNumber_padded (by omega) (by decide) le_rfl)).trans ?_
    refine (bind_front (readChar_cons (by decide))).trans ?_
    refine (bind_front (readNumber_two hmonth)).trans ?_
    refine (bind_front (readChar_cons (by decide))).trans ?_
    exact bind_front (readNumber_two hday)
  · rw [readNumber_yearText hyear]
    rfl

/-- The text of a supported date is read as the start of its day. -/
theorem ofText?_dateText {d : CivilDate} (h : d.isValid = true) :
    ofText? (dateText d) = some ⟨d.toDays * 86400, 0⟩ := by
  have hvalid := h
  simp only [CivilDate.isValid, Bool.and_eq_true, decide_eq_true_eq] at h
  obtain ⟨⟨⟨-, hmonth⟩, -⟩, hday⟩ := h
  have hdaysIn := CivilDate.daysIn_le d.year d.month
  have htext : (dateText d).toList = (yearText d.year).toList ++ '-' ::
      ((padded 2 d.month).toList ++ '-' :: ((padded 2 d.day).toList ++ [])) := by
    simp [dateText]
  have hplain : ofPlainDay? (dateText d).toList = some ⟨d.toDays * 86400, 0⟩ := by
    rw [htext, ofPlainDay?, trimStart_yearText]
    refine (bind_front (readYear_yearText _)).trans ?_
    refine (bind_front (readChar_cons (by decide))).trans ?_
    dsimp only
    rw [trimStart_padded]
    refine (bind_front (readNumber_padded (by omega) (by decide) (by decide))).trans ?_
    refine (bind_front (readChar_cons (by decide))).trans ?_
    dsimp only
    rw [trimStart_padded]
    refine (bind_front (readNumber_padded (by omega) (by decide) (by decide))).trans ?_
    exact if_pos ⟨rfl, hvalid⟩
  rw [ofText?, ofTimestamp?_dateText (by omega) (by omega), hplain]
  rfl

example : ofText? "-0001-12-31" = some ⟨-719529 * 86400, 0⟩ := by decide +kernel

end Instant

end ValueSchema
