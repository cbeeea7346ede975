import Mathlib.Tactic.IntervalCases
import ValueSchema.Calendar.CivilDate

/-!
# Days and their dates

Every day has one date, and every date of the calendar is the date of one day
(`CivilDate.ofDays_toDays`, `CivilDate.toDays_ofDays`).  A date is supported exactly when its day
lies between the first and the last supported one (`CivilDate.isValid_ofDays`).

Both ways lead over the place of a day in its era: the year, from 0 to 399, and the day of this
year, where years begin in March.  The two are found from the day of the era (`yearOf_eq`,
`exists_year`), and the month and its day are found from the day of the year (`monthOf_eq`).
-/

namespace ValueSchema

namespace CivilDate

/-- The numbers name a day of the calendar. -/
structure Exists (d : CivilDate) : Prop where
  month : 1 ≤ d.month ∧ d.month ≤ 12
  day : 1 ≤ d.day ∧ d.day ≤ daysIn d.year d.month

theorem isLeap_iff {y : Int} : isLeap y = true ↔ y % 4 = 0 ∧ (y % 100 ≠ 0 ∨ y % 400 = 0) := by
  simp [isLeap]

/-- Leap years return in every era. -/
theorem isLeap_add (era y : Int) : isLeap (400 * era + y) = isLeap y := by
  rw [Bool.eq_iff_iff, isLeap_iff, isLeap_iff]
  omega

/-! ## Years of an era -/

/-- The number of days of an era before a year of it. -/
def daysBefore (y : Int) : Int := 365 * y + y / 4 - y / 100

/-- The days of a year of an era.  They begin in March, so the leap day comes last. -/
def IsDayOf (y doy : Int) : Prop := 0 ≤ doy ∧ (doy ≤ 364 ∨ doy = 365 ∧ isLeap (y + 1) = true)

/-- The year of an era in which a day of it lies. -/
def yearOf (doe : Int) : Int := (doe - doe / 1460 + doe / 36524 - doe / 146096) / 365

theorem IsDayOf.bounds {y doy : Int} (hy : 0 ≤ y ∧ y < 400) (hd : IsDayOf y doy) :
    0 ≤ daysBefore y + doy ∧ daysBefore y + doy < 146097 := by
  obtain ⟨hd, h⟩ := hd
  rw [isLeap_iff] at h
  unfold daysBefore
  omega

/-- The year of a day is found. -/
theorem yearOf_eq {y doy : Int} (hy : 0 ≤ y ∧ y < 400) (hd : IsDayOf y doy) :
    yearOf (daysBefore y + doy) = y := by
  obtain ⟨hd, h⟩ := hd
  rw [isLeap_iff] at h
  -- A year is the `r`-th of four, which are the `b`-th of a century.
  obtain ⟨c, b, r, hc, hb, hr, hyear⟩ : ∃ c b r : Int, (0 ≤ c ∧ c ≤ 3) ∧ (0 ≤ b ∧ b ≤ 24) ∧
      (0 ≤ r ∧ r ≤ 3) ∧ y = 100 * c + 4 * b + r :=
    ⟨y / 100, y % 100 / 4, y % 4, by omega⟩
  have hdoe : daysBefore y + doy = 36524 * c + 1461 * b + 365 * r + doy := by
    unfold daysBefore
    omega
  have hleap : doy ≤ 364 ∨ doy = 365 ∧ r = 3 ∧ (b ≠ 24 ∨ c = 3) := by omega
  generalize daysBefore y + doy = doe at hdoe
  rw [hyear]
  unfold yearOf
  by_cases hlast : doe = 146096
  · omega
  · have hera : doe / 146096 = 0 := by omega
    have hcentury : doe / 36524 = c := by omega
    omega

/-- Every day of an era lies in a year. -/
theorem exists_year {doe : Int} (h : 0 ≤ doe ∧ doe < 146097) :
    ∃ y doy, (0 ≤ y ∧ y < 400) ∧ IsDayOf y doy ∧ doe = daysBefore y + doy := by
  -- The last day of four years and that of an era are left over by the divisions.
  obtain ⟨c, hc, hcentury⟩ : ∃ c, (0 ≤ c ∧ c ≤ 3) ∧ 0 ≤ doe - 36524 * c ∧
      (doe - 36524 * c < 36524 ∨ c = 3 ∧ doe - 36524 * c = 36524) :=
    ⟨min (doe / 36524) 3, by omega⟩
  obtain ⟨b, hb, hfour⟩ : ∃ b, (0 ≤ b ∧ b ≤ 24) ∧ 0 ≤ doe - 36524 * c - 1461 * b ∧
      doe - 36524 * c - 1461 * b < 1461 :=
    ⟨(doe - 36524 * c) / 1461, by omega⟩
  obtain ⟨r, hr, hyear⟩ : ∃ r, (0 ≤ r ∧ r ≤ 3) ∧ 0 ≤ doe - 36524 * c - 1461 * b - 365 * r ∧
      (doe - 36524 * c - 1461 * b - 365 * r < 365 ∨
        r = 3 ∧ doe - 36524 * c - 1461 * b - 365 * r = 365) :=
    ⟨min ((doe - 36524 * c - 1461 * b) / 365) 3, by omega⟩
  have hdiv : (100 * c + 4 * b + r) / 4 = 25 * c + b ∧ (100 * c + 4 * b + r) / 100 = c := by omega
  refine ⟨100 * c + 4 * b + r, doe - 36524 * c - 1461 * b - 365 * r, by omega, ⟨by omega, ?_⟩, ?_⟩
  · rw [isLeap_iff]
    omega
  · rw [daysBefore, hdiv.1, hdiv.2]
    omega

/-! ## Months of a year -/

/-- The first day of a month, from March as the month 0. -/
def monthStart (m : Int) : Int := (153 * m + 2) / 5

/-- The month of a day. -/
def monthOf (doy : Int) : Int := (5 * doy + 2) / 153

theorem monthOf_eq {m doy : Int} (hlo : monthStart m ≤ doy) (hhi : doy < monthStart (m + 1)) :
    monthOf doy = m := by
  unfold monthStart at hlo hhi
  unfold monthOf
  omega

theorem monthOf_bounds {y doy : Int} (hd : IsDayOf y doy) :
    (0 ≤ monthOf doy ∧ monthOf doy ≤ 11) ∧ monthStart (monthOf doy) ≤ doy ∧
      doy < monthStart (monthOf doy + 1) := by
  obtain ⟨hd, h⟩ := hd
  unfold monthStart monthOf
  omega

theorem daysIn_le (year : Int) (month : Nat) : daysIn year month ≤ 31 := by
  unfold daysIn
  split
  next => split <;> omega
  next => split <;> omega

/-- The number of days of a month, where the year ends with its February. -/
theorem daysIn_eq (year : Int) {month : Nat} (hmonth : 1 ≤ month ∧ month ≤ 12) {m : Int}
    (hm : m = ((month : Int) + 9) % 12) :
    (m ≤ 10 ∧ (daysIn year month : Int) = monthStart (m + 1) - monthStart m) ∨
      m = 11 ∧ month = 2 ∧ (daysIn year month : Int) = if isLeap year then 29 else 28 := by
  obtain ⟨hlo, hhi⟩ := hmonth
  subst hm
  interval_cases month <;> simp [daysIn, monthStart]

/-- The days of the months are those of the year.  The month that ends a year ends in the next
one by the calendar. -/
theorem day_iff {year : Int} {month day : Nat} {y m doy : Int}
    (hmonth : 1 ≤ month ∧ month ≤ 12) (hm : m = ((month : Int) + 9) % 12)
    (hleap : m = 11 → isLeap year = isLeap (y + 1)) (hdoy : doy = monthStart m + day - 1) :
    1 ≤ day ∧ day ≤ daysIn year month ↔ IsDayOf y doy ∧ monthOf doy = m := by
  have hdays := daysIn_eq year hmonth hm
  constructor
  · rintro ⟨hlo, hhi⟩
    have hnext : doy < monthStart (m + 1) ∧ IsDayOf y doy := by
      rcases hdays with ⟨hm', hdays⟩ | ⟨rfl, -, hdays⟩
      · refine ⟨by omega, ?_, .inl ?_⟩ <;> unfold monthStart at * <;> omega
      · rw [hleap rfl] at hdays
        unfold IsDayOf monthStart
        unfold monthStart at hdoy
        split at hdays <;> simp_all <;> omega
    exact ⟨hnext.2, monthOf_eq (by omega) hnext.1⟩
  · rintro ⟨hd, rfl⟩
    obtain ⟨-, hlo, hhi⟩ := monthOf_bounds hd
    refine ⟨by omega, ?_⟩
    rcases hdays with ⟨-, hdays⟩ | ⟨hm', -, hdays⟩
    · omega
    · rw [hleap hm'] at hdays
      obtain ⟨-, h⟩ := hd
      rw [hm'] at hdoy
      unfold monthStart at hdoy
      split at hdays <;> simp_all <;> omega

/-! ## There and back -/

/-- The number of a day. -/
theorem toDays_eq {year : Int} {month day : Nat} {era y m : Int} (hy : 0 ≤ y ∧ y < 400)
    (hyear : year = 400 * era + y + if m < 10 then 0 else 1)
    (hmonth : 1 ≤ month ∧ month ≤ 12) (hm : m = ((month : Int) + 9) % 12) :
    toDays ⟨year, month, day⟩ =
      era * 146097 + (daysBefore y + (monthStart m + day - 1)) - 719468 := by
  have hmarch : (if month ≤ 2 then year - 1 else year) = 400 * era + y := by
    split at hyear <;> split <;> omega
  have hera : Int.fdiv (400 * era + y) 400 = era := by
    rw [Int.fdiv_eq_ediv_of_nonneg _ (by decide)]
    omega
  have hrest : Int.fmod (400 * era + y) 400 = y := by
    rw [Int.fmod_eq_emod_of_nonneg _ (by decide)]
    omega
  unfold toDays daysBefore monthStart
  dsimp only
  rw [hmarch, hera, hrest, ← hm]
  omega

/-- The date of a day. -/
theorem ofDays_eq {era y doy : Int} (hy : 0 ≤ y ∧ y < 400) (hd : IsDayOf y doy) :
    ofDays (era * 146097 + (daysBefore y + doy) - 719468) =
      ⟨400 * era + y + if monthOf doy < 10 then 0 else 1,
        (if monthOf doy < 10 then monthOf doy + 3 else monthOf doy - 9).toNat,
        (doy - monthStart (monthOf doy) + 1).toNat⟩ := by
  have hbounds := hd.bounds hy
  have hera : Int.fdiv (era * 146097 + (daysBefore y + doy)) 146097 = era := by
    rw [Int.fdiv_eq_ediv_of_nonneg _ (by decide)]
    omega
  have hrest : Int.fmod (era * 146097 + (daysBefore y + doy)) 146097 = daysBefore y + doy := by
    rw [Int.fmod_eq_emod_of_nonneg _ (by decide)]
    omega
  unfold ofDays
  dsimp only
  rw [Int.sub_add_cancel, hera, hrest]
  show (let m := monthOf (daysBefore y + doy - daysBefore (yearOf (daysBefore y + doy)))
    let month := if m < 10 then m + 3 else m - 9
    (⟨if month ≤ 2 then yearOf (daysBefore y + doy) + era * 400 + 1
        else yearOf (daysBefore y + doy) + era * 400, month.toNat,
      (daysBefore y + doy - daysBefore (yearOf (daysBefore y + doy)) - monthStart m + 1).toNat⟩ :
        CivilDate)) = _
  rw [yearOf_eq hy hd, show daysBefore y + doy - daysBefore y = doy by omega]
  obtain ⟨hmonth, -, -⟩ := monthOf_bounds hd
  dsimp only
  congr 1
  split <;> split <;> omega

/-- A date is the date of its day. -/
theorem ofDays_toDays {d : CivilDate} (h : d.Exists) : ofDays d.toDays = d := by
  obtain ⟨year, month, day⟩ := d
  obtain ⟨hmonth, hday⟩ := h
  dsimp only at hmonth hday
  obtain ⟨m, hm⟩ : ∃ m, m = ((month : Int) + 9) % 12 := ⟨_, rfl⟩
  obtain ⟨era, y, hy, hyear⟩ : ∃ era y : Int, (0 ≤ y ∧ y < 400) ∧
      year = 400 * era + y + if m < 10 then 0 else 1 := by
    split
    · exact ⟨year / 400, year % 400, by omega⟩
    · exact ⟨(year - 1) / 400, (year - 1) % 400, by omega⟩
  have hleap : m = 11 → isLeap year = isLeap (y + 1) := by
    rintro rfl
    rw [hyear, if_neg (by omega), Int.add_assoc, isLeap_add]
  obtain ⟨hd, hmonthOf⟩ := (day_iff hmonth hm hleap rfl).mp hday
  rw [toDays_eq hy hyear hmonth hm, ofDays_eq hy hd, hmonthOf, hyear]
  congr 1
  · split <;> omega
  · omega

/-- A day is the day of its date, which is one of the calendar. -/
theorem toDays_ofDays (days : Int) : (ofDays days).toDays = days ∧ (ofDays days).Exists := by
  obtain ⟨era, doe, hdoe, rfl⟩ : ∃ era doe : Int, (0 ≤ doe ∧ doe < 146097) ∧
      days = era * 146097 + doe - 719468 :=
    ⟨(days + 719468) / 146097, (days + 719468) % 146097, by omega⟩
  obtain ⟨y, doy, hy, hd, rfl⟩ := exists_year hdoe
  obtain ⟨hbounds, hlo, hhi⟩ := monthOf_bounds hd
  rw [ofDays_eq hy hd]
  generalize hm : monthOf doy = m at *
  obtain ⟨month, hmonth, hnumber⟩ : ∃ month : Nat, (1 ≤ month ∧ month ≤ 12) ∧
      (month : Int) = if m < 10 then m + 3 else m - 9 :=
    ⟨(if m < 10 then m + 3 else m - 9).toNat, by split <;> omega⟩
  obtain ⟨day, hday⟩ : ∃ day : Nat, (day : Int) = doy - monthStart m + 1 :=
    ⟨(doy - monthStart m + 1).toNat, by omega⟩
  rw [← hnumber, ← hday, Int.toNat_natCast, Int.toNat_natCast]
  have hmarch : m = ((month : Int) + 9) % 12 := by
    split at hnumber <;> omega
  have hdoy : doy = monthStart m + day - 1 := by omega
  refine ⟨?_, hmonth, (day_iff hmonth hmarch ?_ hdoy).mpr ⟨hd, hm⟩⟩
  · rw [toDays_eq hy rfl hmonth hmarch]
    omega
  · rintro rfl
    rw [if_neg (by omega), Int.add_assoc, isLeap_add]

example : toDays ⟨2024, 2, 29⟩ = 19782 ∧ ofDays 19782 = ⟨2024, 2, 29⟩ := by decide

/-! ## Supported days -/

/-- The number of days before a year, with one division for each rule about leap years. -/
def daysBeforeYear (y : Int) : Int := 365 * y + y / 4 - y / 100 + y / 400

theorem daysBeforeYear_lt {y z : Int} (h : y < z) : daysBeforeYear y + 365 ≤ daysBeforeYear z := by
  have hfour (x : Int) : x / 4 = 25 * (x / 100) + x % 100 / 4 := by omega
  have hy := hfour y
  have hz := hfour z
  unfold daysBeforeYear
  omega

theorem toDays_eq_daysBeforeYear {d : CivilDate} (hmonth : 1 ≤ d.month ∧ d.month ≤ 12)
    {y m : Int} (hyear : d.year = y + if m < 10 then 0 else 1)
    (hm : m = ((d.month : Int) + 9) % 12) :
    d.toDays = daysBeforeYear y + (monthStart m + d.day - 1) - 719468 := by
  have h : toDays ⟨d.year, d.month, d.day⟩ = y / 400 * 146097 +
      (daysBefore (y % 400) + (monthStart m + d.day - 1)) - 719468 :=
    toDays_eq (by omega) (by omega) hmonth hm
  refine h.trans ?_
  unfold daysBefore daysBeforeYear
  omega

/-- The supported days are those with a supported date. -/
theorem isValid_ofDays (days : Int) :
    (ofDays days).isValid = true ↔ firstDay ≤ days ∧ days ≤ lastDay := by
  obtain ⟨hdays, hmonth, hday⟩ := toDays_ofDays days
  generalize ofDays days = d at *
  obtain ⟨m, hm⟩ : ∃ m, m = ((d.month : Int) + 9) % 12 := ⟨_, rfl⟩
  obtain ⟨y, hyear⟩ : ∃ y, d.year = y + if m < 10 then 0 else 1 :=
    ⟨d.year - if m < 10 then 0 else 1, by omega⟩
  rw [toDays_eq_daysBeforeYear hmonth hyear hm] at hdays
  have hlength := daysIn_eq d.year hmonth hm
  have hvalid : d.isValid = true ↔ firstYear ≤ d.year ∧ d.year ≤ lastYear := by
    simp [isValid, hmonth, hday]
  -- A year that begins in January has the first months of one that begins in March at its end.
  have hfirst : firstDay = daysBeforeYear (firstYear - 1) + 306 - 719468 := by decide
  have hlast : lastDay = daysBeforeYear lastYear + 305 - 719468 := by decide
  have hplace : 0 ≤ monthStart m + d.day - 1 ∧ monthStart m + d.day - 1 ≤ 365 ∧
      (m < 10 ↔ monthStart m + d.day - 1 < 306) := by
    unfold monthStart at *
    omega
  rw [hvalid, hfirst, hlast, ← hdays]
  generalize monthStart m + d.day - 1 = doy at *
  refine and_congr ?_ ?_
  · rcases lt_trichotomy y (firstYear - 1) with h | rfl | h
    · have hgap := daysBeforeYear_lt h
      split at hyear <;> omega
    · split at hyear <;> omega
    · have hgap := daysBeforeYear_lt h
      split at hyear <;> omega
  · rcases lt_trichotomy y lastYear with h | rfl | h
    · have hgap := daysBeforeYear_lt h
      split at hyear <;> omega
    · split at hyear <;> omega
    · have hgap := daysBeforeYear_lt h
      split at hyear <;> omega

example : isValid ⟨1900, 2, 29⟩ = false := by decide

end CivilDate

end ValueSchema
