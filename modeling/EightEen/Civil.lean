import Mathlib.Algebra.Order.Group.Int
import Mathlib.Algebra.Order.Ring.Int

/-!
# The Civil Calendar

Instants are whole seconds from the start of 1970, and have a date and a time of day in the
Gregorian calendar, which goes on without end in both directions. The text of an instant has
every field in decimal, padded with zeros to its width.

## Main results

* `Date.number_ofNumber`, `Date.number_lt_iff`: a day is that of its date, and days are in the
  order of their dates.
* `Stamp.unix_ofUnix`, `Stamp.unix_lt_iff`: the same for instants.
* `Stamp.text_lt_iff`, `text_ofUnix_lt_iff`: in the years `0` to `9999` texts are in the order
  of their instants.
-/

namespace Civil

/-! ### Years and months -/

/-- A year with a 29th of February. -/
def IsLeap (y : ℤ) : Prop :=
  y % 4 = 0 ∧ (y % 100 ≠ 0 ∨ y % 400 = 0)

instance (y : ℤ) : Decidable (IsLeap y) :=
  inferInstanceAs (Decidable (_ ∧ _))

/-- The leap days of a year. -/
def leapDay (y : ℤ) : ℤ :=
  if IsLeap y then 1 else 0

/-- A year has one leap day or none. -/
theorem leapDay_bounds (y : ℤ) : 0 ≤ leapDay y ∧ leapDay y ≤ 1 := by
  rw [leapDay]
  split <;> omega

/-- The days from the start of year `0` to the start of year `y`. -/
def beforeYear (y : ℤ) : ℤ :=
  365 * y + (y + 3) / 4 - (y + 99) / 100 + (y + 399) / 400

/-- A year has 365 days, and one more in a leap year. -/
theorem beforeYear_succ (y : ℤ) : beforeYear (y + 1) = beforeYear y + 365 + leapDay y := by
  rw [beforeYear, beforeYear, leapDay]
  split
  · next h =>
      rw [IsLeap] at h
      omega
  · next h =>
      rw [IsLeap] at h
      omega

/-- More days are before a later year, or as many. -/
theorem beforeYear_le {y y' : ℤ} (h : y ≤ y') : beforeYear y ≤ beforeYear y' := by
  rw [beforeYear, beforeYear]
  omega

/-- Four hundred years have 146097 days. -/
theorem beforeYear_bounds (y : ℤ) :
    146097 * y - 400 < 400 * beforeYear y ∧ 400 * beforeYear y < 146097 * y + 800 := by
  rw [beforeYear]
  omega

/-- The days from the start of a year to that of its month `m`. -/
def beforeMonth (y m : ℤ) : ℤ :=
  if m ≤ 2 then 31 * (m - 1) else (153 * (m - 3) + 2) / 5 + 59 + leapDay y

/-- More days of a year are before a later month, or as many. -/
theorem beforeMonth_le {y m m' : ℤ} (h : m ≤ m') : beforeMonth y m ≤ beforeMonth y m' := by
  have hleap := leapDay_bounds y
  rw [beforeMonth, beforeMonth]
  split <;> split <;> omega

/-- The days before a month, and before the end of the year, are days of that year. -/
theorem beforeMonth_bounds {y m : ℤ} (h : 1 ≤ m) (h' : m ≤ 13) :
    0 ≤ beforeMonth y m ∧ beforeMonth y m ≤ 365 + leapDay y := by
  have hleap := leapDay_bounds y
  rw [beforeMonth]
  split <;> omega

/-- The year of a day, counted from the start of year `0`. The estimate is a year off at
most. -/
def yearOf (n : ℤ) : ℤ :=
  let y := 400 * n / 146097
  if n < beforeYear y then y - 1 else if beforeYear (y + 1) ≤ n then y + 1 else y

/-- The month of a day of the year, counted from zero. -/
def monthOf (y k : ℤ) : ℤ :=
  if k < 31 then 1
  else if k < 59 + leapDay y then 2
  else (5 * (k - 59 - leapDay y) + 2) / 153 + 3

/-- **The year of a day**: the day is not before its first day, and before the first day of the
next year. -/
theorem yearOf_spec (n : ℤ) : beforeYear (yearOf n) ≤ n ∧ n < beforeYear (yearOf n + 1) := by
  have h := beforeYear_bounds (400 * n / 146097)
  have hlast := beforeYear_bounds (400 * n / 146097 - 1)
  have hnext := beforeYear_bounds (400 * n / 146097 + 2)
  rw [yearOf]
  split
  · rw [sub_add_cancel]
    omega
  split
  · rw [add_assoc, one_add_one_eq_two]
    omega
  · omega

/-- **The month of a day of a year**: one of the twelve, whose days are around it. -/
theorem monthOf_spec {y k : ℤ} (h : 0 ≤ k) (h' : k < 365 + leapDay y) :
    (1 ≤ monthOf y k ∧ monthOf y k ≤ 12) ∧
      beforeMonth y (monthOf y k) ≤ k ∧ k < beforeMonth y (monthOf y k + 1) := by
  have hleap := leapDay_bounds y
  rw [monthOf]
  split
  · rw [beforeMonth, beforeMonth, if_pos (by omega), if_pos (by omega)]
    omega
  split
  · rw [beforeMonth, beforeMonth, if_pos (by omega), if_neg (by omega)]
    omega
  · rw [beforeMonth, beforeMonth, if_neg (by omega), if_neg (by omega)]
    omega

/-! ### Dates -/

/-- A date. -/
@[ext]
structure Date where
  year : ℤ
  month : ℤ
  day : ℤ
  deriving DecidableEq

namespace Date

/-- The number of the day, from the first of January 1970. A day past the end of its month is
in the next one. -/
def number (d : Date) : ℤ :=
  beforeYear d.year + beforeMonth d.year d.month + (d.day - 1) - 719528

/-- The date of a day. -/
def ofNumber (n : ℤ) : Date :=
  let y := yearOf (n + 719528)
  let k := n + 719528 - beforeYear y
  ⟨y, monthOf y k, k - beforeMonth y (monthOf y k) + 1⟩

/-- The date is in the calendar. -/
structure Valid (d : Date) : Prop where
  month : 1 ≤ d.month ∧ d.month ≤ 12
  day : 1 ≤ d.day ∧ d.day ≤ beforeMonth d.year (d.month + 1) - beforeMonth d.year d.month

/-- The order of the calendar. -/
def Before (d d' : Date) : Prop :=
  d.year < d'.year ∨ d.year = d'.year ∧
    (d.month < d'.month ∨ d.month = d'.month ∧ d.day < d'.day)

/-- Counting the days up to the date of a day gives the day back. -/
theorem number_ofNumber (n : ℤ) : (ofNumber n).number = n := by
  rw [ofNumber, number]
  dsimp only
  omega

/-- The date of a day is one of the calendar: its month has that day. -/
theorem valid_ofNumber (n : ℤ) : (ofNumber n).Valid := by
  obtain ⟨hfrom, hto⟩ := yearOf_spec (n + 719528)
  rw [beforeYear_succ] at hto
  obtain ⟨hmonth, hfirst, hlast⟩ := monthOf_spec (y := yearOf (n + 719528))
    (k := n + 719528 - beforeYear (yearOf (n + 719528))) (by omega) (by omega)
  refine ⟨hmonth, ?_⟩
  rw [ofNumber]
  dsimp only
  omega

/-- **Dates are numbered in their order**: an earlier date has a smaller number. -/
theorem Valid.number_lt {d d' : Date} (h : d.Valid) (h' : d'.Valid) (hbefore : d.Before d') :
    d.number < d'.number := by
  obtain ⟨hmonth, hday⟩ := h
  obtain ⟨hmonth', hday'⟩ := h'
  have hlast := beforeMonth_bounds (y := d.year) (m := d.month + 1) (by omega) (by omega)
  have hfirst := beforeMonth_bounds (y := d'.year) (m := d'.month) (by omega) (by omega)
  rw [number, number]
  rcases hbefore with hlt | ⟨heq, hlt | ⟨heqm, hlt⟩⟩
  · have hyears := beforeYear_le (show d.year + 1 ≤ d'.year by omega)
    rw [beforeYear_succ] at hyears
    omega
  · have hmonths := beforeMonth_le (y := d.year) (show d.month + 1 ≤ d'.month by omega)
    rw [← heq]
    omega
  · rw [heq, heqm]
    omega

/-- Of two dates one is before the other, or they are one date. -/
theorem before_trichotomy (d d' : Date) : d.Before d' ∨ d = d' ∨ d'.Before d := by
  rw [Date.ext_iff]
  unfold Before
  omega

/-- **Days are in the order of their dates.** -/
theorem number_lt_iff {d d' : Date} (h : d.Valid) (h' : d'.Valid) :
    d.number < d'.number ↔ d.Before d' := by
  refine ⟨fun hlt => ?_, h.number_lt h'⟩
  rcases before_trichotomy d d' with hbefore | rfl | hbefore
  · exact hbefore
  · exact absurd hlt (lt_irrefl _)
  · exact absurd hlt (h'.number_lt h hbefore).not_gt

/-- A valid date is determined by its number, since the order of dates is that of their numbers.
-/
theorem Valid.eq_of_number {d d' : Date} (h : d.Valid) (h' : d'.Valid)
    (hnumber : d.number = d'.number) : d = d' := by
  rcases before_trichotomy d d' with hbefore | heq | hbefore
  · exact absurd hnumber (h.number_lt h' hbefore).ne
  · exact heq
  · exact absurd hnumber (h'.number_lt h hbefore).ne'

/-- The same day some years on. -/
def addYears (d : Date) (years : ℤ) : Date :=
  { d with year := d.year + years }

/-- A year has 365 or 366 days. -/
theorem number_addYears_one (d : Date) :
    d.number + 365 ≤ (d.addYears 1).number ∧ (d.addYears 1).number ≤ d.number + 366 := by
  have hleap := leapDay_bounds d.year
  have hleap' := leapDay_bounds (d.year + 1)
  rw [number, number, addYears]
  dsimp only
  rw [beforeYear_succ, beforeMonth, beforeMonth]
  split <;> omega

end Date

/-! ### Instants -/

/-- A date and a time of day. -/
@[ext]
structure Stamp where
  date : Date
  hour : ℤ
  minute : ℤ
  second : ℤ
  deriving DecidableEq

namespace Stamp

/-- The instant, in seconds from the start of 1970. -/
def unix (s : Stamp) : ℤ :=
  86400 * s.date.number + 3600 * s.hour + 60 * s.minute + s.second

/-- The date and the time of day of an instant. -/
def ofUnix (t : ℤ) : Stamp where
  date := .ofNumber (t / 86400)
  hour := t % 86400 / 3600
  minute := t % 3600 / 60
  second := t % 60

/-- The date is in the calendar, and the time of day is on the clock. -/
structure Valid (s : Stamp) : Prop where
  date : s.date.Valid
  hour : 0 ≤ s.hour ∧ s.hour < 24
  minute : 0 ≤ s.minute ∧ s.minute < 60
  second : 0 ≤ s.second ∧ s.second < 60

/-- The order of dates and times of day. -/
def Before (s s' : Stamp) : Prop :=
  s.date.Before s'.date ∨ s.date = s'.date ∧
    (s.hour < s'.hour ∨ s.hour = s'.hour ∧
      (s.minute < s'.minute ∨ s.minute = s'.minute ∧ s.second < s'.second))

/-- Counting the seconds up to the stamp of an instant gives the instant back. -/
theorem unix_ofUnix (t : ℤ) : (ofUnix t).unix = t := by
  rw [unix, ofUnix]
  dsimp only
  rw [Date.number_ofNumber]
  omega

/-- The stamp of an instant is valid: a valid date, and a time within its day. -/
theorem valid_ofUnix (t : ℤ) : (ofUnix t).Valid := by
  refine ⟨Date.valid_ofNumber _, ?_, ?_, ?_⟩ <;> dsimp only [ofUnix] <;> omega

/-- **Instants are in the order of their dates and times of day.** -/
theorem unix_lt_iff {s s' : Stamp} (h : s.Valid) (h' : s'.Valid) :
    s.unix < s'.unix ↔ s.Before s' := by
  obtain ⟨hdate, hhour, hminute, hsecond⟩ := h
  obtain ⟨hdate', hhour', hminute', hsecond'⟩ := h'
  have hlt := Date.number_lt_iff hdate hdate'
  have hgt := Date.number_lt_iff hdate' hdate
  rw [Before, ← hlt, unix, unix]
  rcases lt_trichotomy s.date.number s'.date.number with hnumber | hnumber | hnumber
  · omega
  · have heq : s.date = s'.date := hdate.eq_of_number hdate' hnumber
    simp only [heq, true_and]
    omega
  · have hne : s.date ≠ s'.date := by
      intro heq
      rw [heq] at hnumber
      exact lt_irrefl _ hnumber
    simp only [hne, false_and, or_false]
    omega

end Stamp

/-! ### Text -/

/-- Two texts with heads of one length. -/
theorem append_lt_append_iff {a a' b b' : List UInt8} (h : a.length = a'.length) :
    a ++ b < a' ++ b' ↔ a < a' ∨ a = a' ∧ b < b' := by
  induction a generalizing a' with
  | nil =>
      obtain rfl := List.length_eq_zero_iff.mp h.symm
      simp
  | cons x a ih =>
      cases a' with
      | nil => cases h
      | cons x' a' =>
          rw [List.cons_append, List.cons_append, List.cons_lt_cons_iff, List.cons_lt_cons_iff,
            ih (Nat.succ.inj h), List.cons.injEq]
          tauto

/-- The last `w` decimal digits of a number below `10 ^ w`. -/
def digits : ℕ → ℕ → List UInt8
  | 0, _ => []
  | w + 1, n => UInt8.ofNat (0x30 + n / 10 ^ w) :: digits w (n % 10 ^ w)

/-- A number is written with as many digits as it is asked for. -/
theorem length_digits (w n : ℕ) : (digits w n).length = w := by
  induction w generalizing n with
  | zero => rfl
  | succ w ih => rw [digits, List.length_cons, ih]

/-- The bytes of two digits are in the order of the digits. -/
theorem digit_lt_iff {a b : ℕ} (ha : a < 10) (hb : b < 10) :
    UInt8.ofNat (0x30 + a) < UInt8.ofNat (0x30 + b) ↔ a < b := by
  rw [UInt8.lt_iff_toNat_lt, UInt8.toNat_ofNat', UInt8.toNat_ofNat']
  omega

/-- The byte of a digit tells the digit. -/
theorem digit_inj {a b : ℕ} (ha : a < 10) (hb : b < 10) :
    UInt8.ofNat (0x30 + a) = UInt8.ofNat (0x30 + b) ↔ a = b := by
  rw [← UInt8.toNat_inj, UInt8.toNat_ofNat', UInt8.toNat_ofNat']
  omega

/-- Quotient and remainder, in the order of the number. -/
theorem lt_iff_div_mod (b n n' : ℕ) :
    n < n' ↔ n / b < n' / b ∨ n / b = n' / b ∧ n % b < n' % b := by
  have h := Nat.div_add_mod n b
  have h' := Nat.div_add_mod n' b
  rcases lt_trichotomy (n / b) (n' / b) with hlt | heq | hgt
  · exact iff_of_true (Nat.lt_of_div_lt_div hlt) (Or.inl hlt)
  · rw [heq] at h ⊢
    omega
  · refine iff_of_false (Nat.lt_of_div_lt_div hgt).not_gt ?_
    omega

/-- Numbers are in the order of their digits, and are told apart by them. -/
theorem digits_lt_iff {w n n' : ℕ} (h : n < 10 ^ w) (h' : n' < 10 ^ w) :
    (digits w n < digits w n' ↔ n < n') ∧ (digits w n = digits w n' ↔ n = n') := by
  induction w generalizing n n' with
  | zero =>
      rw [pow_zero, Nat.lt_one_iff] at h h'
      subst h h'
      simp [digits]
  | succ w ih =>
      have hpos : 0 < 10 ^ w := Nat.pow_pos (by decide)
      have hq : n / 10 ^ w < 10 := Nat.div_lt_of_lt_mul (by rwa [← pow_succ])
      have hq' : n' / 10 ^ w < 10 := Nat.div_lt_of_lt_mul (by rwa [← pow_succ])
      obtain ⟨hlt, heq⟩ := ih (Nat.mod_lt n hpos) (Nat.mod_lt n' hpos)
      rw [digits, digits, List.cons_lt_cons_iff, digit_lt_iff hq hq', List.cons.injEq,
        digit_inj hq hq', hlt, heq]
      refine ⟨(lt_iff_div_mod _ n n').symm, fun h => ?_, fun h => by rw [h]; exact ⟨rfl, rfl⟩⟩
      rw [← Nat.div_add_mod n (10 ^ w), h.1, h.2, Nat.div_add_mod]

/-- A number in decimal, padded with zeros to a width. -/
def decimal (w : ℕ) (x : ℤ) : List UInt8 :=
  (if x < 0 then [0x2D] else []) ++
    if x.natAbs < 10 ^ w then digits w x.natAbs
    else (Nat.toDigits 10 x.natAbs).map fun c => UInt8.ofNat c.toNat

/-- A number that fits its width is written without a sign, with zeros in front. -/
theorem decimal_eq {w : ℕ} {x : ℤ} (h : 0 ≤ x) (h' : x < 10 ^ w) :
    decimal w x = digits w x.toNat ∧ x.toNat < 10 ^ w := by
  obtain ⟨n, rfl⟩ := Int.eq_ofNat_of_zero_le h
  have hlt : n < 10 ^ w := by exact_mod_cast h'
  rw [decimal, if_neg h.not_gt, Int.natAbs_natCast, if_pos hlt, Int.toNat_natCast]
  exact ⟨rfl, hlt⟩

/-- So its text has the length of the width. -/
theorem length_decimal {w : ℕ} {x : ℤ} (h : 0 ≤ x) (h' : x < 10 ^ w) :
    (decimal w x).length = w := by
  rw [(decimal_eq h h').1, length_digits]

/-- **Numbers of one width** are in the order of their texts, and are equal when their texts are.
-/
theorem decimal_lt_iff {w : ℕ} {x x' : ℤ} (h : 0 ≤ x ∧ x < 10 ^ w) (h' : 0 ≤ x' ∧ x' < 10 ^ w) :
    (decimal w x < decimal w x' ↔ x < x') ∧ (decimal w x = decimal w x' ↔ x = x') := by
  obtain ⟨heq, hlt⟩ := decimal_eq h.1 h.2
  obtain ⟨heq', hlt'⟩ := decimal_eq h'.1 h'.2
  obtain ⟨hlt, hinj⟩ := digits_lt_iff hlt hlt'
  rw [heq, heq', hlt, hinj]
  omega

namespace Stamp

/-- The text of a date and a time of day, up to the zone. -/
def text (s : Stamp) : List UInt8 :=
  decimal 4 s.date.year ++ ([0x2D] ++ (decimal 2 s.date.month ++ ([0x2D] ++
    (decimal 2 s.date.day ++ ([0x54] ++ (decimal 2 s.hour ++ ([0x3A] ++
      (decimal 2 s.minute ++ ([0x3A] ++ decimal 2 s.second)))))))))

/-- The text has four digits for the year. -/
def InRange (s : Stamp) : Prop :=
  0 ≤ s.date.year ∧ s.date.year < 10 ^ 4

/-- Every field of a valid stamp but the year has two digits. -/
theorem Valid.two_digits {s : Stamp} (h : s.Valid) :
    (0 ≤ s.date.month ∧ s.date.month < 10 ^ 2) ∧ (0 ≤ s.date.day ∧ s.date.day < 10 ^ 2) ∧
      (0 ≤ s.hour ∧ s.hour < 10 ^ 2) ∧ (0 ≤ s.minute ∧ s.minute < 10 ^ 2) ∧
      0 ≤ s.second ∧ s.second < 10 ^ 2 := by
  obtain ⟨⟨hmonth, hday⟩, hhour, hminute, hsecond⟩ := h
  have hlength : beforeMonth s.date.year (s.date.month + 1) -
      beforeMonth s.date.year s.date.month ≤ 31 := by
    have hleap := leapDay_bounds s.date.year
    rw [beforeMonth, beforeMonth]
    split <;> split <;> omega
  omega

/-- A valid stamp of a year with four digits is written with 19 characters. -/
theorem length_text {s : Stamp} (h : s.Valid) (hyear : s.InRange) : s.text.length = 19 := by
  obtain ⟨hmonth, hday, hhour, hminute, hsecond⟩ := h.two_digits
  simp only [text, List.length_append, length_decimal hyear.1 hyear.2,
    length_decimal hmonth.1 hmonth.2, length_decimal hday.1 hday.2, length_decimal hhour.1 hhour.2,
    length_decimal hminute.1 hminute.2, length_decimal hsecond.1 hsecond.2, List.length_singleton]

/-- A field of two texts, and what follows a separator. -/
theorem field_lt_iff {w : ℕ} {x x' : ℤ} (h : 0 ≤ x ∧ x < 10 ^ w) (h' : 0 ≤ x' ∧ x' < 10 ^ w)
    {c : UInt8} {b b' : List UInt8} :
    decimal w x ++ ([c] ++ b) < decimal w x' ++ ([c] ++ b') ↔ x < x' ∨ x = x' ∧ b < b' := by
  obtain ⟨hlt, heq⟩ := decimal_lt_iff h h'
  rw [append_lt_append_iff, append_lt_append_iff rfl, hlt, heq]
  · simp
  · rw [length_decimal h.1 h.2, length_decimal h'.1 h'.2]

/-- **Texts are in the order of their dates and times of day.** -/
theorem text_lt_iff {s s' : Stamp} (h : s.Valid) (h' : s'.Valid) (hyear : s.InRange)
    (hyear' : s'.InRange) : s.text < s'.text ↔ s.Before s' := by
  obtain ⟨hmonth, hday, hhour, hminute, hsecond⟩ := h.two_digits
  obtain ⟨hmonth', hday', hhour', hminute', hsecond'⟩ := h'.two_digits
  rw [text, text, field_lt_iff hyear hyear', field_lt_iff hmonth hmonth', field_lt_iff hday hday',
    field_lt_iff hhour hhour', field_lt_iff hminute hminute', (decimal_lt_iff hsecond hsecond').1,
    Before, Date.Before, Date.ext_iff]
  tauto

end Stamp

/-- **Texts of the years `0` to `9999` are in the order of their instants.** -/
theorem text_ofUnix_lt_iff {t t' : ℤ} (h : (Stamp.ofUnix t).InRange)
    (h' : (Stamp.ofUnix t').InRange) :
    (Stamp.ofUnix t).text < (Stamp.ofUnix t').text ↔ t < t' := by
  rw [Stamp.text_lt_iff (Stamp.valid_ofUnix t) (Stamp.valid_ofUnix t') h h',
    ← Stamp.unix_lt_iff (Stamp.valid_ofUnix t) (Stamp.valid_ofUnix t'), Stamp.unix_ofUnix,
    Stamp.unix_ofUnix]

end Civil
