import EightEen.Civil
import EightEen.Fixtures

/-!
# The Clocks of a Credential

`tdate20` and `realTimeClock` of `tools/mkfixture/mint.go`, over the calendar of the `time`
package. The circuit compares the three texts of a `credClock` byte by byte, and needs
`validFrom` before `now` before `validUntil`.

An instant is what `Unix()` gives of a `time.Time`. The year that is added to it is one of the
calendar of its location, whose offset from UTC may change on the way.

## Main results

* `tdate20_lt_iff`: the texts are in the order of the instants.
* `realTimeClock_straddles`: in whatever location, `realTimeClock` is a clock that the builders
  take, and its window is open.
-/

open Civil

namespace EightEen

namespace Mint

/-! ### Locations -/

/-- What `lookup` finds of an instant: the offset from UTC, and from when until when it holds. -/
structure Period where
  offset : ℤ
  start : ℤ
  stop : ℤ

/-- `time.Location`. -/
abbrev Location := ℤ → Period

/-- `t.Date()` and `t.Clock()`. -/
def fields (loc : Location) (t : ℤ) : Stamp :=
  .ofUnix (t + (loc t).offset)

/-- `time.Date(...)`: the offset is looked up as if the fields were those of UTC, and once more
if it does not hold at the instant that it gives. -/
def timeDate (loc : Location) (s : Stamp) : ℤ :=
  let period := loc s.unix
  if period.offset = 0 then s.unix
  else
    let utc := s.unix - period.offset
    if utc < period.start ∨ period.stop ≤ utc then s.unix - (loc utc).offset
    else utc

/-- `t.AddDate(years, 0, 0)`. -/
def addDate (loc : Location) (t years : ℤ) : ℤ :=
  timeDate loc { fields loc t with date := (fields loc t).date.addYears years }

/-! ### The clock -/

/-- `tdate20(t)`. -/
def tdate20 (t : ℤ) : List UInt8 :=
  (Stamp.ofUnix t).text ++ [0x5A]

/-- `realTimeClock()`, at the instant `now`. -/
def realTimeClock (loc : Location) (now : ℤ) : CredClock where
  validFrom := tdate20 (addDate loc now (-1))
  validUntil := tdate20 (addDate loc now 1)
  now := tdate20 now

/-- An instant of a year with four digits. -/
def InYears (t : ℤ) : Prop :=
  -62167219200 ≤ t ∧ t < 253402300800

/-- An instant in range has a year of four digits. -/
theorem inRange_of_inYears {t : ℤ} (h : InYears t) : (Stamp.ofUnix t).InRange := by
  obtain ⟨hfrom, hto⟩ := yearOf_spec (t / 86400 + 719528)
  rw [InYears] at h
  show 0 ≤ yearOf (t / 86400 + 719528) ∧ yearOf (t / 86400 + 719528) < 10 ^ 4
  generalize yearOf (t / 86400 + 719528) = y at hfrom hto
  rw [beforeYear] at hfrom hto
  omega

/-- The text of an instant in range has 20 characters, the last of which is a `Z`. -/
theorem length_tdate20 {t : ℤ} (h : InYears t) : (tdate20 t).length = 20 := by
  rw [tdate20, List.length_append, Stamp.length_text (Stamp.valid_ofUnix t) (inRange_of_inYears h)]
  rfl

/-- **The texts are in the order of the instants.** -/
theorem tdate20_lt_iff {t t' : ℤ} (h : InYears t) (h' : InYears t') :
    tdate20 t < tdate20 t' ↔ t < t' := by
  have hrange := inRange_of_inYears h
  have hrange' := inRange_of_inYears h'
  rw [tdate20, tdate20, append_lt_append_iff, text_ofUnix_lt_iff hrange hrange']
  · simp
  · rw [Stamp.length_text (Stamp.valid_ofUnix t) hrange,
      Stamp.length_text (Stamp.valid_ofUnix t') hrange']

/-! ### A year before, and a year after -/

/-- The offsets of a location are below eight days, as that of any `TZ` is. -/
def Location.Bounded (loc : Location) : Prop :=
  ∀ t, -691200 < (loc t).offset ∧ (loc t).offset < 691200

/-- An offset is added once and taken away once. -/
theorem timeDate_bounds {loc : Location} (hloc : loc.Bounded) (s : Stamp) :
    s.unix - 691200 < timeDate loc s ∧ timeDate loc s < s.unix + 691200 := by
  have h := hloc s.unix
  have h' := hloc (s.unix - (loc s.unix).offset)
  rw [timeDate]
  split
  · omega
  dsimp only
  split <;> omega

/-- Fields that are a year apart, give or take a leap day. -/
theorem addDate_bounds {loc : Location} (hloc : loc.Bounded) (t years lo hi : ℤ)
    (hyears : (fields loc t).date.number + lo ≤ ((fields loc t).date.addYears years).number ∧
      ((fields loc t).date.addYears years).number ≤ (fields loc t).date.number + hi) :
    t + 86400 * (lo - 16) < addDate loc t years ∧ addDate loc t years < t + 86400 * (hi + 16) := by
  have hbounds := timeDate_bounds hloc
    { fields loc t with date := (fields loc t).date.addYears years }
  have hoffset := hloc t
  have hunix : (fields loc t).unix = t + (loc t).offset := Stamp.unix_ofUnix _
  rw [addDate]
  rw [Stamp.unix] at hbounds hunix
  dsimp only at hbounds ⊢
  omega

/-- A year after is 349 to 382 days after. -/
theorem addDate_one {loc : Location} (hloc : loc.Bounded) (t : ℤ) :
    t + 86400 * 349 < addDate loc t 1 ∧ addDate loc t 1 < t + 86400 * 382 :=
  addDate_bounds hloc t 1 365 366 (fields loc t).date.number_addYears_one

/-- A year before is 349 to 382 days before. -/
theorem addDate_neg_one {loc : Location} (hloc : loc.Bounded) (t : ℤ) :
    t - 86400 * 382 < addDate loc t (-1) ∧ addDate loc t (-1) < t - 86400 * 349 := by
  have hyear := ((fields loc t).date.addYears (-1)).number_addYears_one
  have hback : ((fields loc t).date.addYears (-1)).addYears 1 = (fields loc t).date := by
    rw [Date.addYears, Date.addYears]
    simp
  rw [hback] at hyear
  have hbounds := addDate_bounds hloc t (-1) (-366) (-365) (by omega)
  omega

/-- So `buildTDate` takes it, and writes it behind tag 0. -/
theorem buildTDate_tdate20 {t : ℤ} (h : InYears t) :
    buildTDate (tdate20 t) = .ok ([0xC0, 0x74] ++ tdate20 t) := by
  rw [buildTDate, if_neg (not_not.mpr (length_tdate20 h))]
  simp [cat, bind, Except.bind]

/-- `expiredClock` as the texts of instants. -/
theorem expiredClock_eq : Fixtures.expiredClock =
    ⟨tdate20 1577836800, tdate20 1609459200, tdate20 1590969600⟩ := by
  rw [Fixtures.expiredClock, CredClock.mk.injEq]
  decide +kernel

/-- **The window of a fresh credential is open, and that of an expired one is not.** In whatever
location, a year from either end of the years with four digits: the builders take the texts of
`realTimeClock`, and its `now` is strictly between the others, as a text. So is that of
`expiredClock`, whose window ended before the `now` of any run since 2021. -/
theorem realTimeClock_straddles {loc : Location} (hloc : loc.Bounded) {now : ℤ}
    (hfrom : InYears (now - 86400 * 382)) (hto : InYears (now + 86400 * 382)) :
    ((realTimeClock loc now).validFrom < (realTimeClock loc now).now ∧
      (realTimeClock loc now).now < (realTimeClock loc now).validUntil ∧
      (realTimeClock loc now).now.length = 20 ∧
      ∃ code, buildValidityInfo (realTimeClock loc now) = .ok code) ∧
    Fixtures.expiredClock.validFrom < Fixtures.expiredClock.now ∧
      Fixtures.expiredClock.now < Fixtures.expiredClock.validUntil ∧
      (1609459200 < now → Fixtures.expiredClock.validUntil < (realTimeClock loc now).now) := by
  have hafter := addDate_one hloc now
  have hbefore := addDate_neg_one hloc now
  rw [InYears] at hfrom hto
  have hnow : InYears now := by
    rw [InYears]
    omega
  have hvalidFrom : InYears (addDate loc now (-1)) := by
    rw [InYears]
    omega
  have hvalidUntil : InYears (addDate loc now 1) := by
    rw [InYears]
    omega
  have hpast (t : ℤ) (h : 1577836800 ≤ t) (h' : t ≤ 1609459200) : InYears t := by
    rw [InYears]
    omega
  refine ⟨⟨?_, ?_, length_tdate20 hnow, ?_⟩, ?_, ?_, fun hsince => ?_⟩
  · exact (tdate20_lt_iff hvalidFrom hnow).mpr (by omega)
  · exact (tdate20_lt_iff hnow hvalidUntil).mpr (by omega)
  · rw [buildValidityInfo, realTimeClock, buildTDate_tdate20 hvalidFrom,
      buildTDate_tdate20 hvalidUntil]
    exact ⟨_, rfl⟩
  · rw [expiredClock_eq]
    exact (tdate20_lt_iff (hpast _ (by omega) (by omega)) (hpast _ (by omega) (by omega))).mpr
      (by omega)
  · rw [expiredClock_eq]
    exact (tdate20_lt_iff (hpast _ (by omega) (by omega)) (hpast _ (by omega) (by omega))).mpr
      (by omega)
  · rw [expiredClock_eq]
    exact (tdate20_lt_iff (hpast _ (by omega) (by omega)) hnow).mpr hsince

/-- A location one hour ahead of UTC, and from 2024 on two. -/
def sampleLocation : Location := fun t =>
  if t < 1704067200 then ⟨3600, -9223372036854775808, 1704067200⟩
  else ⟨7200, 1704067200, 9223372036854775807⟩

/-- No offset of the sample is a day or more. -/
theorem sampleLocation_bounded : sampleLocation.Bounded := by
  intro t
  rw [sampleLocation]
  split <;> decide

/-- At noon of a leap day, and in a location whose offset has changed within the year, the window
is open from both ends, and that of `expiredClock` has ended. -/
theorem realTimeClock_straddles_sampleLocation :
    realTimeClock sampleLocation 1709208000 = ⟨ascii "2023-03-01T13:00:00Z",
        ascii "2025-03-01T12:00:00Z", ascii "2024-02-29T12:00:00Z"⟩ ∧
      (realTimeClock sampleLocation 1709208000).validFrom <
        (realTimeClock sampleLocation 1709208000).now ∧
      (realTimeClock sampleLocation 1709208000).now <
        (realTimeClock sampleLocation 1709208000).validUntil ∧
      (∃ code, buildValidityInfo (realTimeClock sampleLocation 1709208000) = .ok code) ∧
      Fixtures.expiredClock.now < Fixtures.expiredClock.validUntil ∧
      Fixtures.expiredClock.validUntil < (realTimeClock sampleLocation 1709208000).now := by
  obtain ⟨⟨hfrom, huntil, -, hcode⟩, -, hopen, hended⟩ :=
    @realTimeClock_straddles _ sampleLocation_bounded 1709208000 ⟨by decide, by decide⟩
      ⟨by decide, by decide⟩
  refine ⟨?_, hfrom, huntil, hcode, hopen, hended (by decide)⟩
  rw [realTimeClock, CredClock.mk.injEq]
  decide +kernel

end Mint

end EightEen
