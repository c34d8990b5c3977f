import CoreFlightSystem.Library.Calendar
import CoreFlightSystem.Time.Subseconds
import CoreFlightSystem.Time.SysTime

/-!
# Printing a time

`CFE_TIME_Print` turns a number of seconds since the epoch of the mission into a date. It divides
the seconds into minutes, hours and days, adds the field of the epoch to each of them, takes the
days of one year after the other from the days, and writes the fields digit by digit.
-/

open Calendar Decimal

namespace TimeServices

/-- The constants `CFE_MISSION_TIME_EPOCH_YEAR` to `CFE_MISSION_TIME_EPOCH_SECOND`. -/
structure Epoch where
  year : UInt32
  day : UInt32
  hour : UInt32
  minute : UInt32
  second : UInt32
  deriving DecidableEq, Repr

def missionTimeEpoch : Epoch where
  year := 1980
  day := 1
  hour := 0
  minute := 0
  second := 0

def dash : UInt8 := UInt8.ofNat '-'.toNat

def colon : UInt8 := UInt8.ofNat ':'.toNat

def point : UInt8 := UInt8.ofNat '.'.toNat

/-- The loop that carries full minutes out of the seconds, if it ends within `fuel` turns. -/
def carrySeconds : ℕ → UInt32 → UInt32 → Option (UInt32 × UInt32)
  | 0, _, _ => none
  | fuel + 1, numberOfMinutes, numberOfSeconds =>
    if numberOfSeconds ≥ 60 then carrySeconds fuel (numberOfMinutes + 1) (numberOfSeconds - 60)
    else some (numberOfMinutes, numberOfSeconds)

def daysInThisYear (numberOfYears : UInt32) : UInt32 :=
  if numberOfYears % 4 = 0 then
    if numberOfYears % 100 ≠ 0 then 366
    else if numberOfYears % 400 = 0 then 366
    else 365
  else 365

/-- The loop that takes the days of full years from the days, if it ends within `fuel` turns. -/
def countYears : ℕ → UInt32 → UInt32 → Option (UInt32 × UInt32)
  | 0, _, _ => none
  | fuel + 1, numberOfYears, numberOfDays =>
    if numberOfDays < daysInThisYear numberOfYears then some (numberOfYears, numberOfDays)
    else countYears fuel (numberOfYears + 1) (numberOfDays - daysInThisYear numberOfYears)

def digit (n : UInt32) : UInt8 :=
  UInt8.ofNat '0'.toNat + n.toUInt8

/-- The bytes that the function writes one after the other. -/
def outputString (numberOfYears numberOfDays numberOfHours numberOfMinutes numberOfSeconds
    numberOfMicros : UInt32) : List UInt8 :=
  let years := numberOfYears % 1000
  let years' := years % 100
  let days := numberOfDays % 100
  let micros := numberOfMicros % 10000
  let micros' := micros % 1000
  let micros'' := micros' % 100
  [digit (numberOfYears / 1000), digit (years / 100), digit (years' / 10), digit (years' % 10),
    dash, digit (numberOfDays / 100), digit (days / 10), digit (days % 10), dash,
    digit (numberOfHours / 10), digit (numberOfHours % 10), colon,
    digit (numberOfMinutes / 10), digit (numberOfMinutes % 10), colon,
    digit (numberOfSeconds / 10), digit (numberOfSeconds % 10), point,
    digit (numberOfMicros / 10000), digit (micros / 1000), digit (micros' / 100),
    digit (micros'' / 10), digit (micros'' % 10), 0]

/-- What `CFE_TIME_Print` writes to its buffer, if its loops end within `fuel` turns. -/
def printWithin (fuel : ℕ) (epoch : Epoch) (timeToPrint : SysTime) : Option (List UInt8) := do
  let numberOfMinutes := timeToPrint.seconds / 60 + epoch.minute
  let numberOfSeconds := timeToPrint.seconds % 60 + epoch.second
  let (numberOfMinutes, numberOfSeconds) ← carrySeconds fuel numberOfMinutes numberOfSeconds
  let numberOfHours := numberOfMinutes / 60 + epoch.hour
  let numberOfMinutes := numberOfMinutes % 60
  -- the days of the epoch are counted from 1
  let numberOfDays := numberOfHours / 24 + (epoch.day - 1)
  let numberOfHours := numberOfHours % 24
  let (numberOfYears, numberOfDays) ← countYears fuel epoch.year numberOfDays
  let numberOfDays := numberOfDays + 1
  let numberOfMicros := sub2MicroSecs timeToPrint.subseconds / 10
  some (outputString numberOfYears numberOfDays numberOfHours numberOfMinutes numberOfSeconds
    numberOfMicros)

/-! ## The loops -/

section Loops

variable {fuel turns : ℕ} {minutes seconds years days : UInt32}

theorem toNat_add_of_lt {a b : UInt32} (hlt : a.toNat + b.toNat < 2 ^ 32) :
    (a + b).toNat = a.toNat + b.toNat := by
  rw [UInt32.toNat_add]
  exact Nat.mod_eq_of_lt hlt

theorem toNat_add_one {n : UInt32} (hlt : n.toNat + 1 < 2 ^ 32) : (n + 1).toNat = n.toNat + 1 :=
  toNat_add_of_lt hlt

theorem carrySeconds_eq (hfuel : turns ≤ fuel) (hturns : seconds.toNat < 60 * turns)
    (hroom : minutes.toNat + turns < 2 ^ 32) :
    ∃ minutes' seconds', carrySeconds fuel minutes seconds = some (minutes', seconds') ∧
      minutes'.toNat * 60 + seconds'.toNat = minutes.toNat * 60 + seconds.toNat ∧
      seconds'.toNat < 60 := by
  induction turns generalizing fuel minutes seconds with
  | zero => omega
  | succ turns ih =>
    obtain ⟨fuel, rfl⟩ : ∃ k, fuel = k + 1 := Nat.exists_eq_succ_of_ne_zero (by omega)
    rw [carrySeconds]
    split
    · next hfull =>
      have hfull' : 60 ≤ seconds.toNat := UInt32.le_iff_toNat_le.mp hfull
      have hminutes := toNat_add_one (n := minutes) (by omega)
      have hseconds : (seconds - 60).toNat = seconds.toNat - 60 :=
        UInt32.toNat_sub_of_le _ _ hfull
      obtain ⟨minutes', seconds', heq, hsum, hlt⟩ := @ih fuel (minutes + 1) (seconds - 60)
        (by omega) (by omega) (by omega)
      exact ⟨minutes', seconds', heq, by omega, hlt⟩
    · next hfull =>
      have hfull' : seconds.toNat < 60 := by
        rw [ge_iff_le, UInt32.le_iff_toNat_le] at hfull
        exact not_le.mp hfull
      exact ⟨minutes, seconds, rfl, rfl, hfull'⟩

theorem toNat_daysInThisYear : (daysInThisYear years).toNat = daysIn years.toNat := by
  have h4 : years % 4 = 0 ↔ 4 ∣ years.toNat := by
    rw [← UInt32.toNat_inj, UInt32.toNat_mod, Nat.dvd_iff_mod_eq_zero]
    rfl
  have h100 : years % 100 = 0 ↔ 100 ∣ years.toNat := by
    rw [← UInt32.toNat_inj, UInt32.toNat_mod, Nat.dvd_iff_mod_eq_zero]
    rfl
  have h400 : years % 400 = 0 ↔ 400 ∣ years.toNat := by
    rw [← UInt32.toNat_inj, UInt32.toNat_mod, Nat.dvd_iff_mod_eq_zero]
    rfl
  simp only [daysInThisYear, daysIn, IsLeap, ne_eq, h4, h100, h400]
  by_cases hdvd : 4 ∣ years.toNat <;> by_cases hcentury : 100 ∣ years.toNat <;>
    by_cases hfour : 400 ∣ years.toNat <;> simp [hdvd, hcentury, hfour]

theorem countYears_eq (hfuel : turns ≤ fuel) (hturns : days.toNat < 365 * turns)
    (hroom : years.toNat + turns < 2 ^ 32) :
    ∃ years' days', countYears fuel years days = some (years', days') ∧
      daysBefore years'.toNat + days'.toNat = daysBefore years.toNat + days.toNat ∧
      days'.toNat < daysIn years'.toNat ∧ years'.toNat < years.toNat + turns := by
  induction turns generalizing fuel years days with
  | zero => omega
  | succ turns ih =>
    obtain ⟨fuel, rfl⟩ : ∃ k, fuel = k + 1 := Nat.exists_eq_succ_of_ne_zero (by omega)
    have hyear : (daysInThisYear years).toNat = _ := toNat_daysInThisYear
    rw [countYears]
    split
    · next hlt =>
      rw [UInt32.lt_iff_toNat_lt, hyear] at hlt
      exact ⟨years, days, rfl, rfl, hlt, by omega⟩
    · next hfull =>
      rw [UInt32.not_lt] at hfull
      have hle := UInt32.le_iff_toNat_le.mp hfull
      have h365 := le_daysIn years.toNat
      have hyears := toNat_add_one (n := years) (by omega)
      have hdays : (days - daysInThisYear years).toNat = days.toNat - daysIn years.toNat := by
        rw [UInt32.toNat_sub_of_le _ _ hfull, hyear]
      obtain ⟨years', days', heq, hsum, hlt, hbound⟩ :=
        @ih fuel (years + 1) (days - daysInThisYear years) (by omega) (by omega) (by omega)
      rw [hyears, daysBefore] at hsum
      exact ⟨years', days', heq, by omega, hlt, by omega⟩

end Loops

/-! ## The text of a moment -/

/-- The form `yyyy-ddd-hh:mm:ss.xxxxx`. -/
def text (m : Moment) : List UInt8 :=
  numeral 4 m.year ++ dash :: (numeral 3 m.day ++ dash :: (numeral 2 m.hour ++
    colon :: (numeral 2 m.minute ++ colon :: (numeral 2 m.second ++
      point :: numeral 5 m.fraction))))

def HasForm (bytes : List UInt8) : Prop :=
  ∃ y d h mm s x, IsNumeral 4 y ∧ IsNumeral 3 d ∧ IsNumeral 2 h ∧ IsNumeral 2 mm ∧
    IsNumeral 2 s ∧ IsNumeral 5 x ∧
    bytes = y ++ dash :: (d ++ dash :: (h ++ colon :: (mm ++ colon :: (s ++ point :: x)))) ++ [0]

theorem length_text (m : Moment) : (text m).length = 23 := by
  simp [text]

theorem digit_eq (n : UInt32) : digit n = UInt8.ofNat (48 + n.toNat) := by
  have hcast : n.toUInt8 = UInt8.ofNat n.toNat := by simp
  rw [digit, hcast, UInt8.ofNat_add]
  rfl

theorem outputString_eq (years days hours minutes seconds micros : UInt32) :
    outputString years days hours minutes seconds micros =
      text ⟨years.toNat, days.toNat, hours.toNat, minutes.toNat, seconds.toNat, micros.toNat⟩
        ++ [0] := by
  simp [outputString, text, numeral, digit_eq]

/-- Hundred thousand parts make a second: a part has 10 microseconds. -/
def scale : ℕ := 100000

section Text

variable {m m' : Moment}

theorem day_lt_thousand (hm : m.Valid scale) : m.day < 10 ^ 3 := by
  have hle := hm.day_le
  have hyear := daysIn_le m.year
  omega

theorem hasForm_text (hm : m.Valid scale) (hyear : m.year < 10 ^ 4) :
    HasForm (text m ++ [0]) := by
  have hday := day_lt_thousand hm
  obtain ⟨-, -, hhour, hminute, hsecond, hfraction⟩ := hm
  exact ⟨_, _, _, _, _, _, isNumeral_numeral hyear, isNumeral_numeral hday,
    isNumeral_numeral (by omega), isNumeral_numeral (by omega), isNumeral_numeral (by omega),
    isNumeral_numeral hfraction, rfl⟩

/-- **The texts are ordered as the moments.** -/
theorem text_lt_iff (hm : m.Valid scale) (hm' : m'.Valid scale) (hyear : m.year < 10 ^ 4)
    (hyear' : m'.year < 10 ^ 4) : text m < text m' ↔ m.instant scale < m'.instant scale := by
  have hday := day_lt_thousand hm
  have hday' := day_lt_thousand hm'
  rw [Moment.instant_lt_iff hm hm', Moment.Before, text, text]
  obtain ⟨-, -, hhour, hminute, hsecond, hfraction⟩ := hm
  obtain ⟨-, -, hhour', hminute', hsecond', hfraction'⟩ := hm'
  simp only [append_lt_append_iff, length_numeral, List.cons_lt_cons_self]
  rw [numeral_lt_iff hyear hyear', numeral_eq_iff hyear hyear', numeral_lt_iff hday hday',
    numeral_eq_iff hday hday', numeral_lt_iff (by omega) (by omega),
    numeral_eq_iff (by omega) (by omega), numeral_lt_iff (by omega) (by omega),
    numeral_eq_iff (by omega) (by omega), numeral_lt_iff (by omega) (by omega),
    numeral_eq_iff (by omega) (by omega), numeral_lt_iff hfraction hfraction']

end Text

/-! ## The function -/

def Epoch.moment (epoch : Epoch) : Moment where
  year := epoch.year.toNat
  day := epoch.day.toNat
  hour := epoch.hour.toNat
  minute := epoch.minute.toNat
  second := epoch.second.toNat
  fraction := 0

def tenMicros (time : SysTime) : ℕ :=
  time.ticks * scale / 2 ^ 32

theorem toNat_micros (time : SysTime) :
    (sub2MicroSecs time.subseconds / 10).toNat = time.subseconds.toNat * scale / 2 ^ 32 := by
  rw [UInt32.toNat_div, toNat_sub2MicroSecs]
  change _ / 10 = _
  rw [Nat.div_div_eq_div_mul, scale]
  omega

theorem micros_lt (time : SysTime) : (sub2MicroSecs time.subseconds / 10).toNat < scale := by
  have hword := time.subseconds.toNat_lt
  rw [toNat_micros, scale]
  omega

theorem tenMicros_eq (time : SysTime) :
    tenMicros time =
      time.seconds.toNat * scale + (sub2MicroSecs time.subseconds / 10).toNat := by
  rw [toNat_micros, tenMicros, SysTime.ticks, scale]
  omega

theorem printWithin_eq {epoch : Epoch} (time : SysTime) (hepoch : epoch.moment.Valid scale)
    (hyear : epoch.year.toNat < 9800) {fuel : ℕ} (hfuel : 200 ≤ fuel) :
    ∃ m : Moment, printWithin fuel epoch time = some (text m ++ [0]) ∧ m.Valid scale ∧
      m.year < 10 ^ 4 ∧ m.instant scale = epoch.moment.instant scale + tenMicros time := by
  obtain ⟨hone, hday, hhour, hminute, hsecond, -⟩ := hepoch
  dsimp only [Epoch.moment] at hone hday hhour hminute hsecond
  have hword := time.seconds.toNat_lt
  have hlong := daysIn_le epoch.year.toNat
  have hminutes₀ : (time.seconds / 60).toNat = time.seconds.toNat / 60 := UInt32.toNat_div _ _
  have hseconds₀ : (time.seconds % 60).toNat = time.seconds.toNat % 60 := UInt32.toNat_mod _ _
  have hminutes := toNat_add_of_lt (a := time.seconds / 60) (b := epoch.minute) (by omega)
  have hseconds := toNat_add_of_lt (a := time.seconds % 60) (b := epoch.second) (by omega)
  have hcarries : (time.seconds % 60 + epoch.second).toNat < 60 * 2 := by omega
  obtain ⟨minutes, seconds, hcarry, hsum, hsec⟩ :=
    carrySeconds_eq (show 2 ≤ fuel by omega) hcarries (show _ < _ by rw [hminutes]; omega)
  have hhours₀ : (minutes / 60).toNat = minutes.toNat / 60 := UInt32.toNat_div _ _
  have hhours := toNat_add_of_lt (a := minutes / 60) (b := epoch.hour) (by omega)
  have hdays₀ : ((minutes / 60 + epoch.hour) / 24).toNat =
      (minutes / 60 + epoch.hour).toNat / 24 := UInt32.toNat_div _ _
  have hdays₁ : (epoch.day - 1).toNat = epoch.day.toNat - 1 :=
    UInt32.toNat_sub_of_le _ _ (UInt32.le_iff_toNat_le.mpr hone)
  have hdays := toNat_add_of_lt (a := (minutes / 60 + epoch.hour) / 24) (b := epoch.day - 1)
    (by omega)
  have hyears : ((minutes / 60 + epoch.hour) / 24 + (epoch.day - 1)).toNat < 365 * 200 := by omega
  obtain ⟨years, days, hcount, hkept, hrest, hbound⟩ :=
    countYears_eq hfuel hyears (show epoch.year.toNat + 200 < 2 ^ 32 by omega)
  have hlast := daysIn_le years.toNat
  have hday' := toNat_add_one (n := days) (by omega)
  have hhour' : ((minutes / 60 + epoch.hour) % 24).toNat =
      (minutes / 60 + epoch.hour).toNat % 24 := UInt32.toNat_mod _ _
  have hminute' : (minutes % 60).toNat = minutes.toNat % 60 := UInt32.toNat_mod _ _
  refine ⟨⟨years.toNat, (days + 1).toNat, ((minutes / 60 + epoch.hour) % 24).toNat,
    (minutes % 60).toNat, seconds.toNat, (sub2MicroSecs time.subseconds / 10).toNat⟩,
    ?_, ⟨?_, ?_, ?_, ?_, hsec, micros_lt time⟩, ?_, ?_⟩
  · simp only [printWithin, hcarry, hcount, Option.bind_eq_bind, Option.bind_some, outputString_eq]
  · change 1 ≤ (days + 1).toNat
    omega
  · change (days + 1).toNat ≤ daysIn years.toNat
    omega
  · change ((minutes / 60 + epoch.hour) % 24).toNat < 24
    omega
  · change (minutes % 60).toNat < 60
    omega
  · change years.toNat < 10 ^ 4
    omega
  · -- every division keeps its remainder, and the loops keep their sums
    have hwhole : ((daysBefore years.toNat + ((days + 1).toNat - 1)) * 24 +
          ((minutes / 60 + epoch.hour) % 24).toNat) * 60 + (minutes % 60).toNat =
        ((daysBefore epoch.year.toNat + (epoch.day.toNat - 1)) * 24 + epoch.hour.toNat) * 60 +
          minutes.toNat := by
      omega
    rw [tenMicros_eq, Moment.instant, Moment.instant, Moment.days, Moment.days]
    dsimp only [Epoch.moment]
    rw [hwhole]
    have hseconds' : (((daysBefore epoch.year.toNat + (epoch.day.toNat - 1)) * 24 +
          epoch.hour.toNat) * 60 + minutes.toNat) * 60 + seconds.toNat =
        (((daysBefore epoch.year.toNat + (epoch.day.toNat - 1)) * 24 + epoch.hour.toNat) * 60 +
          epoch.minute.toNat) * 60 + epoch.second.toNat + time.seconds.toNat := by
      omega
    rw [hseconds', Nat.add_mul, Nat.add_zero, Nat.add_assoc]

/-- **What is printed for the epoch of the mission**: the function ends after at most 200 turns of
each of its loops and writes 24 bytes, the text of the calendar moment that is the time after the
epoch. The texts are ordered as the times, truncated to 10 microseconds. -/
theorem print_calendar :
    ∃ moment : SysTime → Moment,
      (∀ time, ∀ fuel ≥ 200,
        printWithin fuel missionTimeEpoch time = some (text (moment time) ++ [0])) ∧
      (∀ time, (text (moment time) ++ [0]).length = 24 ∧ HasForm (text (moment time) ++ [0])) ∧
      (∀ time, (moment time).Valid scale ∧ (moment time).year < 10 ^ 4 ∧
        (moment time).instant scale =
          missionTimeEpoch.moment.instant scale + tenMicros time) ∧
      ∀ time time',
        text (moment time) < text (moment time') ↔ tenMicros time < tenMicros time' := by
  have hepoch : missionTimeEpoch.moment.Valid scale := by
    constructor <;> decide
  have hprint : ∀ fuel ≥ 200, ∀ time, ∃ m : Moment,
      printWithin fuel missionTimeEpoch time = some (text m ++ [0]) ∧ m.Valid scale ∧
        m.year < 10 ^ 4 ∧
        m.instant scale = missionTimeEpoch.moment.instant scale + tenMicros time :=
    fun fuel hfuel time => printWithin_eq time hepoch (by decide) hfuel
  choose moment hwritten hvalid hyear hinstant using hprint 200 le_rfl
  refine ⟨moment, fun time fuel hfuel => ?_,
    fun time => ⟨?_, hasForm_text (hvalid time) (hyear time)⟩,
    fun time => ⟨hvalid time, hyear time, hinstant time⟩, fun time time' => ?_⟩
  · -- an instant has one moment only, whatever the bound on the turns
    obtain ⟨m, hwritten', hvalid', -, hinstant'⟩ := hprint fuel hfuel time
    rw [hwritten', Moment.instant_injective hvalid' (hvalid time)
      (hinstant'.trans (hinstant time).symm)]
  · rw [List.length_append, length_text, List.length_singleton]
  · rw [text_lt_iff (hvalid time) (hvalid time') (hyear time) (hyear time'), hinstant, hinstant]
    omega

end TimeServices
