import EasyTrade.Content.Timeline
import EasyTrade.Numeric.Line
import Mathlib.Data.List.Chain

/-!
# Candles

`PricingDataGenerator`. The price of an instrument follows a curve over the day: straight lines
between eight anchors three hours apart. A candle opens on the curve and closes where the curve is
a minute later. The second of the day is counted in an `int` of 32 bits that is reduced to a day
only when it is read; the minute that closes a candle is added after that.

Prices are of an arbitrary ordered field. Times are in milliseconds.
-/

namespace EasyTrade.Content.Candles

open EasyTrade.Content.Timeline EasyTrade.Numeric

variable {K : Type*} [Field K]

/-! ## The curve -/

/-- What an instrument of `Instruments` holds. -/
structure Instrument (K : Type*) where
  instrumentId : Int
  time0 : K
  time3 : K
  time6 : K
  time9 : K
  time12 : K
  time15 : K
  time18 : K
  time21 : K
  baseDifference : K

/-- `Pricing`. -/
structure Pricing (K : Type*) where
  timestamp : Int
  instrumentId : Int
  opening : K
  high : K
  low : K
  closing : K

/-- `HourValues`. -/
def hourValue (hour : Int) : Int := hour * 60 * 60

/-- The price after `sectionTime` of the three hours between two anchors. -/
def sectionPrice (startValue endValue : K) (sectionTime : Int) : K :=
  along startValue endValue (hourValue 3 : Int) sectionTime

/-- `generatePrecisePricingData`. -/
def generatePrecisePricingData (time : Int) (i : Instrument K) : K :=
  if time = hourValue 0 ∨ time = hourValue 24 then i.time0
  else if time ≤ hourValue 3 then sectionPrice i.time0 i.time3 time
  else if time ≤ hourValue 6 then sectionPrice i.time3 i.time6 (time - hourValue 3)
  else if time ≤ hourValue 9 then sectionPrice i.time6 i.time9 (time - hourValue 6)
  else if time ≤ hourValue 12 then sectionPrice i.time9 i.time12 (time - hourValue 9)
  else if time ≤ hourValue 15 then sectionPrice i.time12 i.time15 (time - hourValue 12)
  else if time ≤ hourValue 18 then sectionPrice i.time15 i.time18 (time - hourValue 15)
  else if time ≤ hourValue 21 then sectionPrice i.time18 i.time21 (time - hourValue 18)
  else sectionPrice i.time21 i.time0 (time - hourValue 21)

theorem sectionPrice_eq (startValue endValue : K) (sectionTime : Int) :
    sectionPrice startValue endValue sectionTime =
      startValue + (endValue - startValue) / 10800 * sectionTime := by
  norm_num [sectionPrice, along, hourValue]

/-- Up to three o'clock the price is on the first line, also where the time is negative. -/
theorem generatePrecisePricingData_of_le (i : Instrument K) {time : Int} (early : time ≤ 10800) :
    generatePrecisePricingData time i = sectionPrice i.time0 i.time3 time := by
  by_cases midnight : time = 0
  · subst midnight
    simp [generatePrecisePricingData, hourValue, sectionPrice]
  · have other : ¬(time = hourValue 0 ∨ time = hourValue 24) := by
      simp only [hourValue]
      omega
    have first : time ≤ hourValue 3 := early
    rw [generatePrecisePricingData, if_neg other, if_pos first]

/-- From three o'clock to six the price is on the second line. -/
theorem generatePrecisePricingData_second (i : Instrument K) {time : Int} (after : 10800 < time)
    (before : time ≤ 21600) :
    generatePrecisePricingData time i = sectionPrice i.time3 i.time6 (time - 10800) := by
  have other : ¬(time = hourValue 0 ∨ time = hourValue 24) := by
    simp only [hourValue]
    omega
  have first : ¬time ≤ hourValue 3 := not_le.mpr after
  have second : time ≤ hourValue 6 := before
  rw [generatePrecisePricingData, if_neg other, if_neg first, if_pos second]
  rfl

/-- After nine in the evening the price is on the last line, also where the day is over. -/
theorem generatePrecisePricingData_of_lt (i : Instrument K) {time : Int} (late : 75600 < time)
    (other : time ≠ 86400) :
    generatePrecisePricingData time i = sectionPrice i.time21 i.time0 (time - 75600) := by
  have midnight : ¬(time = hourValue 0 ∨ time = hourValue 24) := by
    simp only [hourValue]
    omega
  have past : ∀ hour ≤ 21, ¬time ≤ hourValue hour := fun hour early => by
    simp only [hourValue]
    omega
  rw [generatePrecisePricingData, if_neg midnight, if_neg (past 3 (by decide)),
    if_neg (past 6 (by decide)), if_neg (past 9 (by decide)), if_neg (past 12 (by decide)),
    if_neg (past 15 (by decide)), if_neg (past 18 (by decide)), if_neg (past 21 (by decide))]
  rfl

theorem generatePrecisePricingData_midnight (i : Instrument K) :
    generatePrecisePricingData 86400 i = generatePrecisePricingData 0 i := by
  simp [generatePrecisePricingData, hourValue]

/-! ## The generator -/

variable [LinearOrder K]

/-- `generateCandleData`; `draws` answers `random.nextDouble()`. -/
def generateCandleData (draws : ℕ → K) (time : Int) (instrument : Instrument K) : Pricing K :=
  let opening := generatePrecisePricingData time instrument
  let closing := generatePrecisePricingData (time + 60) instrument
  let difference := closing - opening
  let difference := if difference < instrument.baseDifference then instrument.baseDifference
    else difference
  let valueList := (List.range 60).map fun i => opening + (draws i * 4 - 2) * difference
  { timestamp := 13
    instrumentId := instrument.instrumentId
    opening := opening
    high := max (max (valueList.foldl max (valueList.headD 0)) opening) closing
    low := min (min (valueList.foldl min (valueList.headD 0)) opening) closing
    closing := closing }

/-- The result of `+` on `int`. -/
def addInt (a b : Int) : Int := (a + b).bmod (2 ^ 32)

/-- The loop of `generateMassivePricingData`; each candle uses up sixty draws. -/
def pricingLoop (draws : ℕ → K) (instrument : Instrument K) :
    ℕ → (time cal : Int) → List (Pricing K)
  | 0, _, _ => []
  | count + 1, time, cal =>
    { generateCandleData draws (time.tmod 86400) instrument with timestamp := cal } ::
      pricingLoop (fun i => draws (i + 60)) instrument count (addInt time 60) (cal + 60000)

/-- `HOUR_OF_DAY`, in a zone that is `zone` ahead. -/
def hourOfDay (zone date : Int) : Int := (date + zone) / 3600000 % 24

/-- `MINUTE`. -/
def minute (zone date : Int) : Int := (date + zone) / 60000 % 60

/-- `SECOND`. -/
def second (zone date : Int) : Int := (date + zone) / 1000 % 60

/-- The second of the day that `generateMassivePricingData` begins with. -/
def startTime (zone date : Int) : Int :=
  hourOfDay zone date * 60 * 60 + minute zone date * 60 + second zone date

/-- `generateMassivePricingData`. -/
def generateMassivePricingData (draws : ℕ → K) (zone date count : Int)
    (instrument : Instrument K) : List (Pricing K) :=
  pricingLoop draws instrument count.toNat (startTime zone date) date

/-- `generateSinglePricingData`. -/
def generateSinglePricingData (draws : ℕ → K) (zone date : Int) (instrument : Instrument K) :
    Pricing K :=
  (generateMassivePricingData draws zone date 1 instrument).head (List.cons_ne_nil _ _)

/-! ## Times -/

theorem startTime_eq (zone date : Int) : startTime zone date = (date + zone) / 1000 % 86400 := by
  simp only [startTime, hourOfDay, minute, second]
  omega

theorem startTime_mem (zone date : Int) : 0 ≤ startTime zone date ∧ startTime zone date < 86400 := by
  rw [startTime_eq]
  omega

/-- A minute later the second of the day is sixty more, or that less a day. -/
theorem startTime_add (zone date : Int) :
    startTime zone (date + 60000) = (startTime zone date + 60) % 86400 := by
  rw [startTime_eq, startTime_eq]
  omega

/-- The counter of the loop at its `i`th candle. -/
def counter (start : Int) (i : ℕ) : Int := (start + 60 * i).bmod (2 ^ 32)

theorem counter_mem (start : Int) (i : ℕ) :
    -2 ^ 31 ≤ counter start i ∧ counter start i < 2 ^ 31 :=
  ⟨Int.le_bmod (by decide), Int.bmod_lt (by decide)⟩

theorem counter_succ (start : Int) (i : ℕ) :
    counter start (i + 1) = addInt (counter start i) 60 := by
  rw [addInt, counter, counter, Int.bmod_add_bmod]
  push_cast
  ring_nf

/-- Until the counter overflows it counts the seconds from the start. -/
theorem counter_of_lt {start : Int} {i : ℕ} (started : 0 ≤ start) (small : start + 60 * i < 2 ^ 31) :
    counter start i = start + 60 * i :=
  Int.bmod_eq_of_le (by omega) (by omega)

/-- The second of the day at a value of the counter that is not negative. -/
theorem tmod_of_nonneg {time : Int} (nonneg : 0 ≤ time) : time.tmod 86400 = time % 86400 :=
  Int.tmod_eq_emod_of_nonneg nonneg

theorem tmod_of_neg {time : Int} (negative : time < 0) : time.tmod 86400 = -(-time % 86400) := by
  have turned : time.tmod 86400 = -(-time).tmod 86400 := by rw [Int.neg_tmod, neg_neg]
  rw [turned, Int.tmod_eq_emod_of_nonneg (by omega)]

/-- The candles of the loop are those of the counter. -/
theorem getElem?_pricingLoop (draws : ℕ → K) (instrument : Instrument K) {count i : ℕ}
    (within : i < count) {time : Int} (cal : Int) (int : -2 ^ 31 ≤ time ∧ time < 2 ^ 31) :
    (pricingLoop draws instrument count time cal)[i]? =
      some { generateCandleData (fun k => draws (k + 60 * i)) ((counter time i).tmod 86400)
        instrument with timestamp := cal + 60000 * i } := by
  induction i generalizing count draws time cal with
  | zero =>
    obtain ⟨count, rfl⟩ := Nat.exists_eq_succ_of_ne_zero (Nat.ne_of_gt within)
    have same : counter time 0 = time := by
      rw [counter, Nat.cast_zero, mul_zero, add_zero]
      exact Int.bmod_eq_of_le (by omega) (by omega)
    simp [pricingLoop, same]
  | succ i ih =>
    obtain ⟨count, rfl⟩ := Nat.exists_eq_succ_of_ne_zero (Nat.ne_of_gt (Nat.zero_lt_of_lt within))
    have next : counter (addInt time 60) i = counter time (i + 1) := by
      simp only [counter, addInt, Int.bmod_add_bmod]
      push_cast
      ring_nf
    rw [pricingLoop, List.getElem?_cons_succ, ih _ (Nat.lt_of_succ_lt_succ within) _
      ⟨Int.le_bmod (by decide), Int.bmod_lt (by decide)⟩, next]
    simp only [Option.some.injEq]
    have shift : ∀ k, k + 60 * i + 60 = k + 60 * (i + 1) := fun k => by ring
    have later : cal + 60000 + 60000 * (i : Int) = cal + 60000 * ((i + 1 : ℕ) : Int) := by
      push_cast
      ring
    simp only [shift, later]

theorem length_pricingLoop (draws : ℕ → K) (instrument : Instrument K) (count : ℕ)
    (time cal : Int) : (pricingLoop draws instrument count time cal).length = count := by
  induction count generalizing draws time cal with
  | zero => rfl
  | succ count ih => rw [pricingLoop, List.length_cons, ih]

/-! ## Where candles join -/

/-- When the candle at a value of the counter closes where the next one opens. Where the
counter is positive, that is so unless the minute goes beyond midnight and the last line is not
as steep as the first. Where it overflows, two prices that have nothing to do with each other
have to be equal. Where it is negative, the first line goes on backwards for a day. -/
def Joins (i : Instrument K) (time : Int) : Prop :=
  let second := time.tmod 86400
  if time < 0 then second + 60 ≤ 0 ∨ 0 < time + 60 ∨ i.time3 = i.time0
  else if 2 ^ 31 ≤ time + 60 then
    i.time3 * 10800 + (i.time6 - i.time3) * ((second - 10740 : Int) : K) =
      i.time0 * 10800 + (i.time3 - i.time0) * ((second - 23236 : Int) : K)
  else second + 60 ≤ 86400 ∨ 2 * i.time0 = i.time3 + i.time21

instance (i : Instrument K) (time : Int) : Decidable (Joins i time) := by
  unfold Joins
  infer_instance

/-- While the counter does not overflow, the candles join if they are on the minute, end before
midnight, or have equally steep lines at midnight. -/
theorem joins_counter_iff (i : Instrument K) {start count : Int} (day : 0 ≤ start ∧ start < 86400)
    (small : start + 60 * count ≤ 2 ^ 31) :
    (∀ k : ℕ, k + 1 < count → Joins i (counter start k)) ↔
      start % 60 = 0 ∨ start + 60 * (count - 1) ≤ 86400 ∨ 2 * i.time0 = i.time3 + i.time21 := by
  have joins : ∀ k : ℕ, k + 1 < count → (Joins i (counter start k) ↔
      (start + 60 * k) % 86400 + 60 ≤ 86400 ∨ 2 * i.time0 = i.time3 + i.time21) :=
    fun k within => by
      rw [counter_of_lt day.1 (by omega), Joins, tmod_of_nonneg (by omega), if_neg (by omega),
        if_neg (by omega)]
  constructor
  · intro joined
    by_contra apart
    push Not at apart
    obtain ⟨seconds, late, steep⟩ := apart
    -- The candle that is open at midnight.
    have last : (((86399 - start) / 60).toNat : Int) = (86399 - start) / 60 :=
      Int.toNat_of_nonneg (by omega)
    have within : (((86399 - start) / 60).toNat : Int) + 1 < count := by omega
    rcases (joins _ within).mp (joined _ within) with before | level
    · omega
    · exact steep level
  · intro met k within
    rw [joins k within]
    rcases met with seconds | early | level
    · exact Or.inl (by omega)
    · exact Or.inl (by omega)
    · exact Or.inr level

section Joining

variable [IsStrictOrderedRing K] (i : Instrument K) {time : Int}

/-- Beyond midnight the curve is what it was a day before if the two lines at midnight are
equally steep. -/
theorem beyond_midnight_iff (after : 86400 < time) (soon : time ≤ 97200) :
    generatePrecisePricingData time i = generatePrecisePricingData (time - 86400) i ↔
      2 * i.time0 = i.time3 + i.time21 := by
  rw [generatePrecisePricingData_of_lt i (by omega) (by omega),
    generatePrecisePricingData_of_le i (by omega), sectionPrice_eq, sectionPrice_eq]
  have past : (0 : K) < time - 86400 := by
    have cast : ((86400 : Int) : K) < time := Int.cast_lt.mpr after
    simpa using cast
  have gap : i.time21 + (i.time0 - i.time21) / 10800 * ((time - 75600 : Int) : K) -
      (i.time0 + (i.time3 - i.time0) / 10800 * ((time - 86400 : Int) : K)) =
      (2 * i.time0 - (i.time3 + i.time21)) / 10800 * (time - 86400) := by
    push_cast
    ring
  rw [← sub_eq_zero, gap, mul_eq_zero, or_iff_left past.ne', div_eq_zero_iff,
    or_iff_left (by norm_num), sub_eq_zero]

/-- A day before, the first line is where it is now only if it is level. -/
theorem day_before_iff (early : time ≤ 10800) :
    generatePrecisePricingData time i = generatePrecisePricingData (time - 86400) i ↔
      i.time3 = i.time0 := by
  rw [generatePrecisePricingData_of_le i early, generatePrecisePricingData_of_le i (by omega),
    sectionPrice_eq, sectionPrice_eq]
  have gap : i.time0 + (i.time3 - i.time0) / 10800 * (time : K) -
      (i.time0 + (i.time3 - i.time0) / 10800 * ((time - 86400 : Int) : K)) =
      (i.time3 - i.time0) * 8 := by
    push_cast
    ring
  rw [← sub_eq_zero, gap, mul_eq_zero, or_iff_left (by norm_num), sub_eq_zero]

/-- The prices on both sides of an overflow. -/
theorem overflow_iff (after : 10740 < time) (before : time ≤ 21540) :
    generatePrecisePricingData (time + 60) i = generatePrecisePricingData (time - 23236) i ↔
      i.time3 * 10800 + (i.time6 - i.time3) * ((time - 10740 : Int) : K) =
        i.time0 * 10800 + (i.time3 - i.time0) * ((time - 23236 : Int) : K) := by
  rw [generatePrecisePricingData_second i (by omega) (by omega),
    generatePrecisePricingData_of_le i (by omega), sectionPrice_eq, sectionPrice_eq]
  have scale : (10800 : K) ≠ 0 := by norm_num
  rw [← mul_left_inj' scale]
  have left : (i.time3 + (i.time6 - i.time3) / 10800 * ((time + 60 - 10800 : Int) : K)) * 10800 =
      i.time3 * 10800 + (i.time6 - i.time3) * ((time - 10740 : Int) : K) := by
    push_cast
    ring
  have right : (i.time0 + (i.time3 - i.time0) / 10800 * ((time - 23236 : Int) : K)) * 10800 =
      i.time0 * 10800 + (i.time3 - i.time0) * ((time - 23236 : Int) : K) := by
    ring
  rw [left, right]

/-- A candle closes where the next one opens exactly if `Joins` says so. -/
theorem joins_iff (int : -2 ^ 31 ≤ time ∧ time < 2 ^ 31) :
    generatePrecisePricingData (time.tmod 86400 + 60) i =
      generatePrecisePricingData ((addInt time 60).tmod 86400) i ↔ Joins i time := by
  rcases lt_or_ge time 0 with negative | nonneg
  · -- The counter has overflown before.
    have next : addInt time 60 = time + 60 := Int.bmod_eq_of_le (by omega) (by omega)
    have second := tmod_of_neg negative
    rw [Joins, if_pos negative, next]
    by_cases inside : time.tmod 86400 + 60 ≤ 0 ∨ 0 < time + 60
    · have same : (time + 60).tmod 86400 = time.tmod 86400 + 60 := by
        rcases lt_or_ge (time + 60) 0 with still | past
        · rw [tmod_of_neg still]
          omega
        · rw [tmod_of_nonneg past]
          omega
      rw [same]
      exact iff_of_true rfl (by tauto)
    · have back : (time + 60).tmod 86400 = time.tmod 86400 + 60 - 86400 := by
        rw [tmod_of_neg (by omega)]
        omega
      rw [back, day_before_iff i (by omega)]
      tauto
  · have second := tmod_of_nonneg nonneg
    rcases lt_or_ge (time + 60) (2 ^ 31) with fits | wraps
    · have next : addInt time 60 = time + 60 := Int.bmod_eq_of_le (by omega) (by omega)
      have nextSecond : (time + 60).tmod 86400 = (time + 60) % 86400 := tmod_of_nonneg (by omega)
      rw [Joins, if_neg (by omega), if_neg (by omega), next]
      rcases lt_trichotomy (time.tmod 86400 + 60) 86400 with day | midnight | past
      · have same : (time + 60).tmod 86400 = time.tmod 86400 + 60 := by omega
        rw [same]
        exact iff_of_true rfl (Or.inl day.le)
      · have first : (time + 60).tmod 86400 = 0 := by omega
        rw [midnight, first]
        exact iff_of_true (generatePrecisePricingData_midnight i) (Or.inl le_rfl)
      · have rest : (time + 60).tmod 86400 = time.tmod 86400 + 60 - 86400 := by omega
        rw [rest, beyond_midnight_iff i past (by omega)]
        exact (or_iff_right (not_le.mpr past)).symm
    · have next : addInt time 60 = time + 60 - 2 ^ 32 := by
        have wrapped : (time + 60 - 2 ^ 32).bmod (2 ^ 32) = time + 60 - 2 ^ 32 :=
          Int.bmod_eq_of_le (by omega) (by omega)
        rw [addInt, ← wrapped]
        exact (Int.sub_bmod_right ..).symm
      have back : (time + 60 - 2 ^ 32).tmod 86400 = time.tmod 86400 - 23236 := by
        rw [tmod_of_neg (by omega)]
        omega
      rw [Joins, if_neg (by omega), if_pos wraps, next, back]
      exact overflow_iff i (by omega) (by omega)

end Joining

/-! ## The instruments -/

/-- The constants of `Instruments`. -/
def constants : Instruments → Instrument K
  | .easyTravel => ⟨1, 150, 157.5, 165, 142.5, 135, 142.5, 135, 157.5, 0.7⟩
  | .easyPlanes => ⟨2, 73, 80, 87, 94, 92, 100, 50, 60, 0.3⟩
  | .easyHotels => ⟨3, 25, 24, 26, 20, 17, 20, 30, 35, 0.1⟩
  | .janGrp => ⟨4, 0.2170, 0.2370, 0.2270, 0.2070, 0.2370, 0.2170, 0.2370, 0.2070, 0.001⟩
  | .corfig => ⟨5, 0.2440, 0.2565, 0.2690, 0.2815, 0.2690, 0.2815, 0.2440, 0.2315, 0.001⟩
  | .cmrtin => ⟨6, 2.1740, 2.0740, 1.9740, 2.0740, 1.8740, 2.0740, 2.2740, 2.3740, 0.01⟩
  | .chamat => ⟨7, 1.1270, 1.1770, 1.2270, 1.2770, 1.3270, 1.2770, 1.2270, 1.1770, 0.01⟩
  | .blstcr => ⟨8, 10.0210, 9.5210, 9.0210, 8.5210, 8.0210, 8.5210, 9.0210, 9.5210, 0.04⟩
  | .cafgal => ⟨9, 4.6130, 4.7830, 4.6130, 4.4430, 4.6130, 4.9530, 4.6130, 4.2730, 0.02⟩
  | .decgrp => ⟨10, 0.8870, 0.8470, 0.9270, 0.8070, 0.9670, 0.7670, 1.0070, 0.7270, 0.005⟩
  | .petban => ⟨11, 4.0950, 3.6950, 4.2950, 4.2950, 3.6950, 3.4950, 3.4950, 3.8950, 0.02⟩
  | .batbat => ⟨12, 8.8910, 9.6910, 8.4910, 8.4910, 8.0910, 9.2910, 9.2910, 8.4910, 0.04⟩
  | .stollc => ⟨13, 0.4620, 0.4820, 0.4420, 0.5020, 0.4220, 0.4820, 0.4420, 0.5020, 0.002⟩
  | .lebrga => ⟨14, 0.1120, 0.0820, 0.1020, 0.0820, 0.0920, 0.0820, 0.0820, 0.1220, 0.0007⟩
  | .moroba => ⟨15, 0.0997, 0.1047, 0.1097, 0.1047, 0.1097, 0.1147, 0.1097, 0.1147, 0.0007⟩

/-! ## The list -/

theorem opening_generateCandleData (draws : ℕ → K) (time : Int) (i : Instrument K) :
    (generateCandleData draws time i).opening = generatePrecisePricingData time i := rfl

theorem closing_generateCandleData (draws : ℕ → K) (time : Int) (i : Instrument K) :
    (generateCandleData draws time i).closing = generatePrecisePricingData (time + 60) i := rfl

theorem generateSinglePricingData_eq (draws : ℕ → K) (zone date : Int) (i : Instrument K) :
    generateSinglePricingData draws zone date i =
      { generateCandleData draws ((startTime zone date).tmod 86400) i with timestamp := date } := rfl

variable [IsStrictOrderedRing K]

/-- The candles of a list join up exactly if each but the last one does, by its counter; two
candles of consecutive minutes do exactly if the first one does. -/
theorem candles_join_iff (zone date count : Int) (i : Instrument K) :
    (∀ draws : ℕ → K,
      (generateMassivePricingData draws zone date count i).IsChain (fun p q =>
          p.closing = q.opening) ↔
        ∀ k : ℕ, k + 1 < count → Joins i (counter (startTime zone date) k)) ∧
    ∀ draws draws' : ℕ → K,
      (generateSinglePricingData draws zone date i).closing =
          (generateSinglePricingData draws' zone (date + 60000) i).opening ↔
        startTime zone date ≤ 86340 ∨ 2 * i.time0 = i.time3 + i.time21 := by
  have start := startTime_mem zone date
  have int : -2 ^ 31 ≤ startTime zone date ∧ startTime zone date < 2 ^ 31 := by omega
  constructor
  · intro draws
    have length : (generateMassivePricingData draws zone date count i).length = count.toNat :=
      length_pricingLoop ..
    have each : ∀ (k : ℕ) (within : k + 1 < count.toNat),
        ((generateMassivePricingData draws zone date count i)[k].closing =
          (generateMassivePricingData draws zone date count i)[k + 1].opening ↔
        Joins i (counter (startTime zone date) k)) := fun k within => by
      have one := getElem?_pricingLoop draws i (Nat.lt_of_succ_lt within) date int
      have next := getElem?_pricingLoop draws i within date int
      rw [counter_succ] at next
      have joins := joins_iff i (counter_mem (startTime zone date) k)
      have eq := (List.getElem?_eq_some_iff.mp one).2
      have eq' := (List.getElem?_eq_some_iff.mp next).2
      simp only [generateMassivePricingData, eq, eq']
      exact joins
    rw [List.isChain_iff_getElem]
    constructor
    · intro joined k within
      exact (each k (by omega)).mp (joined k (by omega))
    · intro joined k within
      exact (each k (by omega)).mpr (joined k (by omega))
  · intro draws draws'
    have joins := joins_iff i int
    have next : addInt (startTime zone date) 60 = startTime zone date + 60 :=
      Int.bmod_eq_of_le (by omega) (by omega)
    have second := tmod_of_nonneg start.1
    have second' := tmod_of_nonneg (startTime_mem zone (date + 60000)).1
    have here : (startTime zone date + 60).tmod 86400 = (startTime zone date + 60) % 86400 :=
      tmod_of_nonneg (by omega)
    rw [generateSinglePricingData_eq, generateSinglePricingData_eq]
    change generatePrecisePricingData _ i = generatePrecisePricingData _ i ↔ _
    rw [second', startTime_add, Int.emod_emod, ← here, ← next, joins, Joins, if_neg (by omega),
      if_neg (by omega)]
    have bound : (startTime zone date).tmod 86400 + 60 ≤ 86400 ↔ startTime zone date ≤ 86340 := by
      omega
    rw [bound]

theorem candles_join_of_batbat :
    (generateMassivePricingData (fun _ => (0 : ℚ)) 0 86280000 4 (constants .batbat)).IsChain
      fun p q => p.closing = q.opening := by
  have joins := (candles_join_iff 0 86280000 4 (constants .batbat)).1 fun _ => (0 : ℚ)
  have start : startTime 0 86280000 = 86280 := by decide
  rw [joins, start, joins_counter_iff _ (by decide) (by norm_num)]
  exact Or.inl (by decide)

/-- Over midnight, a candle that opens a second before it does not join. -/
theorem candles_apart_at_midnight :
    ¬∀ (draws : ℕ → ℚ) (zone date count : Int) (i : Instrument ℚ),
      (generateMassivePricingData draws zone date count i).IsChain (fun p q =>
        p.closing = q.opening) ∧
      (generateSinglePricingData draws zone date i).closing =
        (generateSinglePricingData draws zone (date + 60000) i).opening := by
  intro joined
  have single := (joined (fun _ => 0) 0 86399000 2 (constants .batbat)).2
  revert single
  decide +kernel

end EasyTrade.Content.Candles
