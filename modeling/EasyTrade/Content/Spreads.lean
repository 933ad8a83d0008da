import EasyTrade.Content.Candles
import Mathlib.Tactic.IntervalCases

/-!
# Well-formed candles

The prices of a candle are spread around its opening by at most twice the difference of its prices,
or of a base difference. The instruments are calm enough for that to leave every price positive.
The opening and the closing stay near the anchors as long as the time of day is not negative.
-/

namespace EasyTrade.Content.Candles

open EasyTrade.Content.Timeline EasyTrade.Numeric

variable {K : Type*} [Field K]

/-! ## The curve between anchors -/

namespace Instrument

/-- The anchors by their number in the day; the last one is the first of the next day. -/
def anchor (i : Instrument K) : ℕ → K
  | 1 => i.time3
  | 2 => i.time6
  | 3 => i.time9
  | 4 => i.time12
  | 5 => i.time15
  | 6 => i.time18
  | 7 => i.time21
  | _ => i.time0

/-- What the branches of the curve are. -/
theorem curve_of_lt (i : Instrument K) {k : ℕ} (day : k < 8) {time : Int}
    (after : 10800 * k < time) (before : time ≤ 10800 * (k + 1)) (other : time ≠ 86400) :
    generatePrecisePricingData time i =
      sectionPrice (i.anchor k) (i.anchor (k + 1)) (time - 10800 * k) := by
  unfold generatePrecisePricingData hourValue
  split_ifs
  · omega
  · obtain rfl : k = 0 := by omega
    simp [anchor]
  · obtain rfl : k = 1 := by omega
    rfl
  · obtain rfl : k = 2 := by omega
    rfl
  · obtain rfl : k = 3 := by omega
    rfl
  · obtain rfl : k = 4 := by omega
    rfl
  · obtain rfl : k = 5 := by omega
    rfl
  · obtain rfl : k = 6 := by omega
    rfl
  · obtain rfl : k = 7 := by omega
    rfl

variable [LinearOrder K] [IsStrictOrderedRing K]

omit [LinearOrder K] [IsStrictOrderedRing K] in
@[simp] theorem sectionPrice_zero (a b : K) : sectionPrice a b 0 = a := by
  simp [sectionPrice]

@[simp] theorem sectionPrice_whole (a b : K) : sectionPrice a b 10800 = b :=
  along_length a b (by norm_num [hourValue])

/-- Between two anchors the curve is the line between them. -/
theorem curve_eq (i : Instrument K) {k : ℕ} (day : k < 8) {time : Int} (after : 10800 * k ≤ time)
    (before : time ≤ 10800 * (k + 1)) :
    generatePrecisePricingData time i =
      sectionPrice (i.anchor k) (i.anchor (k + 1)) (time - 10800 * k) := by
  rcases eq_or_ne time 86400 with midnight | other
  · have last : k = 7 := by omega
    subst midnight last
    have whole : (86400 - 10800 * ((7 : ℕ) : Int)) = 10800 := by decide
    rw [whole, sectionPrice_whole]
    rfl
  rcases eq_or_lt_of_le after with start | inside
  · -- At an anchor the branch is that of the line before it.
    subst start
    rw [sub_self, sectionPrice_zero]
    cases k with
    | zero => rfl
    | succ k =>
      rw [i.curve_of_lt (Nat.lt_of_succ_lt day) (by omega) (by omega) other]
      have whole : 10800 * ((k + 1 : ℕ) : Int) - 10800 * k = 10800 := by omega
      rw [whole, sectionPrice_whole]
  · exact i.curve_of_lt day inside before other

/-! ## Bounds -/

/-- The smallest anchor. -/
def lowest (i : Instrument K) : K :=
  min i.time0 (min i.time3 (min i.time6 (min i.time9
    (min i.time12 (min i.time15 (min i.time18 i.time21))))))

/-- The largest anchor. -/
def highest (i : Instrument K) : K :=
  max i.time0 (max i.time3 (max i.time6 (max i.time9
    (max i.time12 (max i.time15 (max i.time18 i.time21))))))

omit [Field K] [IsStrictOrderedRing K] in
theorem anchor_mem (i : Instrument K) (k : ℕ) : i.anchor k ∈ Set.Icc i.lowest i.highest := by
  unfold anchor
  split <;> simp only [Set.mem_Icc, lowest, highest, min_le_iff, le_max_iff, le_refl, true_or,
    or_true, and_self]

omit [Field K] [IsStrictOrderedRing K] in
theorem le_lowest {i : Instrument K} {low : K} (below : ∀ k, low ≤ i.anchor k) : low ≤ i.lowest := by
  simp only [lowest, le_min_iff]
  exact ⟨below 0, below 1, below 2, below 3, below 4, below 5, below 6, below 7⟩

omit [Field K] [IsStrictOrderedRing K] in
theorem highest_le {i : Instrument K} {high : K} (above : ∀ k, i.anchor k ≤ high) :
    i.highest ≤ high := by
  simp only [highest, max_le_iff]
  exact ⟨above 0, above 1, above 2, above 3, above 4, above 5, above 6, above 7⟩

/-- How far sixty seconds on the last line lead. -/
def beyond (i : Instrument K) : K := |i.time0 - i.time21| / 180

theorem beyond_nonneg (i : Instrument K) : 0 ≤ i.beyond :=
  div_nonneg (abs_nonneg _) (by norm_num)

/-- During the day the curve is between the anchors. -/
theorem curve_mem (i : Instrument K) {time : Int} (after : 0 ≤ time) (before : time ≤ 86400) :
    generatePrecisePricingData time i ∈ Set.Icc i.lowest i.highest := by
  have section_ : ∃ k : ℕ, k < 8 ∧ 10800 * (k : Int) ≤ time ∧ time ≤ 10800 * (k + 1) := by
    rcases eq_or_lt_of_le before with midnight | inside
    · exact ⟨7, by omega, by omega, by omega⟩
    · exact ⟨(time / 10800).toNat, by omega, by omega, by omega⟩
  obtain ⟨k, day, start, stop⟩ := section_
  rw [i.curve_eq day start stop]
  refine along_mem (by norm_num [hourValue]) ?_ ?_ (i.anchor_mem k) (i.anchor_mem (k + 1))
  · exact_mod_cast Int.sub_nonneg_of_le start
  · have inside : time - 10800 * k ≤ hourValue 3 := by
      simp only [hourValue]
      omega
    exact_mod_cast inside

/-- Up to a minute beyond midnight the curve is that near the anchors. -/
theorem curve_beyond (i : Instrument K) {time : Int} (after : 86400 < time)
    (before : time ≤ 86460) :
    generatePrecisePricingData time i ∈
      Set.Icc (i.lowest - i.beyond) (i.highest + i.beyond) := by
  rw [generatePrecisePricingData_of_lt i (by omega) (by omega), sectionPrice_eq]
  have past : (0 : K) ≤ ((time - 86400 : Int) : K) / 60 :=
    div_nonneg (by exact_mod_cast (by omega : 0 ≤ time - 86400)) (by norm_num)
  have within : ((time - 86400 : Int) : K) / 60 ≤ 1 := by
    rw [div_le_one (by norm_num)]
    exact_mod_cast (by omega : time - 86400 ≤ 60)
  have split : i.time21 + (i.time0 - i.time21) / 10800 * ((time - 75600 : Int) : K) =
      i.time0 + (i.time0 - i.time21) / 180 * (((time - 86400 : Int) : K) / 60) := by
    push_cast
    ring
  have slope : |(i.time0 - i.time21) / 180 * (((time - 86400 : Int) : K) / 60)| ≤ i.beyond := by
    rw [abs_mul, abs_of_nonneg past, abs_div, abs_of_pos (by norm_num : (0 : K) < 180)]
    exact mul_le_of_le_one_right i.beyond_nonneg within
  have anchor := i.anchor_mem 0
  rw [split]
  obtain ⟨down, up⟩ := abs_le.mp slope
  exact ⟨by linarith [anchor.1, show i.anchor 0 = i.time0 from rfl],
    by linarith [anchor.2, show i.anchor 0 = i.time0 from rfl]⟩

/-- The most that the curve can move in a minute of the day. -/
def pace (i : Instrument K) : K := (i.highest - i.lowest) / 180

/-- How far a line between two anchors leads in a time. -/
theorem abs_slope_le (i : Instrument K) (k l : ℕ) {t : K} (after : 0 ≤ t) :
    |(i.anchor k - i.anchor l) / 10800 * t| ≤ i.pace * (t / 60) := by
  have slope := rise_le (by norm_num : (0 : K) < 10800) (i.anchor_mem l) (i.anchor_mem k) after
  have slope' := neg_le_rise (by norm_num : (0 : K) < 10800) (i.anchor_mem l) (i.anchor_mem k) after
  have same : i.pace * (t / 60) = (i.highest - i.lowest) / 10800 * t := by
    rw [pace]
    ring
  rw [same]
  exact abs_le.mpr ⟨slope', slope⟩

/-- Within a minute of the day the curve moves by at most that. -/
theorem abs_minute_le (i : Instrument K) {time : Int} (after : 0 ≤ time) (before : time < 86400) :
    |generatePrecisePricingData (time + 60) i - generatePrecisePricingData time i| ≤ i.pace := by
  obtain ⟨k, day, start, stop⟩ :
      ∃ k : ℕ, k < 8 ∧ 10800 * (k : Int) ≤ time ∧ time < 10800 * (k + 1) :=
    ⟨(time / 10800).toNat, by omega, by omega, by omega⟩
  have minute : i.pace * ((60 : K) / 60) = i.pace := by rw [div_self (by norm_num), mul_one]
  rcases le_or_gt (time + 60) (10800 * (k + 1)) with inside | outside
  · -- The minute is on one line.
    have slope := i.abs_slope_le (k + 1) k (by norm_num : (0 : K) ≤ 60)
    rw [minute] at slope
    rw [i.curve_eq day (by omega) inside, i.curve_eq day start stop.le, sectionPrice_eq,
      sectionPrice_eq]
    convert slope using 2
    push_cast
    ring
  · -- The minute goes on to the next line, or beyond the last one.
    have rest : (0 : K) ≤ ((10800 * (k + 1) - time : Int) : K) := by
      exact_mod_cast (by omega : (0 : Int) ≤ 10800 * (k + 1) - time)
    have more : (0 : K) ≤ ((time + 60 - 10800 * (k + 1) : Int) : K) := by
      exact_mod_cast (by omega : (0 : Int) ≤ time + 60 - 10800 * (k + 1))
    have whole : ((10800 * (k + 1) - time : Int) : K) + ((time + 60 - 10800 * (k + 1) : Int) : K) =
        60 := by
      push_cast
      ring
    have first := i.abs_slope_le (k + 1) k rest
    obtain ⟨l, m, next⟩ : ∃ l m : ℕ, generatePrecisePricingData (time + 60) i =
        i.anchor (k + 1) + (i.anchor l - i.anchor m) / 10800 *
          ((time + 60 - 10800 * (k + 1) : Int) : K) := by
      rcases Nat.lt_or_ge (k + 1) 8 with within | last
      · refine ⟨k + 2, k + 1, ?_⟩
        rw [i.curve_eq within (by omega) (by omega), sectionPrice_eq]
        push_cast
        ring
      · obtain rfl : k = 7 := by omega
        refine ⟨8, 7, ?_⟩
        rw [generatePrecisePricingData_of_lt i (by omega) (by omega), sectionPrice_eq]
        change i.time21 + (i.time0 - i.time21) / 10800 * _ =
          i.time0 + (i.time0 - i.time21) / 10800 * _
        push_cast
        ring
    have second := i.abs_slope_le l m more
    have split : generatePrecisePricingData (time + 60) i - generatePrecisePricingData time i =
        (i.anchor (k + 1) - i.anchor k) / 10800 * ((10800 * (k + 1) - time : Int) : K) +
          (i.anchor l - i.anchor m) / 10800 * ((time + 60 - 10800 * (k + 1) : Int) : K) := by
      rw [next, i.curve_eq day start stop.le, sectionPrice_eq]
      push_cast
      ring
    have sum : i.pace * (((10800 * (k + 1) - time : Int) : K) / 60) +
        i.pace * (((time + 60 - 10800 * (k + 1) : Int) : K) / 60) = i.pace := by
      rw [← mul_add, ← add_div, whole, minute]
    rw [split]
    exact ((abs_add_le _ _).trans (add_le_add first second)).trans_eq sum

/-! ## Calm instruments -/

/-- What keeps the prices of an instrument positive. -/
structure Calm (i : Instrument K) : Prop where
  positive : 0 < i.time0
  base_nonneg : 0 ≤ i.baseDifference
  base_le : 16 * i.baseDifference ≤ i.time0
  /-- Backwards, the first line stays positive for a day. -/
  rise_le : 10 * (i.time3 - i.time0) ≤ i.time0
  near : ∀ k, i.time0 ≤ 2 * i.anchor k ∧ i.anchor k ≤ 2 * i.time0

theorem near_constants (instrument : Instruments) (k : ℕ) :
    (constants instrument : Instrument K).time0 ≤ 2 * (constants instrument).anchor k ∧
      (constants instrument).anchor k ≤ 2 * (constants instrument : Instrument K).time0 := by
  cases instrument <;> unfold anchor <;> split <;> norm_num [constants]

/-- Every instrument of the enumeration is calm. -/
theorem calm_constants (instrument : Instruments) :
    (constants instrument : Instrument K).Calm where
  positive := by cases instrument <;> norm_num [constants]
  base_nonneg := by cases instrument <;> norm_num [constants]
  base_le := by cases instrument <;> norm_num [constants]
  rise_le := by cases instrument <;> norm_num [constants]
  near := near_constants instrument

end Instrument

/-! ## Candles -/

variable [LinearOrder K]

/-- A candle has positive prices in order, and opens and closes near the anchors. -/
structure Pricing.WellFormed (i : Instrument K) (p : Pricing K) : Prop where
  low_pos : 0 < p.low
  low_le : p.low ≤ min p.opening p.closing
  le_high : max p.opening p.closing ≤ p.high
  opening_mem : p.opening ∈ Set.Icc (i.lowest - i.beyond) (i.highest + i.beyond)
  closing_mem : p.closing ∈ Set.Icc (i.lowest - i.beyond) (i.highest + i.beyond)

/-- The time of day is not negative, or so little that the first line backwards is near the
anchors there. -/
def Within (i : Instrument K) (second : Int) : Prop :=
  0 ≤ second ∨
    (i.time3 - i.time0) * ((-second : Int) : K) ≤ (i.time0 - (i.lowest - i.beyond)) * (10800 : ℕ) ∧
    (i.time0 - i.time3) * ((-second : Int) : K) ≤ (i.highest + i.beyond - i.time0) * (10800 : ℕ)

instance (i : Instrument K) (second : Int) : Decidable (Within i second) :=
  inferInstanceAs (Decidable (_ ∨ _ ∧ _))

variable [IsStrictOrderedRing K]

omit [IsStrictOrderedRing K] in
theorem foldl_min_pos {values : List K} {first : K} (positive : 0 < first)
    (all : ∀ value ∈ values, 0 < value) : 0 < values.foldl min first := by
  induction values generalizing first with
  | nil => exact positive
  | cons value values ih =>
    rw [List.foldl_cons]
    exact ih (lt_min positive (all value (List.mem_cons_self ..)))
      fun other listed => all other (List.mem_cons_of_mem _ listed)

/-- The spread leaves the prices positive if it is less than the opening. -/
theorem low_generateCandleData_pos {draws : ℕ → K} (unit : ∀ n, 0 ≤ draws n ∧ draws n < 1)
    {time : Int} {i : Instrument K} (base : 0 ≤ i.baseDifference)
    (closing : 0 < generatePrecisePricingData (time + 60) i)
    (baseSpread : 2 * i.baseDifference < generatePrecisePricingData time i)
    (spread : 2 * (generatePrecisePricingData (time + 60) i - generatePrecisePricingData time i) <
      generatePrecisePricingData time i) :
    0 < (generateCandleData draws time i).low := by
  have opening : 0 < generatePrecisePricingData time i := by linarith
  have spreadAll : ∀ difference : K, 0 ≤ difference →
      2 * difference < generatePrecisePricingData time i → ∀ n,
      0 < generatePrecisePricingData time i + (draws n * 4 - 2) * difference :=
    fun difference nonneg small n => by
      have drawn : 0 ≤ draws n * difference := mul_nonneg (unit n).1 nonneg
      linarith
  refine lt_min (lt_min ?_ opening) closing
  have all : ∀ value ∈ (List.range 60).map fun n => generatePrecisePricingData time i +
      (draws n * 4 - 2) * (if generatePrecisePricingData (time + 60) i -
        generatePrecisePricingData time i < i.baseDifference then i.baseDifference
        else generatePrecisePricingData (time + 60) i - generatePrecisePricingData time i),
      0 < value := fun value listed => by
    obtain ⟨n, -, rfl⟩ := List.mem_map.mp listed
    split_ifs with calm
    · exact spreadAll _ base baseSpread n
    · exact spreadAll _ (base.trans (not_lt.mp calm)) spread n
  exact foldl_min_pos (all _ (List.mem_map_of_mem (List.mem_range.mpr (by decide : 0 < 60)))) all

section Prices

variable {i : Instrument K} {second : Int}

/-- The low price of a calm instrument is positive, at negative times too. -/
theorem Instrument.Calm.low_pos (calm : i.Calm) {draws : ℕ → K}
    (unit : ∀ n, 0 ≤ draws n ∧ draws n < 1) (day : -86400 < second ∧ second < 86400) :
    0 < (generateCandleData draws second i).low := by
  have positive := calm.positive
  have base := calm.base_le
  have rise := calm.rise_le
  have third := (calm.near 1)
  simp only [Instrument.anchor] at third
  rcases lt_or_ge second 0 with negative | nonneg
  · -- Both prices are on the first line.
    have opening := generatePrecisePricingData_of_le i (show second ≤ 10800 by omega)
    have closing := generatePrecisePricingData_of_le i (show second + 60 ≤ 10800 by omega)
    rw [sectionPrice_eq] at opening closing
    have rest : ((second + 60 : Int) : K) = second + 60 := by push_cast; rfl
    have before : (-86400 : K) < second := by exact_mod_cast day.1
    have below : (second : K) < 0 := by exact_mod_cast negative
    rw [rest] at closing
    have step : generatePrecisePricingData (second + 60) i =
        generatePrecisePricingData second i + (i.time3 - i.time0) / 180 := by
      rw [opening, closing]
      ring
    have high : i.time0 / 5 ≤ generatePrecisePricingData second i ∧
        (i.time3 ≤ i.time0 → i.time0 ≤ generatePrecisePricingData second i) := by
      rw [opening]
      rcases le_total i.time3 i.time0 with falls | rises
      · have up : 0 ≤ (i.time3 - i.time0) / 10800 * second :=
          mul_nonneg_of_nonpos_of_nonpos (by linarith) below.le
        exact ⟨by linarith, fun _ => by linarith⟩
      · have down : (i.time3 - i.time0) / 10800 * (-86400) ≤
            (i.time3 - i.time0) / 10800 * second :=
          mul_le_mul_of_nonneg_left before.le (by linarith)
        refine ⟨by linarith, fun level => ?_⟩
        have same : i.time3 = i.time0 := le_antisymm level rises
        rw [same]
        linarith
    refine low_generateCandleData_pos unit calm.base_nonneg ?_ (by linarith [high.1]) ?_
    · rw [step]
      rcases le_total i.time3 i.time0 with falls | rises
      · linarith [high.2 falls]
      · linarith [high.1]
    · rw [step]
      linarith [high.1]
  · have near : i.time0 / 2 ≤ i.lowest ∧ i.highest ≤ 2 * i.time0 :=
      ⟨Instrument.le_lowest fun k => by linarith [(calm.near k).1],
        Instrument.highest_le fun k => (calm.near k).2⟩
    have opening := i.curve_mem nonneg day.2.le
    have minute := abs_le.mp (i.abs_minute_le nonneg day.2)
    have pace : i.pace ≤ i.time0 / 120 := by
      rw [Instrument.pace]
      linarith [near.1, near.2]
    exact low_generateCandleData_pos unit calm.base_nonneg (by linarith [opening.1, minute.1, near.1])
      (by linarith [opening.1, near.1]) (by linarith [opening.1, minute.2, near.1])

/-- The prices are near the anchors exactly if `Within` says so. -/
theorem opening_closing_mem_iff (day : -86400 < second ∧ second < 86400) :
    generatePrecisePricingData second i ∈ Set.Icc (i.lowest - i.beyond) (i.highest + i.beyond) ∧
      generatePrecisePricingData (second + 60) i ∈
        Set.Icc (i.lowest - i.beyond) (i.highest + i.beyond) ↔ Within i second := by
  have wider : Set.Icc i.lowest i.highest ⊆
      Set.Icc (i.lowest - i.beyond) (i.highest + i.beyond) :=
    Set.Icc_subset_Icc (sub_le_self _ i.beyond_nonneg) (le_add_of_nonneg_right i.beyond_nonneg)
  rcases le_or_gt 0 second with nonneg | negative
  · refine iff_of_true ⟨wider (i.curve_mem nonneg day.2.le), ?_⟩ (Or.inl nonneg)
    rcases le_or_gt (second + 60) 86400 with inside | outside
    · exact wider (i.curve_mem (by omega) inside)
    · exact i.curve_beyond outside (by omega)
  -- The opening decides: the closing is between it and the first anchor.
  have opening := generatePrecisePricingData_of_le i (show second ≤ 10800 by omega)
  rw [sectionPrice_eq] at opening
  have below : (0 : K) < ((-second : Int) : K) := by exact_mod_cast neg_pos.mpr negative
  have turned : i.time0 + (i.time3 - i.time0) / 10800 * (second : K) =
      i.time0 - (i.time3 - i.time0) * ((-second : Int) : K) / 10800 := by
    push_cast
    ring
  have decides : generatePrecisePricingData second i ∈
      Set.Icc (i.lowest - i.beyond) (i.highest + i.beyond) ↔ Within i second := by
    rw [Within, or_iff_right (not_le.mpr negative), opening, turned, Set.mem_Icc, Nat.cast_ofNat]
    constructor
    · rintro ⟨low, high⟩
      constructor <;> linarith
    · rintro ⟨low, high⟩
      constructor <;> linarith
  rw [← decides, and_iff_left_iff_imp]
  intro openingIn
  rcases le_or_gt (second + 60) 0 with inside | outside
  · have closing := generatePrecisePricingData_of_le i (show second + 60 ≤ 10800 by omega)
    have between : generatePrecisePricingData (second + 60) i =
        along (generatePrecisePricingData second i) i.time0 ((-second : Int) : K) 60 := by
      have part : (i.time0 - generatePrecisePricingData second i) / ((-second : Int) : K) =
          (i.time3 - i.time0) / 10800 := by
        rw [div_eq_iff below.ne', opening]
        push_cast
        ring
      rw [along, part, closing, opening, sectionPrice_eq]
      push_cast
      ring
    have minute : (60 : K) ≤ ((-second : Int) : K) := by
      exact_mod_cast (by omega : 60 ≤ -second)
    rw [between]
    exact along_mem below (by norm_num) minute openingIn (wider (i.anchor_mem 0))
  · exact wider (i.curve_mem outside.le (by omega))

end Prices

/-- The candles are well formed exactly if each time of day is not negative, or not so much that
the first line leaves the anchors. -/
theorem candles_wellFormed_iff (instrument : Instruments) (zone date count : Int) {draws : ℕ → K}
    (unit : ∀ n, 0 ≤ draws n ∧ draws n < 1) :
    (∀ p ∈ generateMassivePricingData draws zone date count (constants instrument),
        p.WellFormed (constants instrument)) ↔
      ∀ k : ℕ, k < count →
        Within (constants instrument : Instrument K)
          ((counter (startTime zone date) k).tmod 86400) := by
  have start := startTime_mem zone date
  have int : -2 ^ 31 ≤ startTime zone date ∧ startTime zone date < 2 ^ 31 := by omega
  have candle : ∀ k : ℕ, k < count →
      ∃ p, (generateMassivePricingData draws zone date count (constants instrument))[k]? = some p ∧
        (p.WellFormed (constants instrument) ↔ Within (constants instrument : Instrument K)
          ((counter (startTime zone date) k).tmod 86400)) := fun k within => by
    have day : -86400 < (counter (startTime zone date) k).tmod 86400 ∧
        (counter (startTime zone date) k).tmod 86400 < 86400 :=
      ⟨Int.lt_tmod_of_pos _ (by decide), Int.tmod_lt_of_pos _ (by decide)⟩
    refine ⟨_, getElem?_pricingLoop draws _ (by omega) date int, ?_⟩
    rw [← opening_closing_mem_iff day]
    constructor
    · intro formed
      exact ⟨formed.opening_mem, formed.closing_mem⟩
    · rintro ⟨openingIn, closingIn⟩
      exact
        { low_pos := (Instrument.calm_constants instrument).low_pos (fun n => unit _) day
          low_le := min_le_min_right _ (min_le_right _ _)
          le_high := max_le_max_right _ (le_max_right _ _)
          opening_mem := openingIn
          closing_mem := closingIn }
  constructor
  · intro formed k within
    obtain ⟨p, listed, met⟩ := candle k within
    exact met.mp (formed p (List.mem_of_getElem? listed))
  · intro near p listed
    obtain ⟨k, at_⟩ := List.mem_iff_getElem?.mp listed
    have within : (k : Int) < count := by
      have bound := (List.getElem?_eq_some_iff.mp at_).1
      rw [generateMassivePricingData, length_pricingLoop] at bound
      omega
    obtain ⟨q, there, met⟩ := candle k within
    obtain rfl := Option.some.inj (at_.symm.trans there)
    exact met.mpr (near k within)

theorem candles_wellFormed_of_easyTravel :
    (generateMassivePricingData (fun _ => (1 / 2 : ℚ)) 0 86399000 2
      (constants .easyTravel)).length = 2 ∧
    ∀ p ∈ generateMassivePricingData (fun _ => (1 / 2 : ℚ)) 0 86399000 2 (constants .easyTravel),
      p.WellFormed (constants .easyTravel) := by
  have unit : ∀ _ : ℕ, (0 : ℚ) ≤ 1 / 2 ∧ (1 / 2 : ℚ) < 1 := fun _ => by norm_num
  refine ⟨rfl, (candles_wellFormed_iff .easyTravel 0 86399000 2 unit).mpr fun k within => ?_⟩
  have start : startTime 0 86399000 = 86399 := by decide
  rw [start, counter_of_lt (by decide) (by omega), tmod_of_nonneg (by omega)]
  left
  omega

/-- The day after the counter has overflowed a candle opens far below every anchor. -/
theorem candle_leaves_anchors :
    ¬∀ (instrument : Instruments) (zone date count : Int) (draws : ℕ → ℚ),
      (∀ n, 0 ≤ draws n ∧ draws n < 1) →
      ∀ p ∈ generateMassivePricingData draws zone date count (constants instrument),
        p.WellFormed (constants instrument) := by
  intro formed
  have unit : ∀ _ : ℕ, (0 : ℚ) ≤ 1 / 2 ∧ (1 / 2 : ℚ) < 1 := fun _ => by norm_num
  have start : startTime 0 0 = 0 := by decide
  have second : (counter 0 35791589).tmod 86400 = -86356 := by decide
  have candle := getElem?_pricingLoop (fun _ => (1 / 2 : ℚ)) (constants .easyTravel)
    (show 35791589 < (35791590 : Int).toNat by omega) 0 (show -2 ^ 31 ≤ startTime 0 0 ∧ _ by omega)
  rw [start, second] at candle
  have near := (formed .easyTravel 0 0 35791590 _ unit _ (List.mem_of_getElem? candle)).opening_mem.1
  change _ ≤ generatePrecisePricingData (-86356) (constants .easyTravel) at near
  rw [generatePrecisePricingData_of_le _ (by decide), sectionPrice_eq] at near
  norm_num [Instrument.lowest, Instrument.beyond, constants] at near

end EasyTrade.Content.Candles
