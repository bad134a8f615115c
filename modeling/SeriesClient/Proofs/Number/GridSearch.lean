import SeriesClient.Proofs.Number.Rounding

/-! The search for a decimal over ever finer grids. On each grid it looks at the two neighbours of
the value only, and finds a point of the interval if the grid has one; the point it takes is the
nearest. The 17th grid is so fine that every float has one there. -/
namespace SeriesClient.Number

section Powers

theorem zpow_mul_pow_toNat_neg {base : ℚ} (some : base ≠ 0) (exponent : ℤ) :
    base ^ exponent * base ^ (-exponent).toNat = base ^ exponent.toNat := by
  rw [← zpow_natCast, ← zpow_natCast, ← zpow_add₀ some]
  congr 1
  omega

theorem digitCount_pos (n : Nat) : 0 < digitCount n := Nat.length_toDigits_pos

theorem lt_pow_digitCount (n : Nat) : n < 10 ^ digitCount n :=
  (Nat.length_toDigits_le_iff (by decide) (digitCount_pos n)).mp le_rfl

theorem pow_digitCount_le {n : Nat} (some : 0 < n) : 10 ^ (digitCount n - 1) ≤ n := by
  rcases Nat.eq_zero_or_pos (digitCount n - 1) with one | more
  · rw [one]
    exact some
  · by_contra less
    have few := (Nat.length_toDigits_le_iff (b := 10) (by decide) more).mpr (not_le.mp less)
    have short : digitCount n ≤ digitCount n - 1 := few
    omega

theorem digitCount_eq {n k : Nat} (low : 10 ^ k ≤ n) (high : n < 10 ^ (k + 1)) :
    digitCount n = k + 1 := by
  have least := (Nat.pow_lt_pow_iff_right (by decide)).mp (low.trans_lt (lt_pow_digitCount n))
  have most := (Nat.length_toDigits_le_iff (by decide) (Nat.succ_pos k)).mpr high
  exact le_antisymm most least

theorem digitCount_of_digit {n : Nat} (some : 0 < n) (digit : n < 10) : digitCount n = 1 :=
  digitCount_eq (k := 0) some digit

/-- The digits of a quotient before the point. -/
theorem digitCount_div {whole step : Nat} (one : 0 < step) (large : step ≤ whole) :
    10 ^ (digitCount (whole / step) - 1) * step ≤ whole ∧
      whole < 10 ^ digitCount (whole / step) * step := by
  constructor
  · exact (Nat.le_div_iff_mul_le one).mp (pow_digitCount_le (Nat.div_pos large one))
  · exact (Nat.div_lt_iff_lt_mul one).mp (lt_pow_digitCount _)

/-- A quotient below one, by the part of its inverse before the point. -/
theorem inverse_bounds {small great : Nat} (some : 0 < small) (less : small < great) :
    0 < (great + small - 1) / small - 1 ∧
      ((great + small - 1) / small - 1) * small < great ∧
      great ≤ ((great + small - 1) / small - 1 + 1) * small := by
  have floor := Nat.div_mul_le_self (great + small - 1) small
  have next := Nat.lt_mul_div_succ (great + small - 1) some
  rw [Nat.mul_comm] at next
  have two : 2 ≤ (great + small - 1) / small := (Nat.le_div_iff_mul_le some).mpr (by omega)
  obtain ⟨more, count⟩ := Nat.exists_eq_add_of_le' two
  have step := Nat.succ_mul (more + 1) small
  have step' := Nat.succ_mul (more + 2) small
  rw [count] at floor next ⊢
  rw [show more + 2 - 1 = more + 1 from rfl]
  simp only [Nat.succ_eq_add_one, add_assoc, Nat.reduceAdd] at *
  refine ⟨by omega, by omega, by omega⟩

/-- The digits before the point of its inverse. -/
theorem digitCount_inverse {small great : Nat} (some : 0 < small) (less : small < great) :
    10 ^ (digitCount ((great + small - 1) / small - 1) - 1) * small < great ∧
      great ≤ 10 ^ digitCount ((great + small - 1) / small - 1) * small := by
  obtain ⟨digit, below, above⟩ := inverse_bounds some less
  constructor
  · exact (Nat.mul_le_mul_right small (pow_digitCount_le digit)).trans_lt below
  · exact above.trans (Nat.mul_le_mul_right small (lt_pow_digitCount _))

end Powers

namespace Interval
variable {range : Interval} {place : Int} {tie : Tie}

/-- The common scale of the interval and the grid. -/
def unit (range : Interval) (place : Int) : ℚ :=
  2 ^ (-range.exponent).toNat * 10 ^ (-place).toNat

theorem unit_pos (range : Interval) (place : Int) : 0 < range.unit place := by
  rw [unit]
  positivity

theorem scale_eq (range : Interval) (place : Int) :
    (range.scale place : ℚ) = 2 ^ range.exponent * range.unit place := by
  rw [scale, unit, ← mul_assoc, zpow_mul_pow_toNat_neg (by norm_num), Nat.one_shiftLeft,
    Nat.pow_eq]
  push_cast
  rfl

theorem step_eq (range : Interval) (place : Int) :
    (range.step place : ℚ) = 10 ^ place * range.unit place := by
  rw [step, unit, mul_left_comm, zpow_mul_pow_toNat_neg (by norm_num), Nat.one_shiftLeft,
    Nat.pow_eq]
  push_cast
  rfl

theorem scale_pos (range : Interval) (place : Int) : 0 < range.scale place := by
  have positive : (0 : ℚ) < range.scale place := by
    rw [scale_eq]
    exact mul_pos (by positivity) (range.unit_pos place)
  exact_mod_cast positive

theorem step_pos (range : Interval) (place : Int) : 0 < range.step place := by
  have positive : (0 : ℚ) < range.step place := by
    rw [step_eq]
    exact mul_pos (by positivity) (range.unit_pos place)
  exact_mod_cast positive

theorem scaled_le_iff (range : Interval) (place : Int) (ends point : Nat) :
    ends * range.scale place ≤ point * range.step place ↔
    (ends * 2 ^ range.exponent : ℚ) ≤ point * 10 ^ place := by
  rw [← Nat.cast_le (α := ℚ), Nat.cast_mul, Nat.cast_mul, scale_eq, step_eq, ← mul_assoc,
    ← mul_assoc, mul_le_mul_iff_left₀ (range.unit_pos place)]

theorem scaled_ge_iff (range : Interval) (place : Int) (ends point : Nat) :
    point * range.step place ≤ ends * range.scale place ↔
    (point * 10 ^ place : ℚ) ≤ ends * 2 ^ range.exponent := by
  rw [← Nat.cast_le (α := ℚ), Nat.cast_mul, Nat.cast_mul, scale_eq, step_eq, ← mul_assoc,
    ← mul_assoc, mul_le_mul_iff_left₀ (range.unit_pos place)]

theorem contains_iff (range : Interval) (place : Int) (point : Nat) :
    range.contains place point = true ↔ range.Holds (point * 10 ^ place) := by
  have low := range.scaled_le_iff place range.low point
  have low' := range.scaled_ge_iff place range.low point
  have high := range.scaled_le_iff place range.high point
  have high' := range.scaled_ge_iff place range.high point
  rw [contains, Holds]
  cases range.closed with
  | true => simp [low, high']
  | false =>
    simp only [Bool.false_eq_true, if_false, Bool.and_eq_true, decide_eq_true_eq]
    rw [← not_le, ← not_le, low', high, not_le, not_le]

/-- The value lies inside, and zero outside. -/
structure Proper (range : Interval) : Prop where
  some : 0 < range.low
  low : range.low < range.quarters
  high : range.quarters < range.high

theorem proper_ofFinite {significand : Nat} (some : 0 < significand) (exponent : Int)
    (edge : Bool) : (ofFinite significand exponent edge).Proper := by
  constructor <;> dsimp only [ofFinite]
  · split <;> omega
  · split <;> omega
  · omega

/-- With a number the interval holds all others up to its value. -/
theorem Holds.toward (proper : range.Proper) {x y : ℚ} (holds : range.Holds x)
    (between : x ≤ y ∧ y ≤ range.value ∨ range.value ≤ y ∧ y ≤ x) : range.Holds y := by
  have unit : (0 : ℚ) < 2 ^ range.exponent := by positivity
  have low : (range.low * 2 ^ range.exponent : ℚ) < range.value :=
    mul_lt_mul_of_pos_right (by exact_mod_cast proper.low) unit
  have high : range.value < (range.high * 2 ^ range.exponent : ℚ) :=
    mul_lt_mul_of_pos_right (by exact_mod_cast proper.high) unit
  rw [Holds] at holds ⊢
  split_ifs at holds ⊢ <;> rcases between with between | between <;> constructor <;> linarith

theorem Proper.le_low (proper : range.Proper) {x : ℚ} (less : x ≤ range.value)
    (out : ¬ range.Holds x) : x ≤ range.low * 2 ^ range.exponent := by
  have high : range.value < (range.high * 2 ^ range.exponent : ℚ) :=
    mul_lt_mul_of_pos_right (by exact_mod_cast proper.high) (by positivity)
  by_contra inside
  rw [not_le] at inside
  refine out ?_
  rw [Holds]
  split <;> constructor <;> linarith

theorem Proper.high_le (proper : range.Proper) {x : ℚ} (greater : range.value ≤ x)
    (out : ¬ range.Holds x) : range.high * 2 ^ range.exponent ≤ x := by
  have low : (range.low * 2 ^ range.exponent : ℚ) < range.value :=
    mul_lt_mul_of_pos_right (by exact_mod_cast proper.low) (by positivity)
  by_contra inside
  rw [not_le] at inside
  refine out ?_
  rw [Holds]
  split <;> constructor <;> linarith

theorem Proper.not_holds_zero (proper : range.Proper) : ¬ range.Holds 0 := by
  intro holds
  have low : (0 : ℚ) < range.low * 2 ^ range.exponent :=
    mul_pos (by exact_mod_cast proper.some) (by positivity)
  exact absurd holds.within.1 (not_le.mpr low)

def below (range : Interval) (place : Int) : Nat :=
  range.quarters * range.scale place / range.step place

theorem below_le (range : Interval) (place : Int) :
    (range.below place * 10 ^ place : ℚ) ≤ range.value :=
  (range.scaled_ge_iff place range.quarters _).mp (Nat.div_mul_le_self _ _)

theorem lt_above (range : Interval) (place : Int) :
    range.value < ((range.below place + 1 : ℕ) * 10 ^ place : ℚ) := by
  rw [← not_le, value, ← scaled_ge_iff, not_le]
  exact (Nat.div_lt_iff_lt_mul (range.step_pos place)).mp (Nat.lt_succ_self _)

/-- A grid has a point in the interval only if one of the neighbours is. -/
theorem holds_neighbour (proper : range.Proper) {point : Nat}
    (holds : range.Holds (point * 10 ^ place)) :
    (point ≤ range.below place ∧ range.Holds (range.below place * 10 ^ place)) ∨
      (range.below place + 1 ≤ point ∧
        range.Holds ((range.below place + 1 : ℕ) * 10 ^ place)) := by
  have step : (0 : ℚ) ≤ 10 ^ place := by positivity
  rcases Nat.lt_or_ge (range.below place) point with more | less
  · refine .inr ⟨more, holds.toward proper (.inr ⟨(range.lt_above place).le, ?_⟩)⟩
    exact mul_le_mul_of_nonneg_right (by exact_mod_cast more) step
  · refine .inl ⟨less, holds.toward proper (.inl ⟨?_, range.below_le place⟩)⟩
    exact mul_le_mul_of_nonneg_right (by exact_mod_cast less) step

theorem gridPoint?_eq (tie : Tie) (range : Interval) (place : Int) :
    range.gridPoint? tie place =
      match range.contains place (range.below place),
        range.contains place (range.below place + 1) with
      | false, false => none
      | true, false => some (range.below place)
      | false, true => some (range.below place + 1)
      | true, true =>
        let gap := 2 * (range.quarters * range.scale place % range.step place)
        if gap < range.step place then some (range.below place)
        else if range.step place < gap then some (range.below place + 1)
        else match tie with
          | .up => some (range.below place + 1)
          | .even => some (if range.below place % 2 = 0 then range.below place
            else range.below place + 1) := rfl

theorem gridPoint?_eq_none_iff (proper : range.Proper) :
    range.gridPoint? tie place = none ↔ ∀ point : Nat, ¬ range.Holds (point * 10 ^ place) := by
  have neighbours : range.gridPoint? tie place = none ↔
      ¬ range.Holds (range.below place * 10 ^ place) ∧
        ¬ range.Holds ((range.below place + 1 : ℕ) * 10 ^ place) := by
    rw [← contains_iff, ← contains_iff, gridPoint?_eq]
    cases range.contains place (range.below place) <;>
      cases range.contains place (range.below place + 1) <;> simp
    split_ifs <;> cases tie <;> simp
  rw [neighbours]
  constructor
  · rintro ⟨low, high⟩ point holds
    rcases holds_neighbour proper holds with ⟨-, near⟩ | ⟨-, near⟩
    · exact low near
    · exact high near
  · exact fun none => ⟨none _, none _⟩

/-- The part of a step by which the value lies past the neighbour below. -/
theorem remainder_eq (range : Interval) (place : Int) :
    ((range.quarters * range.scale place % range.step place : ℕ) : ℚ) =
      (range.value - range.below place * 10 ^ place) * range.unit place := by
  have split : (range.quarters * range.scale place : ℚ) =
      range.step place * range.below place +
        (range.quarters * range.scale place % range.step place : ℕ) := by
    exact_mod_cast (Nat.div_add_mod _ _).symm
  rw [scale_eq, step_eq] at split
  rw [value]
  linarith

theorem gap_lt_iff (range : Interval) (place : Int) :
    2 * (range.quarters * range.scale place % range.step place) < range.step place ↔
      range.value - range.below place * 10 ^ place <
        (range.below place + 1 : ℕ) * 10 ^ place - range.value := by
  rw [← Nat.cast_lt (α := ℚ), Nat.cast_mul, remainder_eq, step_eq, ← mul_assoc,
    mul_lt_mul_iff_left₀ (range.unit_pos place)]
  push_cast
  constructor <;> intro less <;> linarith

theorem lt_gap_iff (range : Interval) (place : Int) :
    range.step place < 2 * (range.quarters * range.scale place % range.step place) ↔
      (range.below place + 1 : ℕ) * 10 ^ place - range.value <
        range.value - range.below place * 10 ^ place := by
  rw [← Nat.cast_lt (α := ℚ), Nat.cast_mul, remainder_eq, step_eq, ← mul_assoc,
    mul_lt_mul_iff_left₀ (range.unit_pos place)]
  push_cast
  constructor <;> intro less <;> linarith

end Interval

/-- Which of two points of a grid is taken that are as near as each other. -/
def Tie.Picks : Tie → Nat → Nat → Prop
  | .up, point, other => other < point
  | .even, point, other => point % 2 = 0 ∧ other % 2 = 1

namespace Interval
variable {range : Interval} {place : Int} {tie : Tie}

/-- A point is nearer than another, or as near and picked. -/
def Nearer (range : Interval) (place : Int) (tie : Tie) (point other : Nat) : Prop :=
  |point * 10 ^ place - range.value| < |other * 10 ^ place - range.value| ∨
    |point * 10 ^ place - range.value| = |other * 10 ^ place - range.value| ∧
      tie.Picks point other

theorem Nearer.le {point other : Nat} (nearer : range.Nearer place tie point other) :
    |point * 10 ^ place - range.value| ≤ |other * 10 ^ place - range.value| := by
  rcases nearer with less | ⟨even, -⟩
  · exact less.le
  · exact even.le

theorem dist_below (range : Interval) (place : Int) :
    |range.below place * 10 ^ place - range.value| =
      range.value - range.below place * 10 ^ place := by
  rw [abs_sub_comm, abs_of_nonneg (sub_nonneg.mpr (range.below_le place))]

theorem dist_above (range : Interval) (place : Int) :
    |(range.below place + 1 : ℕ) * 10 ^ place - range.value| =
      (range.below place + 1 : ℕ) * 10 ^ place - range.value :=
  abs_of_nonneg (sub_nonneg.mpr (range.lt_above place).le)

/-- Past its neighbours the points are farther off than the neighbour on their side by a step. -/
theorem dist_beyond {other : Nat} (apart : other ≠ range.below place)
    (apart' : other ≠ range.below place + 1) :
    (other ≤ range.below place ∧ range.value - range.below place * 10 ^ place + 10 ^ place ≤
        |other * 10 ^ place - range.value|) ∨
      (range.below place + 1 ≤ other ∧
        (range.below place + 1 : ℕ) * 10 ^ place - range.value + 10 ^ place ≤
          |other * 10 ^ place - range.value|) := by
  have step : (0 : ℚ) < 10 ^ place := by positivity
  rcases Nat.lt_or_ge (range.below place) other with more | less
  · have next : ((range.below place + 1 : ℕ) + 1 : ℚ) ≤ other := by
      exact_mod_cast (show range.below place + 1 + 1 ≤ other by omega)
    refine .inr ⟨more, le_trans ?_ (le_abs_self _)⟩
    nlinarith
  · have next : (other + 1 : ℚ) ≤ range.below place := by
      exact_mod_cast (show other + 1 ≤ range.below place by omega)
    refine .inl ⟨less, le_trans ?_ (neg_le_abs _)⟩
    nlinarith

theorem below_nearer {other : Nat} (apart : other ≠ range.below place)
    (next : other = range.below place + 1 → range.Nearer place tie (range.below place) other) :
    range.Nearer place tie (range.below place) other := by
  by_cases above : other = range.below place + 1
  · exact next above
  · have step : (0 : ℚ) < 10 ^ place := by positivity
    have gap := range.lt_above place
    push_cast at gap
    left
    rw [dist_below]
    rcases dist_beyond apart above with ⟨-, far⟩ | ⟨-, far⟩
    · linarith
    · push_cast at far
      linarith [range.below_le place]

theorem above_nearer (proper : range.Proper) {other : Nat}
    (holds : range.Holds (other * 10 ^ place)) (apart : other ≠ range.below place + 1)
    (closer : range.Holds (range.below place * 10 ^ place) →
      (range.below place + 1 : ℕ) * 10 ^ place - range.value ≤
        range.value - range.below place * 10 ^ place)
    (next : other = range.below place → range.Nearer place tie (range.below place + 1) other) :
    range.Nearer place tie (range.below place + 1) other := by
  by_cases below : other = range.below place
  · exact next below
  · have step : (0 : ℚ) < 10 ^ place := by positivity
    left
    rw [dist_above]
    rcases dist_beyond below apart with ⟨less, far⟩ | ⟨-, far⟩
    · rcases holds_neighbour proper holds with ⟨-, held⟩ | ⟨more, -⟩
      · linarith [closer held]
      · omega
    · linarith

/-- Halfway between its neighbours the value has them equally near. -/
theorem halfway {range : Interval} {place : Int}
    (near : ¬ 2 * (range.quarters * range.scale place % range.step place) < range.step place)
    (far : ¬ range.step place < 2 * (range.quarters * range.scale place % range.step place)) :
    |range.below place * 10 ^ place - range.value| =
      |(range.below place + 1 : ℕ) * 10 ^ place - range.value| := by
  rw [gap_lt_iff, not_lt] at near
  rw [lt_gap_iff, not_lt] at far
  rw [dist_below, dist_above]
  exact le_antisymm far near

/-- With both neighbours in the interval the nearer one is taken, or the one that the tie asks
for. -/
theorem nearer_of_both {point : Nat} (low : range.contains place (range.below place) = true)
    (high : range.contains place (range.below place + 1) = true)
    (found : range.gridPoint? tie place = some point) :
    (point = range.below place ∧
        range.Nearer place tie (range.below place) (range.below place + 1)) ∨
      (point = range.below place + 1 ∧
        range.Nearer place tie (range.below place + 1) (range.below place)) := by
  rw [gridPoint?_eq, low, high] at found
  dsimp only at found
  by_cases near :
      2 * (range.quarters * range.scale place % range.step place) < range.step place
  · rw [if_pos near, Option.some.injEq] at found
    refine .inl ⟨found.symm, .inl ?_⟩
    rw [dist_below, dist_above]
    exact (range.gap_lt_iff place).mp near
  rw [if_neg near] at found
  by_cases far : range.step place < 2 * (range.quarters * range.scale place % range.step place)
  · rw [if_pos far, Option.some.injEq] at found
    refine .inr ⟨found.symm, .inl ?_⟩
    rw [dist_below, dist_above]
    exact (range.lt_gap_iff place).mp far
  rw [if_neg far] at found
  have even := halfway near far
  cases tie with
  | up =>
    exact .inr ⟨(Option.some.inj found).symm, .inr ⟨even.symm, Nat.lt_succ_self _⟩⟩
  | even =>
    have found := Option.some.inj found
    split_ifs at found with parity
    · exact .inl ⟨found.symm, .inr ⟨even, parity, by omega⟩⟩
    · exact .inr ⟨found.symm, .inr ⟨even.symm, by omega, by omega⟩⟩

/-- The point that a grid is asked for is a neighbour of the value. It lies in the interval and is
the nearest one that does. -/
theorem gridPoint?_eq_some (proper : range.Proper) {point : Nat}
    (found : range.gridPoint? tie place = some point) :
    (point = range.below place ∨ point = range.below place + 1) ∧
      range.Holds (point * 10 ^ place) ∧ ∀ other : Nat, range.Holds (other * 10 ^ place) →
        other ≠ point → range.Nearer place tie point other := by
  have held := range.contains_iff place
  cases low : range.contains place (range.below place) with
  | false =>
    have out := mt (held _).mpr (Bool.eq_false_iff.mp low)
    cases high : range.contains place (range.below place + 1) with
    | false => simp [gridPoint?_eq, low, high] at found
    | true =>
      obtain rfl : range.below place + 1 = point := by simpa [gridPoint?_eq, low, high] using found
      refine ⟨.inr rfl, (held _).mp high, fun other holds apart => ?_⟩
      refine above_nearer proper holds apart (fun inside => absurd inside out) ?_
      rintro rfl
      exact absurd holds out
  | true =>
    cases high : range.contains place (range.below place + 1) with
    | false =>
      obtain rfl : range.below place = point := by simpa [gridPoint?_eq, low, high] using found
      refine ⟨.inl rfl, (held _).mp low, fun other holds apart => below_nearer apart ?_⟩
      rintro rfl
      exact absurd ((held _).mpr holds) (Bool.eq_false_iff.mp high)
    | true =>
      rcases nearer_of_both low high found with ⟨rfl, nearer⟩ | ⟨rfl, nearer⟩
      · refine ⟨.inl rfl, (held _).mp low, fun other _ apart => below_nearer apart ?_⟩
        rintro rfl
        exact nearer
      · have closer := nearer.le
        rw [dist_below, dist_above] at closer
        refine ⟨.inr rfl, (held _).mp high, fun other holds apart => ?_⟩
        refine above_nearer proper holds apart (fun _ => closer) ?_
        rintro rfl
        exact nearer

theorem dist_le_of_found (proper : range.Proper) {point other : Nat}
    (found : range.gridPoint? tie place = some point) (holds : range.Holds (other * 10 ^ place)) :
    |point * 10 ^ place - range.value| ≤ |other * 10 ^ place - range.value| := by
  by_cases same : other = point
  · rw [same]
  · exact ((gridPoint?_eq_some proper found).2.2 other holds same).le

/-- The search ends on the first grid that has a point in the interval. -/
theorem search_eq (tie : Tie) (more : Nat)
    (some : ∃ finer < more, range.gridPoint? tie (place - finer) ≠ none) :
    ∃ (finer : Nat) (point : Nat), range.gridPoint? tie (place - finer) = .some point ∧
      (∀ coarser < finer, range.gridPoint? tie (place - coarser) = none) ∧
      range.search tie place more = Decimal.strip point (place - finer) := by
  induction more generalizing place with
  | zero =>
    obtain ⟨finer, none, -⟩ := some
    exact absurd none (Nat.not_lt_zero finer)
  | succ more ih =>
    rw [search]
    cases here : range.gridPoint? tie place with
    | some point => exact ⟨0, point, by simpa using here, nofun, by simp⟩
    | none =>
      have shift (k : Nat) : place - 1 - (k : ℤ) = place - (k + 1 : ℕ) := by
        push_cast
        ring
      obtain ⟨finer, less, found⟩ := some
      have rest : ∃ finer < more, range.gridPoint? tie (place - 1 - finer) ≠ none := by
        cases finer with
        | zero => exact absurd (by simpa using here) found
        | succ finer => exact ⟨finer, Nat.lt_of_succ_lt_succ less, by rwa [shift]⟩
      obtain ⟨finer, point, found, before, same⟩ := ih rest
      refine ⟨finer + 1, point, by rwa [← shift], ?_, by rw [← shift]; exact same⟩
      intro coarser less
      cases coarser with
      | zero => simpa using here
      | succ coarser =>
        rw [← shift]
        exact before coarser (Nat.lt_of_succ_lt_succ less)

theorem value_mul_step (range : Interval) :
    range.value * range.step 0 = (range.quarters * range.scale 0 : ℕ) := by
  rw [value, step_eq, Nat.cast_mul, scale_eq]
  ring

/-- The leading digit of the value stands at the leading place. -/
theorem Proper.leadingPlace_le (proper : range.Proper) :
    (10 : ℚ) ^ range.leadingPlace ≤ range.value ∧
      range.value < (10 : ℚ) ^ (range.leadingPlace + 1) := by
  have one := range.step_pos 0
  have unit : (0 : ℚ) < range.step 0 := by exact_mod_cast one
  have scaled := range.value_mul_step
  have positive : 0 < range.quarters * range.scale 0 :=
    Nat.mul_pos (proper.some.trans proper.low) (range.scale_pos 0)
  simp only [leadingPlace]
  generalize range.quarters * range.scale 0 = whole at *
  generalize range.step 0 = step at *
  have least {x : ℚ} (less : x * step ≤ whole) : x ≤ range.value := by
    rw [← scaled] at less
    exact le_of_mul_le_mul_right less unit
  have most {x : ℚ} (less : whole < x * step) : range.value < x := by
    rw [← scaled] at less
    exact lt_of_mul_lt_mul_right less unit.le
  split_ifs with large
  · have count := digitCount_pos (whole / step)
    obtain ⟨low, high⟩ := digitCount_div one large
    generalize digitCount (whole / step) = k at *
    obtain ⟨k, rfl⟩ := Nat.exists_eq_add_of_lt count
    have exponent : ((0 + k + 1 : ℕ) : ℤ) - 1 = k := by
      push_cast
      ring
    rw [exponent, ← Nat.cast_succ, zpow_natCast, zpow_natCast]
    constructor
    · apply least
      exact_mod_cast (show 10 ^ k * step ≤ whole by simpa using low)
    · apply most
      exact_mod_cast (show whole < 10 ^ (k + 1) * step by simpa using high)
  · have count := digitCount_pos ((step + whole - 1) / whole - 1)
    obtain ⟨low, high⟩ := digitCount_inverse positive (not_le.mp large)
    generalize digitCount ((step + whole - 1) / whole - 1) = k at *
    obtain ⟨k, rfl⟩ := Nat.exists_eq_add_of_lt count
    have exponent : -((0 + k + 1 : ℕ) : ℤ) + 1 = -(k : ℤ) := by
      push_cast
      ring
    rw [exponent, zpow_neg, zpow_neg, zpow_natCast, zpow_natCast]
    constructor
    · apply least
      rw [inv_mul_le_iff₀ (by positivity)]
      exact_mod_cast high
    · apply most
      rw [lt_inv_mul_iff₀ (by positivity)]
      exact_mod_cast (show 10 ^ k * whole < step by simpa using low)

/-- A grid without a point in the interval is wider than the interval. -/
theorem Proper.width_le (proper : range.Proper)
    (none : ∀ point : Nat, ¬ range.Holds (point * 10 ^ place)) :
    (range.high - range.low : ℚ) * 2 ^ range.exponent ≤ 10 ^ place := by
  have low := proper.le_low (range.below_le place) (none _)
  have high := proper.high_le (range.lt_above place).le (none _)
  push_cast at high
  linarith

end Interval

/-- A float of at most 53 binary digits leaves room for a point of the 17th grid. -/
theorem exists_point {format : Format} {bits significand : Nat} {exponent : Int} {edge : Bool}
    (few : format.fractionBits ≤ 52) (scaled : format.Scaled bits significand exponent edge)
    (some : 0 < significand) : ∃ point : Nat, (Interval.ofFinite significand exponent edge).Holds
      (point * 10 ^ ((Interval.ofFinite significand exponent edge).leadingPlace - (16 : ℕ))) := by
  by_contra none
  rw [not_exists] at none
  have proper := Interval.proper_ofFinite some exponent edge
  have width := proper.width_le none
  have leading := proper.leadingPlace_le.1
  have unit : (0 : ℚ) < 2 ^ (exponent - 2) := by positivity
  have least : (if edge then 1 else 2) ≤ 4 * significand := by split <;> omega
  rw [zpow_sub₀ (by norm_num), le_div_iff₀ (by positivity), zpow_natCast] at width
  have narrow := width.trans leading
  rw [Interval.value] at narrow
  simp only [Interval.ofFinite] at narrow
  rw [Nat.cast_sub least, mul_right_comm] at narrow
  have narrow := le_of_mul_le_mul_right narrow unit
  push_cast at narrow
  cases way : edge with
  | false =>
    have small := scaled.small.trans_le (Nat.pow_le_pow_right (by decide) (Nat.succ_le_succ few))
    norm_num [way] at narrow
    have wide : 40000000000000000 ≤ 4 * significand := by exact_mod_cast narrow
    omega
  | true =>
    have small := (scaled.edge.mp way).1.trans_le (Nat.pow_le_pow_right (by decide) few)
    norm_num [way] at narrow
    have wide : 30000000000000000 ≤ 4 * significand := by exact_mod_cast narrow
    omega

end SeriesClient.Number
