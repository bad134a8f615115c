import SeriesClient.Proofs.Number.GridSearch

/-! The shortest decimals of a float: of all that are read as it they have the fewest digits, and of
these they are the nearest. Each float has exactly one for each way to break ties, and the search
over ever finer grids finds it. No float needs more than 17 digits, so that the search ends. -/
namespace SeriesClient.Number

namespace Decimal

def value (d : Decimal) : ℚ := d.coefficient * 10 ^ d.exponent

/-- No zero at its end could as well go into the exponent. -/
def Lowest (d : Decimal) : Prop := d.coefficient % 10 ≠ 0 ∨ d = ⟨0, 0⟩

def digits (d : Decimal) : Nat := (toString d.coefficient).length

/-- The coefficient that goes with a smaller exponent. -/
def scaledTo (place : Int) (d : Decimal) : Nat :=
  d.coefficient * 10 ^ (d.exponent - place).toNat

end Decimal

/-- Which of two decimals is taken that are as near as each other. -/
def Tie.Prefers : Tie → Decimal → Decimal → Prop
  | .up, d, other => other.value < d.value
  | .even, d, other =>
    d.scaledTo (min d.exponent other.exponent) % 2 = 0 ∧
      other.scaledTo (min d.exponent other.exponent) % 2 = 1

/-- A decimal that is read as a float may take the place of others that are. -/
structure IsShortest (tie : Tie) (format : Format) (bits : Nat) (d : Decimal) : Prop where
  lowest : d.Lowest
  reads : format.ReadsAs bits d.value
  fewest : ∀ other : Decimal, other.Lowest → format.ReadsAs bits other.value →
    d.digits ≤ other.digits
  nearest : ∀ other : Decimal, other.Lowest → format.ReadsAs bits other.value →
    other.digits = d.digits →
    |d.value - format.magnitude bits| ≤ |other.value - format.magnitude bits|
  tied : ∀ other : Decimal, other.Lowest → format.ReadsAs bits other.value →
    other.digits = d.digits → other ≠ d →
    |d.value - format.magnitude bits| = |other.value - format.magnitude bits| →
    tie.Prefers d other

theorem Tie.Prefers.asymm {tie : Tie} {d other : Decimal} (prefers : tie.Prefers d other) :
    ¬ tie.Prefers other d := by
  intro back
  cases tie with
  | up => exact lt_asymm prefers back
  | even =>
    have odd := back.2
    rw [min_comm] at odd
    exact absurd (prefers.1.symm.trans odd) (by decide)

theorem IsShortest.unique {tie : Tie} {format : Format} {bits : Nat} {d other : Decimal}
    (first : IsShortest tie format bits d) (second : IsShortest tie format bits other) :
    d = other := by
  by_contra apart
  have digits : other.digits = d.digits := le_antisymm
    (second.fewest d first.lowest first.reads) (first.fewest other second.lowest second.reads)
  have near := le_antisymm (first.nearest other second.lowest second.reads digits)
    (second.nearest d first.lowest first.reads digits.symm)
  have prefers := first.tied other second.lowest second.reads digits (Ne.symm apart) near
  exact prefers.asymm (second.tied d first.lowest first.reads digits.symm apart near.symm)

theorem digitCount_eq_digits (d : Decimal) : d.digits = digitCount d.coefficient := by
  rw [Decimal.digits, digitCount, Nat.toString_eq_ofList_toDigits, String.length_ofList]

namespace Decimal

theorem strip_eq (coefficient : Nat) (exponent : Int) : ∃ zeros : Nat,
    coefficient = (strip coefficient exponent).coefficient * 10 ^ zeros ∧
      (strip coefficient exponent).exponent = exponent + zeros := by
  induction coefficient, exponent using strip.induct with
  | case1 coefficient exponent more ih =>
    obtain ⟨zeros, same, moved⟩ := ih
    rw [strip, dif_pos more]
    refine ⟨zeros + 1, ?_, by rw [moved]; push_cast; ring⟩
    rw [Nat.pow_succ, ← Nat.mul_assoc, ← same]
    exact (Nat.div_mul_cancel (Nat.dvd_of_mod_eq_zero more.2)).symm
  | case2 coefficient exponent last =>
    rw [strip, dif_neg last]
    exact ⟨0, (Nat.mul_one _).symm, (add_zero _).symm⟩

theorem value_strip (coefficient : Nat) (exponent : Int) :
    (strip coefficient exponent).value = coefficient * 10 ^ exponent := by
  obtain ⟨zeros, same, moved⟩ := strip_eq coefficient exponent
  have same : (coefficient : ℚ) = (strip coefficient exponent).coefficient * 10 ^ zeros := by
    exact_mod_cast same
  rw [value, moved, same, zpow_add₀ (by norm_num), zpow_natCast]
  ring

theorem lowest_strip {coefficient : Nat} (some : coefficient ≠ 0) (exponent : Int) :
    (strip coefficient exponent).coefficient % 10 ≠ 0 := by
  induction coefficient, exponent using strip.induct with
  | case1 coefficient exponent more ih =>
    rw [strip, dif_pos more]
    exact ih (by omega)
  | case2 coefficient exponent last =>
    rw [strip, dif_neg last]
    exact fun zero => last ⟨some, zero⟩

theorem strip_of_last {coefficient : Nat} (last : coefficient % 10 ≠ 0) (exponent : Int) :
    strip coefficient exponent = ⟨coefficient, exponent⟩ := by
  rw [strip, dif_neg fun more => last more.2]

/-- A decimal stands on every grid that is as fine as its exponent. -/
theorem value_eq_scaledTo {d : Decimal} {place : Int} (fine : place ≤ d.exponent) :
    d.value = d.scaledTo place * 10 ^ place := by
  obtain ⟨steps, more⟩ := Int.le.dest fine
  have count : (d.exponent - place).toNat = steps := by omega
  rw [value, scaledTo, count, ← more, zpow_add₀ (by norm_num), zpow_natCast]
  push_cast
  ring

theorem Lowest.eq_of_value_eq_of_le {d other : Decimal} (lowest : d.Lowest)
    (lowest' : other.Lowest) (same : d.value = other.value) (below : d.exponent ≤ other.exponent) :
    d = other := by
  have unit : (10 : ℚ) ^ d.exponent ≠ 0 := by positivity
  have same : d.coefficient = other.scaledTo d.exponent := by
    rw [value_eq_scaledTo below, value] at same
    exact_mod_cast mul_right_cancel₀ unit same
  rw [scaledTo] at same
  rcases Nat.eq_zero_or_pos (other.exponent - d.exponent).toNat with level | steps
  · have exponents : d.exponent = other.exponent := by omega
    rw [level, Nat.pow_zero, Nat.mul_one] at same
    obtain ⟨coefficient, exponent⟩ := d
    exact congrArg₂ Decimal.mk same exponents
  · have zero : d.coefficient % 10 = 0 := by
      obtain ⟨more, count⟩ := Nat.exists_eq_add_of_lt steps
      rw [same, count, Nat.pow_succ, ← Nat.mul_assoc]
      exact Nat.mul_mod_left _ _
    have none := lowest.resolve_left (not_not_intro zero)
    have zero' : other.coefficient = 0 := by
      rw [none] at same
      simpa using same.symm
    rw [none, lowest'.resolve_left (by simp [zero'])]

theorem Lowest.eq_of_value_eq {d other : Decimal} (lowest : d.Lowest) (lowest' : other.Lowest)
    (same : d.value = other.value) : d = other := by
  rcases le_total d.exponent other.exponent with below | above
  · exact lowest.eq_of_value_eq_of_le lowest' same below
  · exact (lowest'.eq_of_value_eq_of_le lowest same.symm above).symm

theorem le_exponent_strip (coefficient : Nat) (exponent : Int) :
    exponent ≤ (strip coefficient exponent).exponent := by
  obtain ⟨zeros, -, moved⟩ := strip_eq coefficient exponent
  omega

theorem scaledTo_strip (coefficient : Nat) (exponent : Int) :
    (strip coefficient exponent).scaledTo exponent = coefficient := by
  obtain ⟨zeros, same, moved⟩ := strip_eq coefficient exponent
  rw [scaledTo, moved, add_sub_cancel_left, Int.toNat_natCast]
  exact same.symm

theorem scaledTo_even {d : Decimal} {place : Int} (less : place < d.exponent) :
    d.scaledTo place % 2 = 0 := by
  obtain ⟨more, count⟩ := Nat.exists_eq_add_of_lt (show 0 < (d.exponent - place).toNat by omega)
  have ten : d.coefficient * 10 ^ (0 + more + 1) = 2 * (5 * (d.coefficient * 10 ^ (0 + more))) := by
    rw [Nat.pow_succ]
    ring
  rw [scaledTo, count, ten]
  exact Nat.mul_mod_right _ _

/-- What is picked on a grid is preferred, on whatever grid the two are compared. -/
theorem prefers_of_picks {tie : Tie} {point : Nat} {place : Int} {other : Decimal}
    (fine : place ≤ other.exponent) (picks : tie.Picks point (other.scaledTo place)) :
    tie.Prefers (strip point place) other := by
  have fine' := le_exponent_strip point place
  cases tie with
  | up =>
    rw [Tie.Prefers, value_strip, value_eq_scaledTo fine]
    exact mul_lt_mul_of_pos_right (by exact_mod_cast picks) (by positivity)
  | even =>
    have level : min (strip point place).exponent other.exponent = place := by
      by_contra higher
      have less : place < other.exponent := by omega
      exact absurd ((scaledTo_even less).symm.trans picks.2) (by decide)
    rw [Tie.Prefers, level, scaledTo_strip]
    exact picks

end Decimal

section Search
variable {range : Interval} (proper : range.Proper)
include proper

/-- As long as no grid has had a point, every decimal of the interval has a digit for each place
from the leading one to its last. -/
theorem digitCount_of_holds {count : Nat} (some : 0 < count)
    (none : ∀ coarser < count, ∀ point : Nat,
      ¬ range.Holds (point * 10 ^ (range.leadingPlace - coarser)))
    {d : Decimal} (holds : range.Holds d.value) :
    d.exponent ≤ range.leadingPlace - count ∧
      (digitCount d.coefficient : ℤ) = range.leadingPlace - d.exponent + 1 := by
  obtain ⟨leading, next⟩ := proper.leadingPlace_le
  have first (point : Nat) : ¬ range.Holds (point * 10 ^ range.leadingPlace) := by
    simpa using none 0 some point
  have early : d.exponent ≤ range.leadingPlace - count := by
    by_contra late
    have fine : range.leadingPlace - (range.leadingPlace - d.exponent).toNat ≤ d.exponent := by
      omega
    rw [Decimal.value_eq_scaledTo fine] at holds
    exact none _ (by omega) _ holds
  have low : 10 ^ range.leadingPlace < d.value := by
    by_contra below
    have held := holds.toward proper (.inl ⟨not_lt.mp below, leading⟩)
    exact first 1 (by simpa using held)
  have high : d.value < 10 ^ (range.leadingPlace + 1) := by
    by_contra above
    have held := holds.toward proper (.inr ⟨next.le, not_lt.mp above⟩)
    rw [zpow_add_one₀ (by norm_num), mul_comm] at held
    exact first 10 (by exact_mod_cast held)
  obtain ⟨more, split⟩ := Int.le.dest (show d.exponent ≤ range.leadingPlace by omega)
  have unit : (0 : ℚ) < 10 ^ d.exponent := by positivity
  rw [← split, zpow_add₀ (by norm_num), zpow_natCast, mul_comm, Decimal.value] at low
  rw [← split, add_assoc, zpow_add₀ (by norm_num), mul_comm, Decimal.value] at high
  have low : 10 ^ more ≤ d.coefficient := by
    exact_mod_cast (lt_of_mul_lt_mul_right low unit.le).le
  have high : d.coefficient < 10 ^ (more + 1) := by
    exact_mod_cast lt_of_mul_lt_mul_right high unit.le
  refine ⟨early, ?_⟩
  rw [digitCount_eq low high]
  push_cast
  omega

/-- On the first grid of all, the point has one digit. -/
theorem digitCount_first {tie : Tie} {point : Nat}
    (found : range.gridPoint? tie range.leadingPlace = some point) :
    digitCount (Decimal.strip point range.leadingPlace).coefficient = 1 := by
  obtain ⟨leading, next⟩ := proper.leadingPlace_le
  obtain ⟨neighbour, -⟩ := Interval.gridPoint?_eq_some proper found
  have unit : (0 : ℚ) < 10 ^ range.leadingPlace := by positivity
  have least : 0 < range.below range.leadingPlace := by
    have above := leading.trans_lt (range.lt_above range.leadingPlace)
    rw [← one_mul (10 ^ range.leadingPlace)] at above
    have above : (1 : ℚ) < (range.below range.leadingPlace + 1 : ℕ) :=
      lt_of_mul_lt_mul_right (by simpa using above) unit.le
    have := Nat.one_lt_cast.mp above
    omega
  have most : range.below range.leadingPlace < 10 := by
    have below := (range.below_le range.leadingPlace).trans_lt next
    rw [zpow_add_one₀ (by norm_num), mul_comm (10 ^ _) (10 : ℚ)] at below
    exact_mod_cast lt_of_mul_lt_mul_right below unit.le
  have some : 0 < point := by omega
  rcases Nat.lt_or_ge point 10 with digit | ten
  · rw [Decimal.strip_of_last (by omega)]
    exact digitCount_of_digit some digit
  · obtain rfl : point = 10 := by omega
    rw [Decimal.strip, dif_pos (by decide), Decimal.strip_of_last (by decide)]
    exact digitCount_of_digit Nat.one_pos (show 1 < 10 by decide)

end Search

/-- Zero is its own shortest decimal. -/
theorem isShortest_zero {tie : Tie} {format : Format} {bits : Nat}
    (zero : format.magnitude bits = 0) : IsShortest tie format bits ⟨0, 0⟩ := by
  have none : (⟨0, 0⟩ : Decimal).value = 0 := by simp [Decimal.value]
  constructor
  case lowest => exact .inr rfl
  case reads =>
    intro y _ other
    left
    rw [zero] at other
    rw [none, zero, sub_zero, abs_zero, zero_sub, abs_neg]
    exact abs_pos.mpr other
  case fewest =>
    intro other _ _
    rw [digitCount_eq_digits, digitCount_eq_digits]
    exact digitCount_pos _
  case nearest =>
    intro other _ _ _
    rw [none, zero, sub_zero, abs_zero]
    exact abs_nonneg _
  case tied =>
    intro other lowest _ _ apart near
    rw [none, zero, sub_zero, abs_zero, sub_zero, eq_comm, abs_eq_zero] at near
    have lowest' : (⟨0, 0⟩ : Decimal).Lowest := .inr rfl
    exact absurd (lowest.eq_of_value_eq lowest' (near.trans none.symm)) apart

section Search
variable {range : Interval} (proper : range.Proper) {tie : Tie} {point count : Nat}
  (found : range.gridPoint? tie (range.leadingPlace - count) = some point)
include proper found

theorem lowest_of_found :
    (Decimal.strip point (range.leadingPlace - count)).coefficient % 10 ≠ 0 := by
  apply Decimal.lowest_strip
  rintro rfl
  have holds := (Interval.gridPoint?_eq_some proper found).2.1
  rw [Nat.cast_zero, zero_mul] at holds
  exact proper.not_holds_zero holds

/-- With one digit and on a finer grid, a decimal falls short of the leading place. -/
theorem farther_of_finer (first : count = 0) {other : Decimal} (holds : range.Holds other.value)
    (single : digitCount other.coefficient = 1)
    (finer : other.exponent < range.leadingPlace - count) :
    |point * 10 ^ (range.leadingPlace - count) - range.value| < |other.value - range.value| := by
  subst first
  rw [Nat.cast_zero, sub_zero] at *
  have leading := proper.leadingPlace_le.1
  have digit : (other.coefficient : ℚ) ≤ 9 := by
    have := lt_pow_digitCount other.coefficient
    rw [single] at this
    exact_mod_cast Nat.le_of_lt_succ this
  have short : other.value < 10 ^ range.leadingPlace := by
    have step : (10 : ℚ) ^ other.exponent * 10 ≤ 10 ^ range.leadingPlace := by
      rw [← zpow_add_one₀ (by norm_num)]
      exact zpow_le_zpow_right₀ (by norm_num) (by omega)
    have unit : (0 : ℚ) < 10 ^ other.exponent := by positivity
    rw [Decimal.value]
    nlinarith
  have held : range.Holds ((1 : ℕ) * 10 ^ range.leadingPlace) := by
    simpa using holds.toward proper (.inl ⟨short.le, leading⟩)
  have nearest := Interval.dist_le_of_found proper found held
  rw [Nat.cast_one, one_mul] at nearest
  refine nearest.trans_lt ?_
  rw [abs_sub_comm, abs_of_nonneg (sub_nonneg.mpr leading), abs_sub_comm,
    abs_of_pos (sub_pos.mpr (short.trans_le leading))]
  linarith

/-- A decimal of the interval has as many digits as the one found, if not more. One with as many
stands on the grid of the one found, or is farther off. -/
theorem digitCount_found
    (none : ∀ coarser < count, range.gridPoint? tie (range.leadingPlace - coarser) = none)
    {other : Decimal} (holds : range.Holds other.value) :
    digitCount (Decimal.strip point (range.leadingPlace - count)).coefficient ≤
        digitCount other.coefficient ∧
      (digitCount other.coefficient =
          digitCount (Decimal.strip point (range.leadingPlace - count)).coefficient →
        range.leadingPlace - count ≤ other.exponent ∨
          |point * 10 ^ (range.leadingPlace - count) - range.value| <
            |other.value - range.value|) := by
  rcases Nat.eq_zero_or_pos count with first | some
  · have one : digitCount (Decimal.strip point (range.leadingPlace - count)).coefficient = 1 := by
      subst first
      rw [Nat.cast_zero, sub_zero] at *
      exact digitCount_first proper found
    rw [one]
    refine ⟨digitCount_pos _, fun single => ?_⟩
    rw [or_iff_not_imp_left, not_le]
    exact farther_of_finer proper found first holds single
  · have empty := fun coarser less =>
      (Interval.gridPoint?_eq_none_iff proper).mp (none coarser less)
    have held := (Interval.gridPoint?_eq_some proper found).2.1
    rw [← Decimal.value_strip] at held
    obtain ⟨early, digits⟩ := digitCount_of_holds proper some empty holds
    obtain ⟨-, self⟩ := digitCount_of_holds proper some empty held
    have least := Decimal.le_exponent_strip point (range.leadingPlace - count)
    exact ⟨by omega, fun even => .inl (by omega)⟩

/-- Of the decimals with as many digits the one found is the nearest, or as near and preferred. -/
theorem nearest_of_found
    (none : ∀ coarser < count, range.gridPoint? tie (range.leadingPlace - coarser) = none)
    {other : Decimal} (lowest : other.Lowest) (holds : range.Holds other.value)
    (even : digitCount other.coefficient =
      digitCount (Decimal.strip point (range.leadingPlace - count)).coefficient)
    (apart : other ≠ Decimal.strip point (range.leadingPlace - count)) :
    |point * 10 ^ (range.leadingPlace - count) - range.value| < |other.value - range.value| ∨
      |point * 10 ^ (range.leadingPlace - count) - range.value| = |other.value - range.value| ∧
        tie.Prefers (Decimal.strip point (range.leadingPlace - count)) other := by
  rcases (digitCount_found proper found none holds).2 even with level | farther
  · have other' : other.scaledTo (range.leadingPlace - count) ≠ point := by
      intro same
      have values := Decimal.value_eq_scaledTo level
      rw [same, ← Decimal.value_strip] at values
      exact apart (lowest.eq_of_value_eq (.inl (lowest_of_found proper found)) values)
    rw [Decimal.value_eq_scaledTo level] at holds ⊢
    rcases (Interval.gridPoint?_eq_some proper found).2.2 _ holds other' with less | ⟨near, picks⟩
    · exact .inl less
    · exact .inr ⟨near, Decimal.prefers_of_picks level picks⟩
  · exact .inl farther

end Search

/-- What the search finds is the shortest decimal. -/
theorem shortest_isShortest (tie : Tie) {format : Format} {bits significand : Nat}
    {exponent : Int} {edge : Bool} (few : format.fractionBits ≤ 52)
    (scaled : format.Scaled bits significand exponent edge) :
    IsShortest tie format bits (shortest tie significand exponent edge) := by
  rcases Nat.eq_zero_or_pos significand with rfl | some
  · exact isShortest_zero (scaled.value.trans (by simp))
  have proper := Interval.proper_ofFinite some exponent edge
  have value := scaled.value_ofFinite
  have reads := scaled.readsAs_iff_holds some
  obtain ⟨last, held⟩ := exists_point few scaled some
  rw [shortest, if_neg some.ne']
  dsimp only
  generalize Interval.ofFinite significand exponent edge = range at *
  obtain ⟨finer, point, found, none, same⟩ := Interval.search_eq tie 17
    ⟨16, by decide, fun none => (Interval.gridPoint?_eq_none_iff proper).mp none last held⟩
  have digits (d : Decimal) := digitCount_eq_digits d
  rw [same]
  constructor
  case lowest => exact .inl (lowest_of_found proper found)
  case reads =>
    rw [reads, Decimal.value_strip]
    exact (Interval.gridPoint?_eq_some proper found).2.1
  case fewest =>
    intro other _ read
    rw [digits, digits]
    exact (digitCount_found proper found none ((reads _).mp read)).1
  case nearest =>
    intro other lowest read even
    by_cases apart : other = Decimal.strip point (range.leadingPlace - finer)
    · rw [apart]
    rw [digits, digits] at even
    rw [Decimal.value_strip, ← value]
    rcases nearest_of_found proper found none lowest ((reads _).mp read) even apart with
      less | ⟨near, -⟩
    · exact less.le
    · exact near.le
  case tied =>
    intro other lowest read even apart near
    rw [digits, digits] at even
    rw [Decimal.value_strip, ← value] at near
    rcases nearest_of_found proper found none lowest ((reads _).mp read) even apart with
      less | ⟨-, prefers⟩
    · exact absurd near less.ne
    · exact prefers

end SeriesClient.Number
