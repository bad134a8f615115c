import Mathlib.Algebra.Order.Field.Power
import Mathlib.Tactic
import SeriesClient.Number.Shortest

/-! Floats by their bit fields, as IEEE 754 has them, and what is read as a float: a number to which
no other float is nearer, and as near only if this one is even. The interval in which the decimals
of a float are looked for holds exactly these numbers. -/
namespace SeriesClient.Number

namespace Format

def fraction (format : Format) (bits : Nat) : Nat := bits % 2 ^ format.fractionBits

def biased (format : Format) (bits : Nat) : Nat :=
  bits / 2 ^ format.fractionBits % 2 ^ format.exponentBits

def isNegative (format : Format) (bits : Nat) : Bool :=
  bits / 2 ^ (format.fractionBits + format.exponentBits) % 2 = 1

/-- Infinities and what is no number have the greatest exponent. -/
def IsFinite (format : Format) (bits : Nat) : Prop :=
  format.biased bits ≠ 2 ^ format.exponentBits - 1

def bias (format : Format) : Int := 2 ^ (format.exponentBits - 1) - 1

/-- The value of a finite float, but for its sign. -/
def magnitude (format : Format) (bits : Nat) : ℚ :=
  if format.biased bits = 0 then
    format.fraction bits / 2 ^ format.fractionBits * 2 ^ (1 - format.bias)
  else (1 + format.fraction bits / 2 ^ format.fractionBits) * 2 ^ (format.biased bits - format.bias)

/-- Numbers that the format has room for, were its exponents not bounded above. -/
def Has (format : Format) (x : ℚ) : Prop := ∃ (significand : ℕ) (exponent : ℤ),
  significand < 2 ^ (format.fractionBits + 1) ∧
    1 - format.bias - format.fractionBits ≤ exponent ∧ x = significand * 2 ^ exponent

/-- No other number of the format is as near to `x`, or one is and this one is even. -/
def ReadsAs (format : Format) (bits : Nat) (x : ℚ) : Prop :=
  ∀ y, format.Has y → y ≠ format.magnitude bits →
    |x - format.magnitude bits| < |x - y| ∨
      |x - format.magnitude bits| = |x - y| ∧ bits % 2 = 0

/-- How a finite float is scaled. -/
structure Scaled (format : Format) (bits significand : Nat) (exponent : Int) (edge : Bool) :
    Prop where
  value : format.magnitude bits = significand * 2 ^ exponent
  parity : significand % 2 = bits % 2
  small : significand < 2 ^ (format.fractionBits + 1)
  least : format.leastExponent ≤ exponent
  /-- Only the smallest numbers do without their leading digit. -/
  normal : format.leastExponent < exponent → 2 ^ format.fractionBits ≤ significand
  edge : edge = true ↔ significand = 2 ^ format.fractionBits ∧ format.leastExponent < exponent

variable {format : Format} {bits : Nat}

theorem leastExponent_eq (format : Format) :
    format.leastExponent = 1 - format.bias - format.fractionBits := by
  rw [leastExponent, bias, Nat.one_shiftLeft]
  push_cast
  ring

theorem parity_fraction (some : 0 < format.fractionBits) :
    format.fraction bits % 2 = bits % 2 := by
  obtain ⟨more, count⟩ := Nat.exists_eq_add_of_lt some
  rw [fraction, count, Nat.zero_add, Nat.pow_succ, Nat.mod_mul_left_mod]

theorem fraction_lt (format : Format) (bits : Nat) :
    format.fraction bits < 2 ^ format.fractionBits :=
  Nat.mod_lt _ (Nat.two_pow_pos _)

theorem scaled_small (some : 0 < format.fractionBits) (small : format.biased bits = 0) :
    format.Scaled bits (format.fraction bits) format.leastExponent false := by
  have within := format.fraction_lt bits
  constructor
  case value =>
    have split : (1 : ℤ) - format.bias = format.leastExponent + format.fractionBits := by
      rw [leastExponent_eq]
      ring
    rw [magnitude, if_pos small, split, zpow_add₀ (by norm_num), zpow_natCast]
    field_simp
  case parity => exact parity_fraction some
  case small => exact within.trans (Nat.pow_lt_pow_right (by decide) (Nat.lt_succ_self _))
  case least => exact le_rfl
  case normal => exact fun less => absurd less (lt_irrefl _)
  case edge => simp

theorem scaled_normal (some : 0 < format.fractionBits) (normal : format.biased bits ≠ 0) :
    format.Scaled bits (2 ^ format.fractionBits + format.fraction bits)
      (format.leastExponent + ((format.biased bits : ℤ) - 1))
      (decide (format.fraction bits = 0) && decide (1 < format.biased bits)) := by
  have within := format.fraction_lt bits
  constructor
  case value =>
    have split : (format.biased bits : ℤ) - format.bias =
        format.leastExponent + (format.biased bits - 1) + format.fractionBits := by
      rw [leastExponent_eq]
      ring
    rw [magnitude, if_neg normal, split, zpow_add₀ (by norm_num) _ (format.fractionBits : ℤ),
      zpow_natCast]
    push_cast
    field_simp
  case parity =>
    obtain ⟨more, count⟩ := Nat.exists_eq_add_of_lt some
    have even : 2 ^ format.fractionBits % 2 = 0 := by
      rw [count, Nat.pow_succ]
      exact Nat.mul_mod_left _ _
    rw [Nat.add_mod, even, Nat.zero_add, Nat.mod_mod, parity_fraction some]
  case small =>
    rw [Nat.pow_succ]
    omega
  case least => omega
  case normal => exact fun _ => Nat.le_add_right _ _
  case edge =>
    rw [Bool.and_eq_true, decide_eq_true_eq, decide_eq_true_eq]
    omega

theorem datum_of_finite (some : 0 < format.fractionBits) (finite : format.IsFinite bits) :
    ∃ significand exponent edge, format.Scaled bits significand exponent edge ∧
      format.datum bits = .finite (format.isNegative bits) significand exponent edge := by
  rw [IsFinite, biased] at finite
  have sign : format.isNegative bits = decide
      (bits / 2 ^ format.fractionBits / 2 ^ format.exponentBits % 2 = 1) := by
    rw [isNegative, Nat.pow_add, Nat.div_div_eq_div_mul]
  simp only [datum, Nat.one_shiftLeft]
  rw [if_neg finite, sign]
  by_cases small : format.biased bits = 0
  · rw [biased] at small
    rw [if_pos small]
    exact ⟨_, _, _, scaled_small some small, rfl⟩
  · rw [if_neg (by exact small)]
    exact ⟨_, _, _, scaled_normal some small, rfl⟩

theorem datum_of_infinite (infinite : ¬ format.IsFinite bits) (empty : format.fraction bits = 0) :
    format.datum bits = .infinite (format.isNegative bits) := by
  rw [IsFinite, biased, not_not] at infinite
  rw [fraction] at empty
  simp only [datum, Nat.one_shiftLeft]
  rw [if_pos infinite, if_pos empty, isNegative, Nat.pow_add, Nat.div_div_eq_div_mul]

theorem datum_of_nan (infinite : ¬ format.IsFinite bits) (some : format.fraction bits ≠ 0) :
    format.datum bits = .nan := by
  rw [IsFinite, biased, not_not] at infinite
  rw [fraction] at some
  simp only [datum, Nat.one_shiftLeft]
  rw [if_pos infinite, if_neg some]

end Format

section Nearest
variable {x v y : ℚ}

theorem nearer_below_iff (less : v < y) :
    (|x - v| < |x - y| ↔ x < (v + y) / 2) ∧ (|x - v| = |x - y| ↔ x = (v + y) / 2) := by
  constructor <;> constructor <;> intro near <;> rcases abs_cases (x - v) with left | left <;>
    rcases abs_cases (x - y) with right | right <;> linarith

theorem nearer_above_iff (less : y < v) :
    (|x - v| < |x - y| ↔ (y + v) / 2 < x) ∧ (|x - v| = |x - y| ↔ x = (y + v) / 2) := by
  constructor <;> constructor <;> intro near <;> rcases abs_cases (x - v) with left | left <;>
    rcases abs_cases (x - y) with right | right <;> linarith

end Nearest

namespace Format
variable {format : Format} {bits : Nat}

/-- A number of the format stands on the grid of an exponent, or on a finer one and thus below all
numbers of this exponent with a leading digit. -/
theorem Has.grid_or_finer {y : ℚ} (has : format.Has y) (exponent : Int) :
    (∃ n : ℕ, y = n * 2 ^ exponent) ∨
      format.leastExponent < exponent ∧
        y ≤ (2 ^ (format.fractionBits + 1) - 1 : ℚ) * 2 ^ (exponent - 1) := by
  obtain ⟨m, e, small, least, rfl⟩ := has
  rw [← leastExponent_eq] at least
  rcases le_or_gt exponent e with coarse | fine
  · obtain ⟨steps, rfl⟩ := Int.le.dest coarse
    refine .inl ⟨m * 2 ^ steps, ?_⟩
    rw [zpow_add₀ (by norm_num), zpow_natCast]
    push_cast
    ring
  · have most : (m : ℚ) ≤ 2 ^ (format.fractionBits + 1) - 1 := by
      have : (m : ℚ) + 1 ≤ 2 ^ (format.fractionBits + 1) := by exact_mod_cast small
      linarith
    have step : (2 : ℚ) ^ e ≤ 2 ^ (exponent - 1) :=
      zpow_le_zpow_right₀ (by norm_num) (by omega)
    have nonneg : (0 : ℚ) ≤ 2 ^ (format.fractionBits + 1) - 1 := m.cast_nonneg.trans most
    exact .inr ⟨by omega, mul_le_mul most step (by positivity) nonneg⟩

/-- Of the other numbers only the next ones on either side matter. -/
theorem readsAs_iff_between {x up down : ℚ}
    (above : IsLeast {y | format.Has y ∧ format.magnitude bits < y} up)
    (below : IsGreatest {y | format.Has y ∧ y < format.magnitude bits} down) :
    format.ReadsAs bits x ↔
      (x < (format.magnitude bits + up) / 2 ∨
        x = (format.magnitude bits + up) / 2 ∧ bits % 2 = 0) ∧
      ((down + format.magnitude bits) / 2 < x ∨
        x = (down + format.magnitude bits) / 2 ∧ bits % 2 = 0) := by
  obtain ⟨⟨hasUp, higher⟩, least⟩ := above
  obtain ⟨⟨hasDown, lower⟩, greatest⟩ := below
  constructor
  · intro reads
    have up := reads up hasUp higher.ne'
    have down := reads down hasDown lower.ne
    rw [(nearer_below_iff higher).1, (nearer_below_iff higher).2] at up
    rw [(nearer_above_iff lower).1, (nearer_above_iff lower).2] at down
    exact ⟨up, down⟩
  · rintro ⟨low, high⟩ y has other
    rcases lt_or_gt_of_ne other with less | greater
    · have next := greatest ⟨has, less⟩
      rw [(nearer_above_iff less).1, (nearer_above_iff less).2]
      rcases high with inside | ⟨rfl, even⟩
      · exact .inl (by linarith)
      · rcases next.lt_or_eq with further | rfl
        · exact .inl (by linarith)
        · exact .inr ⟨rfl, even⟩
    · have next := least ⟨has, greater⟩
      rw [(nearer_below_iff greater).1, (nearer_below_iff greater).2]
      rcases low with inside | ⟨rfl, even⟩
      · exact .inl (by linarith)
      · rcases next.lt_or_eq with further | rfl
        · exact .inl (by linarith)
        · exact .inr ⟨rfl, even⟩

end Format

namespace Format.Scaled
variable {format : Format} {bits significand : Nat} {exponent : Int} {edge : Bool}
  (scaled : format.Scaled bits significand exponent edge)
include scaled

theorem leading_le (more : format.leastExponent < exponent) :
    (2 ^ format.fractionBits : ℚ) ≤ significand := by
  exact_mod_cast scaled.normal more

/-- The next number above. -/
theorem least_above :
    IsLeast {y | format.Has y ∧ format.magnitude bits < y} ((significand + 1) * 2 ^ exponent) := by
  have unit : (0 : ℚ) < 2 ^ exponent := by positivity
  rw [scaled.value]
  refine ⟨⟨?_, by nlinarith⟩, ?_⟩
  · have least := format.leastExponent_eq ▸ scaled.least
    rcases Nat.lt_or_eq_of_le scaled.small with more | last
    · exact ⟨significand + 1, exponent, more, least, by push_cast; rfl⟩
    · refine ⟨2 ^ format.fractionBits, exponent + 1, ?_, by omega, ?_⟩
      · exact Nat.pow_lt_pow_right (by decide) (Nat.lt_succ_self _)
      · have last : (significand + 1 : ℚ) = 2 ^ (format.fractionBits + 1) := by exact_mod_cast last
        rw [last, zpow_add_one₀ (by norm_num)]
        push_cast
        ring
  · rintro y ⟨has, above⟩
    rcases has.grid_or_finer exponent with ⟨n, rfl⟩ | ⟨more, fine⟩
    · have more : (significand : ℚ) < n := lt_of_mul_lt_mul_right above unit.le
      have next : (significand + 1 : ℚ) ≤ n := by exact_mod_cast more
      exact mul_le_mul_of_nonneg_right next unit.le
    · have leading := scaled.leading_le more
      rw [zpow_sub_one₀ (by norm_num)] at fine
      rw [pow_succ] at fine
      nlinarith

theorem has_below (some : 0 < significand) :
    format.Has ((significand - if edge then 1 / 2 else 1) * 2 ^ exponent) := by
  have least := format.leastExponent_eq ▸ scaled.least
  cases way : edge with
  | false =>
    refine ⟨significand - 1, exponent, by have := scaled.small; omega, least, ?_⟩
    rw [Nat.cast_sub some]
    simp
  | true =>
    obtain ⟨lead, more⟩ := scaled.edge.mp way
    have lead' : (significand : ℚ) = 2 ^ format.fractionBits := by exact_mod_cast lead
    have double : 1 ≤ 2 ^ (format.fractionBits + 1) := Nat.one_le_two_pow
    refine ⟨2 ^ (format.fractionBits + 1) - 1, exponent - 1, by omega, ?_, ?_⟩
    · rw [← leastExponent_eq]
      omega
    · rw [lead', Nat.cast_sub double, zpow_sub_one₀ (by norm_num)]
      push_cast
      rw [if_pos rfl]
      ring

/-- Numbers of a finer grid end before the next number below. -/
theorem finer_le_below (more : format.leastExponent < exponent) :
    (2 ^ (format.fractionBits + 1) - 1 : ℚ) * 2 ^ (exponent - 1) ≤
      (significand - if edge then 1 / 2 else 1) * 2 ^ exponent := by
  have unit : (0 : ℚ) < 2 ^ exponent := by positivity
  rw [zpow_sub_one₀ (by norm_num), pow_succ]
  cases way : edge with
  | true =>
    have lead : (significand : ℚ) = 2 ^ format.fractionBits := by
      exact_mod_cast (scaled.edge.mp way).1
    simp only [lead, if_true]
    linarith
  | false =>
    have other : significand ≠ 2 ^ format.fractionBits := fun lead => by
      have := scaled.edge.mpr ⟨lead, more⟩
      simp [way] at this
    have past : (2 ^ format.fractionBits + 1 : ℚ) ≤ significand := by
      exact_mod_cast Nat.lt_of_le_of_ne (scaled.normal more) other.symm
    simp only [Bool.false_eq_true, if_false]
    nlinarith

/-- The next number below; past an edge the numbers lie twice as close. -/
theorem greatest_below (some : 0 < significand) :
    IsGreatest {y | format.Has y ∧ y < format.magnitude bits}
      ((significand - if edge then 1 / 2 else 1) * 2 ^ exponent) := by
  have unit : (0 : ℚ) < 2 ^ exponent := by positivity
  rw [scaled.value]
  refine ⟨⟨scaled.has_below some, ?_⟩, ?_⟩
  · split <;> nlinarith
  · rintro y ⟨has, below⟩
    rcases has.grid_or_finer exponent with ⟨n, rfl⟩ | ⟨more, fine⟩
    · have less : (n : ℚ) < significand := lt_of_mul_lt_mul_right below unit.le
      have next : (n + 1 : ℚ) ≤ significand := by exact_mod_cast less
      refine mul_le_mul_of_nonneg_right ?_ unit.le
      split <;> linarith
    · exact fine.trans (scaled.finer_le_below more)

end Format.Scaled

namespace Interval

/-- The numbers between the ends, or up to them. -/
def Holds (range : Interval) (x : ℚ) : Prop :=
  if range.closed then
    range.low * 2 ^ range.exponent ≤ x ∧ x ≤ range.high * 2 ^ range.exponent
  else range.low * 2 ^ range.exponent < x ∧ x < range.high * 2 ^ range.exponent

def value (range : Interval) : ℚ := range.quarters * 2 ^ range.exponent

theorem Holds.within {range : Interval} {x : ℚ} (holds : range.Holds x) :
    range.low * 2 ^ range.exponent ≤ x ∧ x ≤ range.high * 2 ^ range.exponent := by
  rw [Holds] at holds
  split at holds
  · exact holds
  · exact ⟨holds.1.le, holds.2.le⟩

end Interval

namespace Format.Scaled
variable {format : Format} {bits significand : Nat} {exponent : Int} {edge : Bool}
  (scaled : format.Scaled bits significand exponent edge)
include scaled

theorem value_ofFinite :
    (Interval.ofFinite significand exponent edge).value = format.magnitude bits := by
  rw [scaled.value, Interval.value, Interval.ofFinite, zpow_sub₀ (by norm_num)]
  push_cast
  ring

theorem readsAs_iff_holds (some : 0 < significand) (x : ℚ) :
    format.ReadsAs bits x ↔ (Interval.ofFinite significand exponent edge).Holds x := by
  have quarter : (2 : ℚ) ^ (exponent - 2) = 2 ^ exponent / 4 := by
    rw [zpow_sub₀ (by norm_num)]
    norm_num
  have least : (if edge then 1 else 2) ≤ 4 * significand := by split <;> omega
  have low : ((4 * significand - (if edge then 1 else 2) : ℕ) : ℚ) * 2 ^ (exponent - 2) =
      ((significand - if edge then 1 / 2 else 1) * 2 ^ exponent + format.magnitude bits) / 2 := by
    rw [scaled.value, quarter, Nat.cast_sub least]
    push_cast
    split <;> ring
  have high : ((4 * significand + 2 : ℕ) : ℚ) * 2 ^ (exponent - 2) =
      (format.magnitude bits + (significand + 1) * 2 ^ exponent) / 2 := by
    rw [scaled.value, quarter]
    push_cast
    ring
  rw [readsAs_iff_between scaled.least_above (scaled.greatest_below some),
    Interval.Holds, Interval.ofFinite, low, high]
  simp only [decide_eq_true_eq, scaled.parity]
  by_cases even : bits % 2 = 0
  · rw [if_pos even]
    simp only [even, and_true, le_iff_lt_or_eq]
    rw [and_comm, eq_comm (a := x)]
  · rw [if_neg even]
    simp only [even, and_false, or_false]
    exact and_comm

end Format.Scaled
end SeriesClient.Number
