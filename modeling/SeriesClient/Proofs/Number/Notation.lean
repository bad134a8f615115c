import SeriesClient.Number.Style
import SeriesClient.Proofs.Number.ShortestDecimal

/-! How decimals are written down, by arithmetic on their coefficients: the whole part of a number
and the digits behind the point, or one digit before it and an exponent. The styles, which cut and
fill lists of digits, write the same. -/
namespace SeriesClient.Number

/-- The last digits of a number, so many of them, zeros included. -/
def fixed : (width n : Nat) → List Char
  | 0, _ => []
  | width + 1, n => fixed width (n / 10) ++ [Nat.digitChar (n % 10)]

namespace Decimal

/-- Without an exponent, and without a point where nothing stands behind it. -/
def plain (d : Decimal) : String :=
  match d.exponent with
  | .ofNat zeros => toString (d.coefficient * 10 ^ zeros)
  | .negSucc n => toString (d.coefficient / 10 ^ (n + 1)) ++ "." ++
    String.ofList (fixed (n + 1) (d.coefficient % 10 ^ (n + 1)))

/-- Without an exponent, and always with a point. -/
def pointed (d : Decimal) : String := if 0 ≤ d.exponent then d.plain ++ ".0" else d.plain

/-- With an exponent, that of the leading digit; this one stands before the point. -/
def scientific (d : Decimal) : String :=
  let behind := d.digits - 1
  toString (d.coefficient / 10 ^ behind) ++
    (if behind = 0 then ""
      else "." ++ String.ofList (fixed behind (d.coefficient % 10 ^ behind))) ++
    "e" ++ toString (d.exponent + behind)

/-- With an exponent only if that of the leading digit is beyond these. -/
def delimited (least greatest : Int) (d : Decimal) : String :=
  let leading := d.exponent + (d.digits - 1 : ℕ)
  if least ≤ leading ∧ leading ≤ greatest then d.pointed else d.scientific

end Decimal

theorem length_fixed (width n : Nat) : (fixed width n).length = width := by
  induction width generalizing n with
  | zero => rfl
  | succ width ih => rw [fixed, List.length_append, ih, List.length_singleton]

theorem fixed_zero (width : Nat) : fixed width 0 = List.replicate width '0' := by
  induction width with
  | zero => rfl
  | succ width ih =>
    rw [fixed, Nat.zero_div, ih, List.replicate_succ']
    rfl

/-- Where a number is cut, its last digits stand behind those of the rest. -/
theorem toDigits_split {n width : Nat} (some : 0 < n / 10 ^ width) :
    Nat.toDigits 10 n = Nat.toDigits 10 (n / 10 ^ width) ++ fixed width (n % 10 ^ width) := by
  induction width generalizing n with
  | zero => simp [fixed]
  | succ width ih =>
    have rest : n / 10 ^ (width + 1) = n / 10 / 10 ^ width := by
      rw [Nat.pow_succ', Nat.div_div_eq_div_mul]
    have base : 10 ≤ n := by
      by_contra less
      rw [rest, Nat.div_eq_of_lt (not_le.mp less), Nat.zero_div] at some
      exact absurd some (Nat.lt_irrefl 0)
    have digit : n % 10 ^ (width + 1) % 10 = n % 10 := by
      rw [Nat.pow_succ, Nat.mod_mul_left_mod]
    have others : n % 10 ^ (width + 1) / 10 = n / 10 % 10 ^ width := by
      rw [Nat.pow_succ', Nat.mod_mul_right_div_self]
    rw [rest] at some
    rw [Nat.toDigits_of_base_le (by decide) base, ih some, fixed, digit, others, rest,
      List.append_assoc]

/-- Short numbers are filled with zeros in front. -/
theorem fixed_of_lt {n width : Nat} (some : 0 < width) (short : n < 10 ^ width) :
    fixed width n = List.replicate (width - digitCount n) '0' ++ Nat.toDigits 10 n := by
  induction width generalizing n with
  | zero => exact absurd some (Nat.lt_irrefl 0)
  | succ width ih =>
    rw [fixed]
    rcases Nat.lt_or_ge n 10 with digit | more
    · have one : digitCount n = 1 := by
        rw [digitCount, Nat.toDigits_of_lt_base digit]
        rfl
      rw [Nat.div_eq_of_lt digit, fixed_zero, one, Nat.mod_eq_of_lt digit,
        Nat.toDigits_of_lt_base digit, Nat.add_sub_cancel]
    · have rest : n / 10 < 10 ^ width := by
        rw [Nat.pow_succ] at short
        exact (Nat.div_lt_iff_lt_mul (by decide)).mpr short
      have some : 0 < width := by
        by_contra zero
        obtain rfl : width = 0 := by omega
        omega
      have count : digitCount n = digitCount (n / 10) + 1 := by
        rw [digitCount, Nat.toDigits_of_base_le (by decide) more, List.length_append]
        rfl
      rw [ih some rest, count, Nat.add_sub_add_right, Nat.toDigits_of_base_le (by decide) more,
        List.append_assoc]

theorem toDigits_shifted {n : Nat} (some : 0 < n) (zeros : Nat) :
    Nat.toDigits 10 (n * 10 ^ zeros) = Nat.toDigits 10 n ++ List.replicate zeros '0' := by
  have cut : n * 10 ^ zeros / 10 ^ zeros = n := Nat.mul_div_cancel _ (by positivity)
  have split := @toDigits_split (n * 10 ^ zeros) zeros (by rwa [cut])
  rwa [cut, Nat.mul_mod_left, fixed_zero] at split

theorem toString_eq (n : Nat) : toString n = String.ofList (Nat.toDigits 10 n) :=
  Nat.toString_eq_ofList_toDigits

theorem toString_int (n : Int) : toString n =
    String.ofList ((if n < 0 then ['-'] else []) ++ Nat.toDigits 10 n.natAbs) := by
  cases n with
  | ofNat n => exact toString_eq n
  | negSucc n =>
    rw [if_pos (Int.negSucc_lt_zero n), String.ofList_append]
    rfl

theorem Decimal.plain_of_whole {d : Decimal} {zeros : Nat} (whole : d.exponent = Int.ofNat zeros) :
    d.plain = String.ofList (Nat.toDigits 10 (d.coefficient * 10 ^ zeros)) := by
  rw [plain, whole]
  exact toString_eq _

theorem Decimal.plain_of_fraction {d : Decimal} {n : Nat} (behind : d.exponent = Int.negSucc n) :
    d.plain = String.ofList (Nat.toDigits 10 (d.coefficient / 10 ^ (n + 1)) ++
      '.' :: fixed (n + 1) (d.coefficient % 10 ^ (n + 1))) := by
  rw [plain, behind, ← List.singleton_append, String.ofList_append, String.ofList_append,
    ← String.append_assoc, ← toString_eq]

namespace Style
variable {d : Decimal}

theorem pointed_of_whole (style : Style) (n zeros : Nat) (some : n ≠ 0 ∨ zeros = 0) :
    style.pointed (Nat.toDigits 10 n) (zeros + digitCount n) =
      Nat.toDigits 10 (n * 10 ^ zeros) ++ if style.keepsPoint then ['.', '0'] else [] := by
  have count := digitCount_pos n
  have fill : ((zeros : ℤ) + digitCount n).toNat = zeros + digitCount n := by omega
  have length : (Nat.toDigits 10 n).length = digitCount n := rfl
  rw [pointed, if_neg (by omega), fill, length, if_pos (Nat.le_add_left _ _), Nat.add_sub_cancel,
    Style.zeros]
  rcases some with some | rfl
  · rw [toDigits_shifted (Nat.pos_of_ne_zero some)]
  · rw [Nat.pow_zero, Nat.mul_one, List.replicate_zero, List.append_nil]

theorem pointed_of_fraction (style : Style) (n behind : Nat) (some : 0 < behind) :
    style.pointed (Nat.toDigits 10 n) (-(behind : ℤ) + digitCount n) =
      Nat.toDigits 10 (n / 10 ^ behind) ++ '.' :: fixed behind (n % 10 ^ behind) := by
  have count := digitCount_pos n
  have length : (Nat.toDigits 10 n).length = digitCount n := rfl
  rcases Nat.lt_or_ge behind (digitCount n) with cut | short
  · have whole : (-(behind : ℤ) + digitCount n).toNat = digitCount n - behind := by omega
    have front : 0 < n / 10 ^ behind := by
      have large := pow_digitCount_le (n := n) (by
        by_contra zero
        obtain rfl : n = 0 := by omega
        have one : digitCount 0 = 1 := rfl
        omega)
      have := Nat.pow_le_pow_right (n := 10) (by decide) (show behind ≤ digitCount n - 1 by omega)
      exact Nat.div_pos (this.trans large) (by positivity)
    have split := toDigits_split front
    have place : (Nat.toDigits 10 (n / 10 ^ behind)).length = digitCount n - behind := by
      have both := congrArg List.length split
      rw [List.length_append, length_fixed, length] at both
      omega
    rw [pointed, if_neg (by omega), whole, length, if_neg (by omega), split,
      List.take_left' place, List.drop_left' place]
  · have less : n < 10 ^ behind :=
      (lt_pow_digitCount n).trans_le (Nat.pow_le_pow_right (by decide) short)
    have fill : (-(-(behind : ℤ) + digitCount n)).toNat = behind - digitCount n := by omega
    rw [pointed, if_pos (by omega), fill, Nat.div_eq_of_lt less, Nat.mod_eq_of_lt less,
      fixed_of_lt some less, Style.zeros]
    rfl

theorem ofList_pointed (style : Style) (lowest : d.Lowest) :
    String.ofList (style.pointed (Nat.toDigits 10 d.coefficient)
      (d.exponent + digitCount d.coefficient)) =
      if style.keepsPoint then d.pointed else d.plain := by
  rw [Decimal.pointed]
  cases exponent : d.exponent with
  | ofNat zeros =>
    have some : d.coefficient ≠ 0 ∨ zeros = 0 := by
      rcases lowest with last | none
      · exact .inl fun zero => last (by rw [zero])
      · rw [none] at exponent
        exact .inr (Int.ofNat.inj exponent).symm
    have whole : 0 ≤ Int.ofNat zeros := Int.natCast_nonneg zeros
    have written := style.pointed_of_whole _ zeros some
    rw [← Int.ofNat_eq_natCast] at written
    rw [written, Decimal.plain_of_whole exponent, String.ofList_append, if_pos whole]
    cases style.keepsPoint with
    | true => rfl
    | false => exact String.append_empty
  | negSucc n =>
    have minus : -((n + 1 : ℕ) : ℤ) = Int.negSucc n := rfl
    have written := style.pointed_of_fraction d.coefficient (n + 1) (Nat.succ_pos n)
    rw [minus] at written
    rw [written, Decimal.plain_of_fraction exponent,
      if_neg (Int.not_le.mpr (Int.negSucc_lt_zero n)), ite_self]

/-- The digits of a number are its first one and the others. -/
theorem toDigits_leading (n : Nat) : ∃ first : Char,
    Nat.toDigits 10 (n / 10 ^ (digitCount n - 1)) = [first] ∧
      Nat.toDigits 10 n =
        first :: fixed (digitCount n - 1) (n % 10 ^ (digitCount n - 1)) := by
  have high := lt_pow_digitCount n
  have count := digitCount_pos n
  rcases Nat.eq_zero_or_pos n with rfl | some
  · exact ⟨'0', rfl, rfl⟩
  · have front : 0 < n / 10 ^ (digitCount n - 1) :=
      Nat.div_pos (pow_digitCount_le some) (by positivity)
    have digit : n / 10 ^ (digitCount n - 1) < 10 := by
      rw [Nat.div_lt_iff_lt_mul (by positivity), ← Nat.pow_succ', Nat.succ_eq_add_one,
        Nat.sub_one_add_one count.ne']
      exact high
    refine ⟨_, Nat.toDigits_of_lt_base digit, ?_⟩
    rw [toDigits_split front, Nat.toDigits_of_lt_base digit]
    rfl

/-- What is written with an exponent. -/
theorem ofList_scientific {style : Style} (unsigned : style.signsExponent = false) :
    String.ofList (style.scientific (Nat.toDigits 10 d.coefficient)
      (d.exponent + (d.digits - 1 : ℕ))) = d.scientific := by
  obtain ⟨first, front, digits⟩ := toDigits_leading d.coefficient
  have none : (if style.signsExponent then ['+'] else []) = [] := if_neg (by simp [unsigned])
  have length := length_fixed (digitCount d.coefficient - 1)
    (d.coefficient % 10 ^ (digitCount d.coefficient - 1))
  simp only [Decimal.scientific, scientific, none, toString_eq, toString_int,
    digitCount_eq_digits, front, digits]
  generalize digitCount d.coefficient - 1 = behind at *
  generalize fixed behind _ = rest at *
  have merge (a b : List Char) : String.ofList a ++ String.ofList b = String.ofList (a ++ b) :=
    String.ofList_append.symm
  have letter : "e" = String.ofList ['e'] := rfl
  have point : "." = String.ofList ['.'] := rfl
  have nothing : "" = String.ofList [] := rfl
  cases rest with
  | nil =>
    obtain rfl : behind = 0 := length.symm
    rw [if_pos rfl, letter, nothing, merge, merge, merge]
    rfl
  | cons second others =>
    have some : behind ≠ 0 := by
      rw [← length]
      exact Nat.succ_ne_zero _
    rw [if_neg some, letter, point, merge, merge, merge, merge]
    simp only [List.append_assoc, List.cons_append, List.nil_append]

theorem decimal_eq (style : Style) (d : Decimal) : style.decimal d =
    if style.positional.all (·.contains (d.exponent + (d.digits - 1 : ℕ))) then
      style.pointed (Nat.toDigits 10 d.coefficient) (d.exponent + digitCount d.coefficient)
    else style.scientific (Nat.toDigits 10 d.coefficient) (d.exponent + (d.digits - 1 : ℕ)) := by
  have count := digitCount_pos d.coefficient
  have leading : d.exponent + digitCount d.coefficient - 1 =
      d.exponent + (digitCount d.coefficient - 1 : ℕ) := by omega
  have next : d.exponent + (digitCount d.coefficient - 1 : ℕ) + 1 =
      d.exponent + digitCount d.coefficient := by omega
  have length : (Nat.toDigits 10 d.coefficient).length = digitCount d.coefficient := rfl
  rw [decimal, digitCount_eq_digits]
  simp only [length, leading, next]

/-- A style without exponents or needless points. -/
theorem decimal_plain {style : Style} (everywhere : style.positional = none)
    (bare : style.keepsPoint = false) (lowest : d.Lowest) :
    String.ofList (style.decimal d) = d.plain := by
  rw [decimal_eq, everywhere, Option.all_none, if_pos rfl, ofList_pointed style lowest,
    if_neg (by simp [bare])]

/-- A style that keeps points and has exponents beyond a span. -/
theorem decimal_delimited {style : Style} {span : Span} (within : style.positional = some span)
    (kept : style.keepsPoint = true) (unsigned : style.signsExponent = false)
    (lowest : d.Lowest) :
    String.ofList (style.decimal d) = d.delimited span.least span.greatest := by
  rw [decimal_eq, within, Option.all_some, Span.contains, Decimal.delimited]
  simp only [Bool.and_eq_true, decide_eq_true_eq]
  split
  · rw [ofList_pointed style lowest, if_pos kept]
  · exact ofList_scientific unsigned

end Style
end SeriesClient.Number
