import SeriesClient.Proofs.Number.Notation

/-! Numerals, read as the numbers that they stand for: digits, behind a point those of a fraction,
behind an `e` a power of ten. Every notation of a decimal is read as its value. -/
namespace SeriesClient.Number

def AllDigits (text : List Char) : Prop := ∀ c ∈ text, c.isDigit = true

instance (text : List Char) : Decidable (AllDigits text) :=
  inferInstanceAs (Decidable (∀ c ∈ text, c.isDigit = true))

/-- One digit or more. -/
def readNat (text : List Char) : Option Nat :=
  if text ≠ [] ∧ AllDigits text then some (Nat.ofDigitChars 10 text 0) else none

/-- Digits, and maybe a point with digits behind it. -/
def readFraction (text : List Char) : Option ℚ :=
  match text.dropWhile (· != '.') with
  | [] => (readNat text).map fun n : Nat => (n : ℚ)
  | _ :: behind => do
    let whole ← readNat (text.takeWhile (· != '.'))
    let part ← readNat behind
    return whole + part / 10 ^ behind.length

def readInt : List Char → Option Int
  | '-' :: text => (readNat text).map fun n : Nat => -(n : ℤ)
  | text => (readNat text).map fun n : Nat => (n : ℤ)

/-- A number without a sign, and maybe a power of ten with one behind it. -/
def readNumeral (text : List Char) : Option ℚ :=
  match text.dropWhile (· != 'e') with
  | [] => readFraction text
  | _ :: behind => do
    let number ← readFraction (text.takeWhile (· != 'e'))
    let power ← readInt behind
    return number * 10 ^ power

/-- A numeral, and maybe a sign before it. -/
def readSigned (text : String) : Option ℚ :=
  match text.toList with
  | '-' :: text => (readNumeral text).map fun number => -number
  | text => readNumeral text

section Digits

theorem allDigits_toDigits (n : Nat) : AllDigits (Nat.toDigits 10 n) :=
  fun _ => Nat.isDigit_of_mem_toDigits (by decide) (by decide)

theorem isDigit_digitChar {n : Nat} (digit : n < 10) : (Nat.digitChar n).isDigit = true :=
  Nat.isDigit_of_mem_toDigits (by decide) (by decide)
    (Nat.toDigits_of_lt_base digit ▸ List.mem_singleton_self _)

theorem allDigits_fixed (width n : Nat) : AllDigits (fixed width n) := by
  induction width generalizing n with
  | zero => exact fun _ none => absurd none List.not_mem_nil
  | succ width ih =>
    intro c found
    rcases List.mem_append.mp found with before | last
    · exact ih _ c before
    · rw [List.mem_singleton.mp last]
      exact isDigit_digitChar (Nat.mod_lt _ (by decide))

theorem readNat_toDigits (n : Nat) : readNat (Nat.toDigits 10 n) = some n := by
  rw [readNat, if_pos ⟨Nat.toDigits_ne_nil, allDigits_toDigits n⟩, Nat.ofDigitChars_ten_toDigits]

theorem ofDigitChars_fixed (width n : Nat) :
    Nat.ofDigitChars 10 (fixed width n) 0 = n % 10 ^ width := by
  induction width generalizing n with
  | zero => simp [fixed, Nat.mod_one]
  | succ width ih =>
    have last : Nat.ofDigitChars 10 [Nat.digitChar (n % 10)] 0 = n % 10 := by
      rw [← Nat.toDigits_of_lt_base (Nat.mod_lt n (by decide)), Nat.ofDigitChars_ten_toDigits]
    have next (c : Char) (before : Nat) :
        Nat.ofDigitChars 10 [c] before = 10 * before + Nat.ofDigitChars 10 [c] 0 := by
      simp [Nat.ofDigitChars]
    rw [fixed, Nat.ofDigitChars_append, ih, next, last, Nat.pow_succ', Nat.mod_mul, Nat.add_comm]

theorem readNat_fixed {width n : Nat} (some : 0 < width) (fits : n < 10 ^ width) :
    readNat (fixed width n) = .some n := by
  have filled : fixed width n ≠ [] := by
    rw [← List.length_pos_iff, length_fixed]
    exact some
  rw [readNat, if_pos ⟨filled, allDigits_fixed width n⟩, ofDigitChars_fixed, Nat.mod_eq_of_lt fits]

end Digits

section Marks
variable {mark : Char} {text : List Char}

theorem AllDigits.apart (digits : AllDigits text) (mark : Char) (other : mark.isDigit = false) :
    mark ∉ text := by
  intro found
  rw [digits mark found] at other
  cases other

theorem all_bne_of_not_mem (apart : mark ∉ text) : ∀ c ∈ text, (c != mark) = true := by
  intro c found
  rw [bne_iff_ne]
  rintro rfl
  exact apart found

theorem dropWhile_of_not_mem (apart : mark ∉ text) : text.dropWhile (· != mark) = [] := by
  have dropped := @List.dropWhile_append_of_pos _ (· != mark) text [] (all_bne_of_not_mem apart)
  simpa using dropped

/-- A text is split at the first mark in it. -/
theorem split_at_mark (apart : mark ∉ text) (behind : List Char) :
    (text ++ mark :: behind).takeWhile (· != mark) = text ∧
      (text ++ mark :: behind).dropWhile (· != mark) = mark :: behind := by
  have all := all_bne_of_not_mem apart
  rw [List.takeWhile_append_of_pos all, List.dropWhile_append_of_pos all]
  simp

end Marks

theorem readFraction_toDigits (n : Nat) : readFraction (Nat.toDigits 10 n) = some (n : ℚ) := by
  have none := dropWhile_of_not_mem ((allDigits_toDigits n).apart '.' rfl)
  rw [readFraction, none, readNat_toDigits]
  rfl

theorem readFraction_point (whole : Nat) {width part : Nat} (some : 0 < width)
    (fits : part < 10 ^ width) :
    readFraction (Nat.toDigits 10 whole ++ '.' :: fixed width part) =
      .some (whole + part / 10 ^ width : ℚ) := by
  have apart := (allDigits_toDigits whole).apart '.' rfl
  obtain ⟨front, behind⟩ := split_at_mark apart (fixed width part)
  rw [readFraction, behind, front, readNat_toDigits]
  simp only [readNat_fixed some fits, length_fixed]
  rfl

theorem readInt_of_digits {text : List Char} (digits : AllDigits text) :
    readInt text = (readNat text).map fun n : Nat => (n : ℤ) := by
  unfold readInt
  split
  · have := digits '-' List.mem_cons_self
    cases this
  · rfl

theorem readInt_toString (n : Int) : readInt (toString n).toList = some n := by
  rw [toString_int, String.toList_ofList]
  split
  · rename_i negative
    rw [List.singleton_append, readInt, readNat_toDigits, Option.map_some]
    congr 1
    omega
  · rename_i positive
    rw [List.nil_append, readInt_of_digits (allDigits_toDigits _), readNat_toDigits,
      Option.map_some]
    congr 1
    omega

theorem readNumeral_of_fraction {text : List Char} (apart : 'e' ∉ text) :
    readNumeral text = readFraction text := by
  rw [readNumeral, dropWhile_of_not_mem apart]

theorem readNumeral_power {text power : List Char} (apart : 'e' ∉ text) {number : ℚ} {n : Int}
    (read : readFraction text = some number) (read' : readInt power = some n) :
    readNumeral (text ++ 'e' :: power) = some (number * 10 ^ n) := by
  obtain ⟨front, behind⟩ := split_at_mark apart power
  rw [readNumeral, behind, front, read]
  simp only [read']
  rfl

theorem not_mem_digits_point (whole width part : Nat) :
    'e' ∉ Nat.toDigits 10 whole ++ '.' :: fixed width part := by
  simp [(allDigits_toDigits whole).apart 'e' rfl,
    (allDigits_fixed width part).apart 'e' rfl]

theorem readNat_minus (text : List Char) : readNat ('-' :: text) = none := by
  rw [readNat, if_neg]
  rintro ⟨-, digits⟩
  cases digits '-' List.mem_cons_self

theorem readFraction_minus (text : List Char) : readFraction ('-' :: text) = none := by
  rw [readFraction, List.dropWhile_cons_of_pos (by decide), List.takeWhile_cons_of_pos (by decide),
    readNat_minus, readNat_minus]
  split <;> rfl

/-- A numeral has no sign of its own. -/
theorem readNumeral_minus (text : List Char) : readNumeral ('-' :: text) = none := by
  rw [readNumeral, List.dropWhile_cons_of_pos (by decide), List.takeWhile_cons_of_pos (by decide),
    readFraction_minus, readFraction_minus]
  split <;> rfl

theorem readSigned_numeral {text : String} {number : ℚ}
    (read : readNumeral text.toList = some number) (negative : Bool) :
    readSigned ((if negative then "-" else "") ++ text) =
      some (if negative then -number else number) := by
  cases negative with
  | true =>
    have minus : ("-" ++ text).toList = '-' :: text.toList := by
      rw [String.toList_append]
      rfl
    simp only [if_true]
    rw [readSigned, minus]
    exact congrArg (Option.map fun number => -number) read
  | false =>
    simp only [Bool.false_eq_true, if_false, String.empty_append]
    rw [readSigned]
    split
    · rename_i rest minus
      rw [minus, readNumeral_minus] at read
      cases read
    · exact read

/-- A number is its digits before a point and those behind it. -/
theorem div_add_mod_cast (n width : Nat) :
    ((n / 10 ^ width : ℕ) + (n % 10 ^ width : ℕ) / 10 ^ width : ℚ) = n / 10 ^ width := by
  have split : (n : ℚ) = (10 ^ width * (n / 10 ^ width) + n % 10 ^ width : ℕ) := by
    rw [Nat.div_add_mod]
  rw [split]
  push_cast
  field_simp

namespace Decimal

theorem readNumeral_plain (d : Decimal) : readNumeral d.plain.toList = some d.value := by
  cases exponent : d.exponent with
  | ofNat zeros =>
    rw [plain_of_whole exponent, String.toList_ofList, readNumeral_of_fraction
      ((allDigits_toDigits _).apart 'e' rfl), readFraction_toDigits, value, exponent]
    push_cast
    rfl
  | negSucc n =>
    have fits := Nat.mod_lt d.coefficient (show 0 < 10 ^ (n + 1) by positivity)
    rw [plain_of_fraction exponent, String.toList_ofList,
      readNumeral_of_fraction (not_mem_digits_point _ _ _), readFraction_point _ (Nat.succ_pos n) fits,
      div_add_mod_cast, value, exponent, zpow_negSucc, div_eq_mul_inv]

theorem readNumeral_pointed (d : Decimal) : readNumeral d.pointed.toList = some d.value := by
  rw [pointed]
  split
  · rename_i whole
    obtain ⟨zeros, exponent⟩ := Int.eq_ofNat_of_zero_le whole
    have tail : ".0".toList = '.' :: fixed 1 0 := by decide
    rw [plain_of_whole exponent, String.toList_append, String.toList_ofList, tail,
      readNumeral_of_fraction (not_mem_digits_point _ _ _),
      readFraction_point _ Nat.one_pos (by decide), value, exponent]
    push_cast
    simp
  · exact d.readNumeral_plain

/-- What stands before the exponent has one digit before the point, if it has one. -/
theorem exists_mantissa (d : Decimal) : ∃ text, 'e' ∉ text ∧
    d.scientific.toList = text ++ 'e' :: (toString (d.exponent + (d.digits - 1 : ℕ))).toList ∧
    readFraction text = some (d.coefficient / 10 ^ (d.digits - 1) : ℚ) := by
  have fits := Nat.mod_lt d.coefficient (show 0 < 10 ^ (d.digits - 1) by positivity)
  have letter : "e".toList = ['e'] := rfl
  have point : ".".toList = ['.'] := rfl
  simp only [scientific]
  generalize toString (d.exponent + (d.digits - 1 : ℕ)) = power
  generalize d.digits - 1 = behind at *
  rcases Nat.eq_zero_or_pos behind with rfl | some
  · refine ⟨Nat.toDigits 10 d.coefficient, (allDigits_toDigits _).apart 'e' rfl, ?_, ?_⟩
    · simp [letter]
    · simp [readFraction_toDigits]
  · refine ⟨_, not_mem_digits_point (d.coefficient / 10 ^ behind) behind (d.coefficient % 10 ^ behind),
      ?_, ?_⟩
    · rw [if_neg some.ne']
      simp [letter, point]
    · rw [readFraction_point _ some fits, div_add_mod_cast]

theorem readNumeral_scientific (d : Decimal) : readNumeral d.scientific.toList = some d.value := by
  obtain ⟨text, apart, written, read⟩ := d.exists_mantissa
  rw [written, readNumeral_power apart read (readInt_toString _), value, zpow_add₀ (by norm_num),
    zpow_natCast]
  congr 1
  field_simp

theorem readNumeral_delimited (least greatest : Int) (d : Decimal) :
    readNumeral (d.delimited least greatest).toList = some d.value := by
  rw [delimited]
  split
  · exact d.readNumeral_pointed
  · exact d.readNumeral_scientific

end Decimal
end SeriesClient.Number
