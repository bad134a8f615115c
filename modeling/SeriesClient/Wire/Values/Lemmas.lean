import SeriesClient.Wire.Values
import SeriesClient.Wire.Utf8.Lemmas

/-! A value is read back from its bytes, whatever comes after them, and put behind others as these
bytes or not at all. -/
namespace SeriesClient.Wire

@[simp] theorem length_int32Bytes (n : Int32) : (int32Bytes n).length = 4 := length_bigEndian ..

@[simp] theorem length_int64Bytes (n : Int64) : (int64Bytes n).length = 8 := length_bigEndian ..

namespace Reader

theorem fixed_append {α : Type} (meaning : Bytes → α) (count position : Nat) (bytes rest : Bytes)
    (h : bytes.length = count) :
    fixed count meaning ⟨position, bytes ++ rest⟩ =
      (.ok (meaning bytes), ⟨position + count, rest⟩) := by
  subst h
  rw [fixed, take_of_le _ _ (by simp [remaining])]
  simp [Except.map]

theorem toInt_ofNat_length (n : Nat) (h : n ≤ maxTextBytes) :
    (Int32.ofNat n).toInt = n := by
  exact Int32.toInt_ofNat_of_lt (Nat.lt_succ_of_le h)

theorem int32OfBytes_length (n : Nat) (h : n ≤ maxTextBytes) :
    (int32OfBytes (bigEndian 4 n)).toInt = n := by
  have bound : n % wordSize 4 = n := Nat.mod_eq_of_lt (Nat.lt_of_le_of_lt h (by decide))
  have : (UInt32.ofNat n).toInt32 = Int32.ofNat n := rfl
  rw [int32OfBytes, ofBigEndian_bigEndian, bound, this, toInt_ofNat_length n h]

theorem not_neg_of_toInt {n : Int32} {count : Nat} (counts : n.toInt = count) : ¬ n < 0 := by
  rw [Int32.lt_iff_toInt_lt, counts]
  simp

theorem text_textBytes (text : String) (bytes : Bytes) (h : textBytes text = .ok bytes)
    (position : Nat) (rest : Bytes) :
    Reader.text ⟨position, bytes ++ rest⟩ = (.ok text, ⟨position + bytes.length, rest⟩) := by
  simp only [textBytes] at h
  split at h
  · rename_i fits
    obtain rfl := Except.ok.inj h
    have length := int32OfBytes_length _ fits
    have nonneg := not_neg_of_toInt length
    rw [Reader.text, int32, List.append_assoc, fixed_append _ 4 _ _ _ (length_bigEndian ..)]
    simp only [if_neg nonneg, length, Int.toNat_natCast]
    rw [fixed_append _ _ _ _ _ rfl, Utf8.decode_encode]
    simp [Nat.add_assoc]
  · cases h

/-- Reading under the declared type undoes writing under it. -/
theorem value_encodeValue (declared : DataType) (value : Value) (bytes : Bytes)
    (h : encodeValue declared value = .ok bytes) (position : Nat) (rest : Bytes) :
    Reader.value declared ⟨position, bytes ++ rest⟩ =
      (.ok value, ⟨position + bytes.length, rest⟩) := by
  cases declared <;> cases value <;> simp only [encodeValue, Except.ok.injEq, reduceCtorEq] at h
  case boolean.boolean b =>
    subst h
    rw [Reader.value, byte, fixed_append _ 1 _ _ _ rfl]
    cases b <;> rfl
  case integer.integer n =>
    subst h
    rw [Reader.value, int32, fixed_append _ 4 _ _ _ (length_int32Bytes n), int32OfBytes_int32Bytes]
    simp [Except.map]
  case long.long n =>
    subst h
    rw [Reader.value, int64, fixed_append _ 8 _ _ _ (length_int64Bytes n), int64OfBytes_int64Bytes]
    simp [Except.map]
  case float.float x =>
    subst h
    have bound : x.bits.toNat % wordSize 4 = x.bits.toNat := Nat.mod_eq_of_lt x.bits.toNat_lt
    rw [Reader.value, float, fixed_append _ 4 _ _ _ (length_bigEndian ..), ofBigEndian_bigEndian,
      bound]
    simp [Except.map]
  case double.double x =>
    subst h
    have bound : x.bits.toNat % wordSize 8 = x.bits.toNat := Nat.mod_eq_of_lt x.bits.toNat_lt
    rw [Reader.value, double, fixed_append _ 8 _ _ _ (length_bigEndian ..), ofBigEndian_bigEndian,
      bound]
    simp [Except.map]
  case binary.binary text =>
    rw [Reader.value, text_textBytes text bytes h]
    rfl

end Reader

theorem putText_eq (buffer : Bytes) (text : String) :
    putText text buffer = match textBytes text with
      | .ok bytes => (.ok (), buffer ++ bytes)
      | .error e => (.error e, buffer) := by
  by_cases long : maxTextBytes < (Utf8.encode text).length
  · simp only [putText, textBytes, if_pos long, if_neg (Nat.not_le.mpr long)]
    rfl
  · simp only [putText, textBytes, if_neg long, if_pos (Nat.le_of_not_lt long)]
    exact congrArg (Except.ok (), ·) (List.append_assoc ..)

/-- Whether a value is refused is settled before any byte of it is written. -/
theorem appendValue_eq (buffer : Bytes) (declared : DataType) (value : Value) :
    appendValue buffer declared value = match encodeValue declared value with
      | .ok bytes => (.ok (), buffer ++ bytes)
      | .error e => (.error e, buffer) := by
  unfold appendValue
  fun_cases putValue declared value with
  | case1 text => exact putText_eq buffer text
  | case2 => cases encodeValue declared value <;> rfl

end SeriesClient.Wire
