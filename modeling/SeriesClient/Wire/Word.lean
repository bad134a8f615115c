/-! Unsigned words as bytes, most significant first. A word keeps its residue modulo the width,
so signed integers and float bits travel through their unsigned words. -/
namespace SeriesClient

abbrev Bytes := List UInt8

namespace Wire

def bigEndian : (width : Nat) → Nat → Bytes
  | 0, _ => []
  | width + 1, n => UInt8.ofNat (n >>> (8 * width)) :: bigEndian width n

def ofBigEndian (bytes : Bytes) : Nat :=
  bytes.foldl (fun n b => 256 * n + b.toNat) 0

/-- How many numbers a word of so many bytes tells apart. -/
def wordSize (width : Nat) : Nat := 1 <<< (8 * width)

theorem wordSize_succ (width : Nat) : wordSize (width + 1) = wordSize width * 256 := by
  rw [wordSize, wordSize, Nat.mul_add, Nat.shiftLeft_add, Nat.shiftLeft_eq _ (8 * 1)]

@[simp] theorem length_bigEndian (width n : Nat) : (bigEndian width n).length = width := by
  induction width with
  | zero => rfl
  | succ width ih => simp [bigEndian, ih]

theorem foldl_bigEndian (width n seed : Nat) :
    (bigEndian width n).foldl (fun n b => 256 * n + b.toNat) seed =
      seed * wordSize width + n % wordSize width := by
  induction width generalizing seed with
  | zero => simp [bigEndian, wordSize, Nat.mod_one]
  | succ width ih =>
    have digit : (UInt8.ofNat (n >>> (8 * width))).toNat = n / wordSize width % 256 := by
      rw [UInt8.toNat_ofNat', Nat.shiftRight_eq_div_pow, wordSize, Nat.one_shiftLeft]
    have split : n % wordSize (width + 1) =
        wordSize width * (n / wordSize width % 256) + n % wordSize width := by
      rw [wordSize_succ, Nat.mod_mul, Nat.add_comm]
    rw [bigEndian, List.foldl_cons, ih, digit, split, Nat.add_mul, ← Nat.add_assoc,
      Nat.mul_comm (wordSize width) (n / wordSize width % 256), wordSize_succ,
      Nat.mul_comm 256 seed, Nat.mul_assoc, Nat.mul_comm 256]

theorem ofBigEndian_bigEndian (width n : Nat) :
    ofBigEndian (bigEndian width n) = n % wordSize width := by
  simp [ofBigEndian, foldl_bigEndian]

theorem wordSize_pos (width : Nat) : 0 < wordSize width := by
  rw [wordSize, Nat.one_shiftLeft]
  exact Nat.two_pow_pos _

theorem foldl_ofBigEndian (bytes : Bytes) (seed : Nat) :
    bytes.foldl (fun n b => 256 * n + b.toNat) seed =
      seed * wordSize bytes.length + ofBigEndian bytes := by
  induction bytes generalizing seed with
  | nil => simp [ofBigEndian, wordSize]
  | cons b bytes ih =>
    rw [ofBigEndian, List.foldl_cons, List.foldl_cons, ih, ih, List.length_cons, wordSize_succ,
      Nat.mul_zero, Nat.zero_add, Nat.add_mul, Nat.add_assoc]
    congr 1
    rw [Nat.mul_comm 256, Nat.mul_assoc, Nat.mul_comm 256]

theorem ofBigEndian_cons (b : UInt8) (bytes : Bytes) :
    ofBigEndian (b :: bytes) = b.toNat * wordSize bytes.length + ofBigEndian bytes := by
  rw [ofBigEndian, List.foldl_cons, foldl_ofBigEndian, Nat.mul_zero, Nat.zero_add]

theorem ofBigEndian_lt (bytes : Bytes) : ofBigEndian bytes < wordSize bytes.length := by
  induction bytes with
  | nil => exact wordSize_pos 0
  | cons b bytes ih =>
    have digit := b.toNat_lt
    rw [ofBigEndian_cons, List.length_cons, wordSize_succ]
    calc b.toNat * wordSize bytes.length + ofBigEndian bytes
      _ < b.toNat * wordSize bytes.length + wordSize bytes.length := Nat.add_lt_add_left ih _
      _ = (b.toNat + 1) * wordSize bytes.length := (Nat.succ_mul ..).symm
      _ ≤ 256 * wordSize bytes.length := Nat.mul_le_mul_right _ digit
      _ = wordSize bytes.length * 256 := Nat.mul_comm ..

/-- Digits above the width do not show. -/
theorem bigEndian_add (width high n : Nat) :
    bigEndian width (high * wordSize width + n) = bigEndian width n := by
  induction width generalizing high with
  | zero => rfl
  | succ width ih =>
    have shift : high * wordSize (width + 1) + n = high * 256 * wordSize width + n := by
      rw [wordSize_succ, Nat.mul_comm (wordSize width), Nat.mul_assoc]
    have digit : UInt8.ofNat ((high * 256 * wordSize width + n) >>> (8 * width)) =
        UInt8.ofNat (n >>> (8 * width)) := by
      rw [Nat.shiftRight_eq_div_pow, Nat.shiftRight_eq_div_pow, ← Nat.one_shiftLeft, ← wordSize,
        Nat.add_comm, Nat.add_mul_div_right _ _ (wordSize_pos width)]
      apply UInt8.toNat_inj.mp
      rw [UInt8.toNat_ofNat', UInt8.toNat_ofNat']
      exact Nat.add_mul_mod_self_right ..
    rw [shift, bigEndian, bigEndian, digit, ih]

theorem bigEndian_ofBigEndian (bytes : Bytes) :
    bigEndian bytes.length (ofBigEndian bytes) = bytes := by
  induction bytes with
  | nil => rfl
  | cons b bytes ih =>
    have digit : (b.toNat * wordSize bytes.length + ofBigEndian bytes) >>> (8 * bytes.length) =
        b.toNat := by
      rw [Nat.shiftRight_eq_div_pow, ← Nat.one_shiftLeft, ← wordSize, Nat.add_comm,
        Nat.add_mul_div_right _ _ (wordSize_pos _), Nat.div_eq_of_lt (ofBigEndian_lt bytes),
        Nat.zero_add]
    rw [List.length_cons, ofBigEndian_cons, bigEndian, digit, bigEndian_add, ih, UInt8.ofNat_toNat]

def int32Bytes (n : Int32) : Bytes := bigEndian 4 n.toUInt32.toNat

def int64Bytes (n : Int64) : Bytes := bigEndian 8 n.toUInt64.toNat

def int32OfBytes (bytes : Bytes) : Int32 := (UInt32.ofNat (ofBigEndian bytes)).toInt32

def int64OfBytes (bytes : Bytes) : Int64 := (UInt64.ofNat (ofBigEndian bytes)).toInt64

@[simp] theorem int32OfBytes_int32Bytes (n : Int32) : int32OfBytes (int32Bytes n) = n := by
  have bound : n.toUInt32.toNat % wordSize 4 = n.toUInt32.toNat :=
    Nat.mod_eq_of_lt n.toUInt32.toNat_lt
  rw [int32OfBytes, int32Bytes, ofBigEndian_bigEndian, bound, UInt32.ofNat_toNat,
    UInt32.toInt32, Int32.toUInt32]

@[simp] theorem int64OfBytes_int64Bytes (n : Int64) : int64OfBytes (int64Bytes n) = n := by
  have bound : n.toUInt64.toNat % wordSize 8 = n.toUInt64.toNat :=
    Nat.mod_eq_of_lt n.toUInt64.toNat_lt
  rw [int64OfBytes, int64Bytes, ofBigEndian_bigEndian, bound, UInt64.ofNat_toNat,
    UInt64.toInt64, Int64.toUInt64]

theorem int32Bytes_int32OfBytes {bytes : Bytes} (width : bytes.length = 4) :
    int32Bytes (int32OfBytes bytes) = bytes := by
  have bound := ofBigEndian_lt bytes
  rw [width] at bound
  rw [int32Bytes, int32OfBytes, UInt32.toUInt32_toInt32, UInt32.toNat_ofNat_of_lt' bound, ← width,
    bigEndian_ofBigEndian]

theorem int64Bytes_int64OfBytes {bytes : Bytes} (width : bytes.length = 8) :
    int64Bytes (int64OfBytes bytes) = bytes := by
  have bound := ofBigEndian_lt bytes
  rw [width] at bound
  rw [int64Bytes, int64OfBytes, UInt64.toUInt64_toInt64, UInt64.toNat_ofNat_of_lt' bound, ← width,
    bigEndian_ofBigEndian]

end Wire
end SeriesClient
