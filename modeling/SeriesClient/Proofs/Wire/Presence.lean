import SeriesClient.Wire.Mask

/-! A mask as the set of its marked places. -/
namespace SeriesClient.Wire.Mask

/-- The bit of a place; a missing byte has no bits. -/
def bit (mask : Mask) (index : Nat) : Bool := (mask.bytes[index / 8]?).any (bitOf · index)

/-- Every place below the capacity has a byte. -/
def Sized (mask : Mask) : Prop := mask.bytes.length = storageLength mask.capacity

theorem Sized.byte {mask : Mask} (sized : mask.Sized) {index : Nat}
    (inside : index < mask.capacity) : index / 8 < mask.bytes.length :=
  sized ▸ div_lt_storageLength mask.capacity index inside

theorem empty_sized (capacity : Nat) : (empty capacity).Sized := List.length_replicate

theorem bit_empty (capacity index : Nat) : (empty capacity).bit index = false := by
  simp only [bit, empty, bytes, Storage.bytes, List.getElem?_replicate]
  split
  · simp [bitOf]
  · rfl

theorem bytes_view (capacity : Nat) (bitmap : Bytes) : (view capacity bitmap).bytes = bitmap := rfl

/-- Whoever owns the bytes, they are tested alike. -/
theorem test_view {mask : Mask} {capacity : Nat} (same : mask.capacity = capacity) (index : Nat) :
    (view capacity mask.bytes).test index = mask.test index := by
  subst same
  rfl

theorem test_eq_bit {mask : Mask} (sized : mask.Sized) {index : Nat}
    (inside : index < mask.capacity) : mask.test index = .ok (mask.bit index) := by
  have byte := List.getElem?_eq_getElem (sized.byte inside)
  rw [test, if_neg (Nat.not_le.mpr inside), bit, byte]
  rfl

theorem test_eq_ok_iff {mask : Mask} {index : Nat} {present : Bool} :
    mask.test index = .ok present ↔
      index < mask.capacity ∧ ∃ b, mask.bytes[index / 8]? = some b ∧ bitOf b index = present := by
  rw [test]
  by_cases outside : mask.capacity ≤ index
  · simp [outside, Nat.not_lt.mpr outside]
  · rw [if_neg outside, and_iff_right (Nat.lt_of_not_le outside)]
    cases mask.bytes[index / 8]? <;> simp

theorem bit_of_test {mask : Mask} {index : Nat} {present : Bool}
    (tested : mask.test index = .ok present) : mask.bit index = present := by
  obtain ⟨-, b, byte, rfl⟩ := test_eq_ok_iff.mp tested
  rw [bit, byte, Option.any_some]

/-- Bytes behind those of a mask change none of its answers. -/
theorem test_view_append {capacity : Nat} {bitmap : Bytes} {index : Nat} {present : Bool}
    (tested : (view capacity bitmap).test index = .ok present) (more : Bytes) :
    (view capacity (bitmap ++ more)).test index = .ok present := by
  obtain ⟨inside, b, byte, bit⟩ := test_eq_ok_iff.mp tested
  refine test_eq_ok_iff.mpr ⟨inside, b, ?_, bit⟩
  obtain ⟨there, -⟩ := List.getElem?_eq_some_iff.mp byte
  exact (List.getElem?_append_left there).trans byte

theorem test_view_take {capacity kept index : Nat} (early : index < 8 * kept) (bitmap : Bytes) :
    (view capacity (bitmap.take kept)).test index = (view capacity bitmap).test index := by
  have byte : (bitmap.take kept)[index / 8]? = bitmap[index / 8]? :=
    List.getElem?_take_of_lt (by omega)
  rw [test, test, bytes_view, bytes_view, byte]
  rfl

/-- Where a buffer ends early, the next bit is missing. -/
theorem test_view_missing {capacity kept : Nat} (short : kept < storageLength capacity)
    (bitmap : Bytes) : (view capacity (bitmap.take kept)).test (8 * kept) =
      .error (.corrupted .bitmap (.missingBit (8 * kept))) := by
  have inside : ¬ capacity ≤ 8 * kept := by
    rw [storageLength] at short
    omega
  have byte : (bitmap.take kept)[8 * kept / 8]? = none := by
    rw [Nat.mul_div_cancel_left kept (by decide)]
    exact List.getElem?_take_eq_none (Nat.le_refl kept)
  rw [test, bytes_view, byte]
  exact if_neg inside

theorem testBit_bytes {mask : Mask} {k j : Nat} (there : k < mask.bytes.length) (small : j < 8) :
    mask.bytes[k].toNat.testBit j = mask.bit (8 * k + j) := by
  have byte : (8 * k + j) / 8 = k := by omega
  have place : (8 * k + j) % 8 = j := by omega
  rw [bit, byte, List.getElem?_eq_getElem there, Option.any_some, bitOf, place]

/-- The bits of a mask fix its bytes. -/
theorem bytes_eq_of_bit {first second : Mask} (size : first.bytes.length = second.bytes.length)
    (bits : ∀ i, first.bit i = second.bit i) : first.bytes = second.bytes := by
  apply List.ext_getElem size
  intro k left right
  apply UInt8.toNat_inj.mp
  apply Nat.eq_of_testBit_eq
  intro j
  by_cases small : j < 8
  · rw [testBit_bytes left small, testBit_bytes right small, bits]
  · have high : 2 ^ 8 ≤ 2 ^ j := Nat.pow_le_pow_right (by decide) (Nat.le_of_not_lt small)
    rw [Nat.testBit_lt_two_pow (Nat.lt_of_lt_of_le (UInt8.toNat_lt _) high),
      Nat.testBit_lt_two_pow (Nat.lt_of_lt_of_le (UInt8.toNat_lt _) high)]

/-- What a mark does. In range it makes the mask an owner, also where the byte is missing. -/
inductive MarkEffect (mask : Mask) (index : Nat) : Except Error Unit × Mask → Prop
  | outside (beyond : mask.capacity ≤ index) :
    MarkEffect mask index (.error (.range index mask.capacity), mask)
  | missing (inside : index < mask.capacity) (gone : mask.bytes.length ≤ index / 8) :
    MarkEffect mask index
      (.error (.corrupted .bitmap (.missingBit index)), ⟨mask.capacity, .owned mask.bytes⟩)
  | set (inside : index < mask.capacity) (there : index / 8 < mask.bytes.length) :
    MarkEffect mask index (.ok (), ⟨mask.capacity,
      .owned (mask.bytes.set (index / 8) (withBit mask.bytes[index / 8] index))⟩)

theorem mark_effect (mask : Mask) (index : Nat) : MarkEffect mask index (mask.mark index) := by
  rw [mark]
  by_cases beyond : mask.capacity ≤ index
  · rw [if_pos beyond]
    exact .outside beyond
  · rw [if_neg beyond]
    have inside := Nat.lt_of_not_le beyond
    by_cases there : index / 8 < mask.bytes.length
    · simp only [List.getElem?_eq_getElem there]
      exact .set inside there
    · have gone := Nat.le_of_not_lt there
      simp only [List.getElem?_eq_none gone]
      exact .missing inside gone

/-- The mask after a mark. -/
def marked (mask : Mask) (index : Nat) : Mask := (mask.mark index).2

theorem mark_eq_marked {mask : Mask} {index : Nat} (inside : index < mask.capacity)
    (there : index / 8 < mask.bytes.length) : mask.mark index = (.ok (), mask.marked index) := by
  have effect := mask.mark_effect index
  rw [marked]
  generalize mask.mark index = outcome at effect
  cases effect with
  | outside beyond => exact absurd inside (Nat.not_lt.mpr beyond)
  | missing _ gone => exact absurd there (Nat.not_lt.mpr gone)
  | set => rfl

theorem capacity_marked (mask : Mask) (index : Nat) :
    (mask.marked index).capacity = mask.capacity := by
  have effect := mask.mark_effect index
  rw [marked]
  generalize mask.mark index = outcome at effect
  cases effect <;> rfl

theorem size_marked (mask : Mask) (index : Nat) :
    (mask.marked index).bytes.length = mask.bytes.length := by
  have effect := mask.mark_effect index
  rw [marked]
  generalize mask.mark index = outcome at effect
  cases effect with
  | outside => rfl
  | missing => rfl
  | set => exact List.length_set

theorem marked_sized {mask : Mask} (sized : mask.Sized) (index : Nat) :
    (mask.marked index).Sized := by
  rw [Sized, capacity_marked, size_marked]
  exact sized

/-- Within one byte a mark shows at its own place only, and other bytes stay as they are. -/
theorem bit_set {bytes : Bytes} {index : Nat} (there : index / 8 < bytes.length)
    (capacity other : Nat) :
    bit ⟨capacity, .owned (bytes.set (index / 8) (withBit bytes[index / 8] index))⟩ other =
      (index == other || bit ⟨capacity, .owned bytes⟩ other) := by
  simp only [bit, Mask.bytes, Storage.bytes, List.getElem?_set]
  split
  · rename_i sameByte
    have place : (index % 8 == other % 8) = (index == other) := by
      rw [Bool.eq_iff_iff, beq_iff_eq, beq_iff_eq]
      omega
    rw [Option.any_some, bitOf_withBit, place, ← sameByte,
      List.getElem?_eq_getElem there, Option.any_some]
  · rename_i otherByte
    have apart : (index == other) = false := by
      rw [beq_eq_false_iff_ne]
      rintro rfl
      exact otherByte rfl
    rw [apart, Bool.false_or]

theorem bit_marked {mask : Mask} {index : Nat} (inside : index < mask.capacity)
    (there : index / 8 < mask.bytes.length) (other : Nat) :
    (mask.marked index).bit other = (index == other || mask.bit other) := by
  have effect := mask.mark_effect index
  rw [marked]
  generalize mask.mark index = outcome at effect
  cases effect with
  | outside beyond => exact absurd inside (Nat.not_lt.mpr beyond)
  | missing _ gone => exact absurd there (Nat.not_lt.mpr gone)
  | set => exact bit_set there mask.capacity other

end SeriesClient.Wire.Mask
