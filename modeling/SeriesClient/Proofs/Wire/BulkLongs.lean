import SeriesClient.Proofs.Wire.DenseValues
import SeriesClient.Proofs.Wire.Walk
import SeriesClient.Wire.Timestamps

/-! Timestamps as values. They are converted in bulk, and the outcome is that of longs written and
read one by one: the bytes are those of a row of longs without gaps, and a buffer that holds whole
longs is read alike both ways. -/
namespace SeriesClient.Wire
open Spelling

/-- A long in the only form it has. -/
def Spelling.ofLong (n : Int64) : Spelling where
  value := .long n
  bytes := int64Bytes n
  reads := (readAs_of_encodeValue (show encodeValue .long (.long n) = _ from rfl)).1

theorem joined_ofLong (timestamps : List Int64) :
    joined (timestamps.map ofLong) = encodeTimestamps timestamps := List.flatMap_map ..

theorem declared_ofLong (timestamps : List Int64) :
    (timestamps.map ofLong).map declared = List.replicate timestamps.length .long := by
  rw [List.map_map]
  exact List.map_const' ..

theorem value_ofLong (timestamps : List Int64) :
    (timestamps.map ofLong).map Spelling.value = timestamps.map .long := List.map_map

theorem decodeValues_encodeTimestamps (timestamps : List Int64) :
    decodeValues (encodeTimestamps timestamps) (List.replicate timestamps.length .long) =
      .ok (timestamps.map .long) := by
  have read := decodeValues_run (timestamps.map ofLong)
  rwa [joined_ofLong, declared_ofLong, value_ofLong] at read

theorem decodeValues_encodeTimestamps_append (timestamps : List Int64) {more : Bytes}
    (longer : more ≠ []) :
    decodeValues (encodeTimestamps timestamps ++ more) (List.replicate timestamps.length .long) =
      .error (.corrupted .value (.trailingBytes more.length timestamps.length)) := by
  have refused := decodeValues_extended (timestamps.map ofLong) longer
  rwa [joined_ofLong, declared_ofLong, List.length_map] at refused

/-- The longs of a buffer are written as its bytes, up to the last whole long. -/
theorem encodeTimestamps_longs : (buffer : Bytes) →
    encodeTimestamps (longs buffer) = buffer.take (8 * (buffer.length / 8))
  | a :: b :: c :: d :: e :: f :: g :: h :: rest => by
    have head : int64Bytes (int64OfBytes [a, b, c, d, e, f, g, h]) = [a, b, c, d, e, f, g, h] :=
      int64Bytes_int64OfBytes rfl
    have count : 8 * ((a :: b :: c :: d :: e :: f :: g :: h :: rest).length / 8) =
        8 + 8 * (rest.length / 8) := by
      simp only [List.length_cons]
      omega
    rw [longs, encodeTimestamps, List.flatMap_cons, head, count, Nat.add_comm]
    exact congrArg ([a, b, c, d, e, f, g, h] ++ ·) (encodeTimestamps_longs rest)
  | [] | [_] | [_, _] | [_, _, _] | [_, _, _, _] | [_, _, _, _, _] | [_, _, _, _, _, _]
  | [_, _, _, _, _, _, _] => by simp [longs, encodeTimestamps]

theorem encodeRow_longs (timestamps : List Int64) : ∃ encoded,
    encodeRow (timestamps.map fun n => some (.long n)) (List.replicate timestamps.length .long) =
      .ok encoded ∧ encoded.values = encodeTimestamps timestamps := by
  have zipped : (timestamps.map fun n => some (Value.long n)).zip
      (List.replicate timestamps.length .long) =
        timestamps.map fun n => (some (Value.long n), DataType.long) := by
    rw [← List.length_map fun n => some (Value.long n), zip_replicate, List.map_map]
    rfl
  have encodable : ∀ cell ∈ (timestamps.map fun n => some (Value.long n)).zip
      (List.replicate timestamps.length .long), CellEncodable cell := by
    rw [zipped]
    intro cell member
    obtain ⟨n, -, rfl⟩ := List.mem_map.mp member
    rintro value ⟨⟩
    exact ⟨rfl, Nat.zero_le _⟩
  obtain ⟨encoded, written, packs⟩ := encodeRowAt_packs (by simp) encodable 0
  refine ⟨encoded, written, ?_⟩
  rw [packs.values, zipped, List.flatMap_map]
  rfl

/-- Timestamps are written as a row of longs, none of them absent, and read back as they were. A
buffer of whole longs is read as timestamps and as values alike, and the timestamps are written as
this buffer. With some bytes over it is refused both ways, as timestamps by its size. -/
theorem timestamps_agree_with_longs :
    (∀ timestamps : List Int64,
      (∃ encoded, encodeRow (timestamps.map fun n => some (.long n))
          (List.replicate timestamps.length .long) = .ok encoded ∧
        encoded.values = encodeTimestamps timestamps) ∧
      decodeTimestamps (encodeTimestamps timestamps) = .ok timestamps) ∧
    ∀ buffer : Bytes,
      (buffer.length % 8 = 0 → ∃ timestamps, decodeTimestamps buffer = .ok timestamps ∧
        decodeValues buffer (List.replicate (buffer.length / 8) .long) =
          .ok (timestamps.map .long) ∧
        encodeTimestamps timestamps = buffer) ∧
      (buffer.length % 8 ≠ 0 →
        decodeTimestamps buffer =
          .error (.corrupted .timestamps (.partialLong buffer.length)) ∧
        decodeValues buffer (List.replicate (buffer.length / 8) .long) = .error
          (.corrupted .value (.trailingBytes (buffer.length % 8) (buffer.length / 8)))) := by
  constructor
  · intro timestamps
    exact ⟨encodeRow_longs timestamps, decodeTimestamps_encodeTimestamps timestamps⟩
  · intro buffer
    have count := length_longs buffer
    have written := encodeTimestamps_longs buffer
    constructor
    · intro whole
      have all : 8 * (buffer.length / 8) = buffer.length := by omega
      rw [all, List.take_length] at written
      refine ⟨longs buffer, decodeTimestamps_of_whole whole, ?_, written⟩
      have read := decodeValues_encodeTimestamps (longs buffer)
      rwa [written, count] at read
    · intro broken
      have left : (buffer.drop (8 * (buffer.length / 8))).length = buffer.length % 8 := by
        rw [List.length_drop]
        omega
      have longer : buffer.drop (8 * (buffer.length / 8)) ≠ [] :=
        List.ne_nil_of_length_pos (by omega)
      refine ⟨if_pos broken, ?_⟩
      have refused := decodeValues_encodeTimestamps_append (longs buffer) longer
      rwa [written, List.take_append_drop, left, count] at refused

/-- The least long and minus one, and the same with a byte over. -/
def extremes : Bytes :=
  [0x80, 0, 0, 0, 0, 0, 0, 0, 0xFF, 0xFF, 0xFF, 0xFF, 0xFF, 0xFF, 0xFF, 0xFF]

theorem extremes_agree_with_longs :
    (∃ timestamps, decodeTimestamps extremes = .ok timestamps ∧
      decodeValues extremes [.long, .long] = .ok (timestamps.map .long) ∧
      encodeTimestamps timestamps = extremes) ∧
    decodeTimestamps (extremes ++ [7]) = .error (.corrupted .timestamps (.partialLong 17)) ∧
    decodeValues (extremes ++ [7]) [.long, .long] =
      .error (.corrupted .value (.trailingBytes 1 2)) := by
  obtain ⟨-, buffers⟩ := timestamps_agree_with_longs
  exact ⟨(buffers extremes).1 (by decide), (buffers (extremes ++ [7])).2 (by decide)⟩

end SeriesClient.Wire
