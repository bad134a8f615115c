import SeriesClient.Wire.Values.Lemmas

/-! The bytes that are read as a value, form by form. A reader accepts exactly these forms, and a
writer produces exactly the plain ones among them. -/
namespace SeriesClient.Wire

/-- Bytes that are read as the value. A truth value is any byte, and text any bytes: what a reader
makes of them is part of the form. -/
inductive ReadAs : Bytes → Value → Prop
  | boolean (b : UInt8) : ReadAs [b] (.boolean (b != 0))
  | integer {bytes : Bytes} (width : bytes.length = 4) :
    ReadAs bytes (.integer (int32OfBytes bytes))
  | long {bytes : Bytes} (width : bytes.length = 8) : ReadAs bytes (.long (int64OfBytes bytes))
  | float {bytes : Bytes} (width : bytes.length = 4) :
    ReadAs bytes (.float ⟨UInt32.ofNat (ofBigEndian bytes)⟩)
  | double {bytes : Bytes} (width : bytes.length = 8) :
    ReadAs bytes (.double ⟨UInt64.ofNat (ofBigEndian bytes)⟩)
  | binary {length text : Bytes} (width : length.length = 4)
    (counts : (int32OfBytes length).toInt = text.length) :
    ReadAs (length ++ text) (.binary (Utf8.decode text))

namespace Reader

/-- A reader at a place of a buffer, before `bytes`, and behind them. -/
def Passes (before : Reader) (bytes : Bytes) (after : Reader) : Prop :=
  before.rest = bytes ++ after.rest ∧ after.position = before.position + bytes.length

theorem passes_nil (reader : Reader) : reader.Passes [] reader := ⟨rfl, rfl⟩

theorem passes_append (position : Nat) (bytes rest : Bytes) :
    Passes ⟨position, bytes ++ rest⟩ bytes ⟨position + bytes.length, rest⟩ := ⟨rfl, rfl⟩

theorem passes_take {reader : Reader} {count : Nat} (enough : count ≤ reader.remaining) :
    reader.Passes (reader.rest.take count)
      ⟨reader.position + count, reader.rest.drop count⟩ := by
  refine ⟨(List.take_append_drop ..).symm, ?_⟩
  rw [List.length_take_of_le enough]

theorem Passes.append {before between after : Reader} {first second : Bytes}
    (passes : before.Passes first between) (onward : between.Passes second after) :
    before.Passes (first ++ second) after := by
  constructor
  · rw [passes.1, onward.1, List.append_assoc]
  · rw [onward.2, passes.2, List.length_append, Nat.add_assoc]

theorem Passes.split {before after : Reader} {first second : Bytes}
    (passes : before.Passes (first ++ second) after) :
    ∃ between, before.Passes first between ∧ between.Passes second after := by
  refine ⟨⟨before.position + first.length, second ++ after.rest⟩, ⟨?_, rfl⟩, rfl, ?_⟩
  · rw [passes.1, List.append_assoc]
  · rw [passes.2, List.length_append, Nat.add_assoc]

/-- How far a reader has come is all there is to know of it. -/
theorem Passes.eq {before after other : Reader} {bytes : Bytes}
    (passes : before.Passes bytes after) (also : before.Passes bytes other) : after = other := by
  obtain ⟨rest, position⟩ := passes
  obtain ⟨rest', position'⟩ := also
  cases after
  cases other
  simp only [Reader.mk.injEq]
  exact ⟨position.trans position'.symm, List.append_cancel_left (rest.symm.trans rest')⟩

theorem fixed_eq_ok {α : Type} {count : Nat} {meaning : Bytes → α} {before after : Reader} {a : α}
    (read : fixed count meaning before = (.ok a, after)) :
    ∃ bytes, bytes.length = count ∧ meaning bytes = a ∧ before.Passes bytes after := by
  by_cases short : before.remaining < count
  · rw [fixed, take_of_lt before count short] at read
    cases read
  · have enough : count ≤ before.remaining := Nat.le_of_not_lt short
    rw [fixed, take_of_le before count enough] at read
    cases read
    exact ⟨before.rest.take count, List.length_take_of_le enough, rfl, passes_take enough⟩

theorem text_eq_ok {before after : Reader} {text : String}
    (read : before.text = (.ok text, after)) :
    ∃ bytes, ReadAs bytes (.binary text) ∧ before.Passes bytes after := by
  rw [Reader.text] at read
  cases announced : before.int32 with
  | mk answer behind =>
    rw [announced] at read
    cases answer with
    | error e => cases read
    | ok length =>
      obtain ⟨counted, width, rfl, passes⟩ := fixed_eq_ok announced
      simp only at read
      split at read
      · cases read
      · rename_i nonneg
        obtain ⟨body, size, rfl, onward⟩ := fixed_eq_ok read
        have nonneg : 0 ≤ (int32OfBytes counted).toInt := by
          rw [Int32.lt_iff_toInt_lt] at nonneg
          simpa using nonneg
        exact ⟨counted ++ body, .binary width (by omega), passes.append onward⟩

theorem map_eq_ok {α β : Type} {read : Except Error α × Reader} {meaning : α → β} {after : Reader}
    {b : β} (done : (read.1.map meaning, read.2) = (.ok b, after)) :
    ∃ a, read = (.ok a, after) ∧ meaning a = b := by
  obtain ⟨answer, behind⟩ := read
  cases answer with
  | error e => cases done
  | ok a =>
    cases done
    exact ⟨a, rfl, rfl⟩

theorem map_eq_error {α β : Type} {read : Except Error α × Reader} {meaning : α → β}
    {after : Reader} {e : Error} (failed : (read.1.map meaning, read.2) = (.error e, after)) :
    read = (.error e, after) := by
  obtain ⟨answer, behind⟩ := read
  cases answer with
  | error fault =>
    cases failed
    rfl
  | ok a => cases failed

theorem value_of_fixed {α : Type} {count : Nat} {meaning : Bytes → α} {make : α → Value}
    {declared : DataType} {before after : Reader} {value : Value}
    (form : ∀ bytes, bytes.length = count →
      ReadAs bytes (make (meaning bytes)) ∧ (make (meaning bytes)).dataType = declared)
    (read : ((fixed count meaning before).1.map make, (fixed count meaning before).2) =
      (.ok value, after)) :
    ∃ bytes, ReadAs bytes value ∧ value.dataType = declared ∧ before.Passes bytes after := by
  obtain ⟨a, found, rfl⟩ := map_eq_ok read
  obtain ⟨bytes, width, rfl, passes⟩ := fixed_eq_ok found
  obtain ⟨spelled, typed⟩ := form bytes width
  exact ⟨bytes, spelled, typed, passes⟩

theorem value_eq_ok {declared : DataType} {before after : Reader} {value : Value}
    (read : before.value declared = (.ok value, after)) :
    ∃ bytes, ReadAs bytes value ∧ value.dataType = declared ∧ before.Passes bytes after := by
  cases declared with
  | boolean =>
    refine value_of_fixed (fun bytes width => ?_) read
    obtain ⟨b, rfl⟩ := List.length_eq_one_iff.mp width
    refine ⟨?_, rfl⟩
    simpa [ofBigEndian] using ReadAs.boolean b
  | integer => exact value_of_fixed (fun _ width => ⟨.integer width, rfl⟩) read
  | long => exact value_of_fixed (fun _ width => ⟨.long width, rfl⟩) read
  | float => exact value_of_fixed (fun _ width => ⟨.float width, rfl⟩) read
  | double => exact value_of_fixed (fun _ width => ⟨.double width, rfl⟩) read
  | binary =>
    obtain ⟨text, found, rfl⟩ := map_eq_ok read
    obtain ⟨bytes, form, passes⟩ := text_eq_ok found
    exact ⟨bytes, form, rfl, passes⟩

/-- Every form is read, whatever comes behind it. -/
theorem value_readAs {bytes : Bytes} {value : Value} (form : ReadAs bytes value) (position : Nat)
    (rest : Bytes) : Reader.value value.dataType ⟨position, bytes ++ rest⟩ =
      (.ok value, ⟨position + bytes.length, rest⟩) := by
  cases form with
  | boolean b =>
    rw [Value.dataType, Reader.value, byte, fixed_append _ 1 _ _ _ rfl]
    simp [ofBigEndian, Except.map]
  | integer width =>
    rw [Value.dataType, Reader.value, int32, fixed_append _ 4 _ _ _ width, width]
    rfl
  | long width =>
    rw [Value.dataType, Reader.value, int64, fixed_append _ 8 _ _ _ width, width]
    rfl
  | float width =>
    rw [Value.dataType, Reader.value, float, fixed_append _ 4 _ _ _ width, width]
    rfl
  | double width =>
    rw [Value.dataType, Reader.value, double, fixed_append _ 8 _ _ _ width, width]
    rfl
  | @binary length text width counts =>
    have nonneg := not_neg_of_toInt counts
    rw [Value.dataType, Reader.value, Reader.text, int32, List.append_assoc,
      fixed_append _ 4 _ _ _ width]
    simp only [if_neg nonneg, counts, Int.toNat_natCast]
    rw [fixed_append _ _ _ _ _ rfl, List.length_append, width, Nat.add_assoc]
    rfl

theorem fixed_short {α : Type} {count : Nat} {reader : Reader} (short : reader.remaining < count)
    (meaning : Bytes → α) : fixed count meaning reader =
      (.error (.corrupted .value (.shortRead count reader.position reader.remaining)), reader) := by
  rw [fixed, take_of_lt reader count short]
  rfl

/-- A value that is cut off is refused for want of bytes. -/
theorem value_short {bytes : Bytes} {value : Value} (form : ReadAs bytes value) {cut : Nat}
    (short : cut < bytes.length) (position : Nat) : ∃ needed offset remaining after,
      Reader.value value.dataType ⟨position, bytes.take cut⟩ =
        (.error (.corrupted .value (.shortRead needed offset remaining)), after) := by
  have remains : Reader.remaining ⟨position, bytes.take cut⟩ = cut := by
    simp [remaining, Nat.le_of_lt short]
  cases form with
  | boolean b =>
    have short : cut < 1 := short
    rw [Value.dataType, Reader.value, byte, fixed_short (by omega)]
    exact ⟨_, _, _, _, rfl⟩
  | integer width =>
    rw [Value.dataType, Reader.value, int32, fixed_short (by omega)]
    exact ⟨_, _, _, _, rfl⟩
  | long width =>
    rw [Value.dataType, Reader.value, int64, fixed_short (by omega)]
    exact ⟨_, _, _, _, rfl⟩
  | float width =>
    rw [Value.dataType, Reader.value, float, fixed_short (by omega)]
    exact ⟨_, _, _, _, rfl⟩
  | double width =>
    rw [Value.dataType, Reader.value, double, fixed_short (by omega)]
    exact ⟨_, _, _, _, rfl⟩
  | @binary length text width counts =>
    by_cases early : cut < 4
    · rw [Value.dataType, Reader.value, Reader.text, int32, fixed_short (by omega)]
      exact ⟨_, _, _, _, rfl⟩
    · -- The length is there and announces more than is left.
      have nonneg := not_neg_of_toInt counts
      have kept : (length ++ text).take cut = length ++ text.take (cut - 4) := by
        rw [List.take_append, width, List.take_of_length_le (by omega)]
      rw [List.length_append] at short
      rw [Value.dataType, Reader.value, Reader.text, int32, kept, fixed_append _ 4 _ _ _ width]
      simp only [if_neg nonneg, counts, Int.toNat_natCast]
      rw [fixed_short (by simp only [remaining, List.length_take]; omega)]
      exact ⟨_, _, _, _, rfl⟩

end Reader

/-- What is written for a value is read as the value. -/
theorem readAs_of_encodeValue {declared : DataType} {value : Value} {bytes : Bytes}
    (written : encodeValue declared value = .ok bytes) :
    ReadAs bytes value ∧ value.dataType = declared := by
  have read := Reader.value_encodeValue declared value bytes written 0 []
  obtain ⟨found, form, typed, passes⟩ := Reader.value_eq_ok read
  obtain rfl := List.append_cancel_right passes.1
  exact ⟨form, typed⟩

/-- The form that is written, where a reader allows others: a truth value is 0 or 1, and text is
well-formed behind its length. -/
def Plain (declared : DataType) (bytes : Bytes) : Prop := match declared with
  | .boolean => bytes = [0] ∨ bytes = [1]
  | .binary => Utf8.Valid (bytes.drop 4)
  | _ => True

theorem bigEndian_of_counts {length text : Bytes} (width : length.length = 4)
    (counts : (int32OfBytes length).toInt = text.length) :
    text.length ≤ maxTextBytes ∧ bigEndian 4 text.length = length := by
  have bound := (int32OfBytes length).toInt_lt
  have nonneg := Int32.not_lt.mp (Reader.not_neg_of_toInt counts)
  have word := Int32.toNat_toUInt32_of_le nonneg
  have back := int32Bytes_int32OfBytes width
  rw [int32Bytes, word, Int32.toNatClampNeg, counts, Int.toNat_natCast] at back
  refine ⟨?_, back⟩
  rw [counts] at bound
  simp only [maxTextBytes]
  omega

/-- A form is what is written for its value when it is plain, and only then. -/
theorem encodeValue_readAs_iff {bytes : Bytes} {value : Value} (form : ReadAs bytes value) :
    encodeValue value.dataType value = .ok bytes ↔ Plain value.dataType bytes := by
  cases form with
  | boolean b =>
    by_cases zero : b = 0
    · simp [Value.dataType, encodeValue, Plain, zero]
    · have written : (b != 0) = true := by simpa using zero
      simp only [Value.dataType, encodeValue, Plain, written, if_true, Except.ok.injEq,
        List.cons.injEq, and_true, zero, false_or]
      exact eq_comm
  | integer width => simp [Value.dataType, encodeValue, Plain, int32Bytes_int32OfBytes width]
  | long width => simp [Value.dataType, encodeValue, Plain, int64Bytes_int64OfBytes width]
  | @float bytes width =>
    have bound := ofBigEndian_lt bytes
    have back := bigEndian_ofBigEndian bytes
    rw [width] at bound back
    simp [Value.dataType, encodeValue, Plain, UInt32.toNat_ofNat_of_lt' bound, back]
  | @double bytes width =>
    have bound := ofBigEndian_lt bytes
    have back := bigEndian_ofBigEndian bytes
    rw [width] at bound back
    simp [Value.dataType, encodeValue, Plain, UInt64.toNat_ofNat_of_lt' bound, back]
  | @binary length text width counts =>
    have behind : (length ++ text).drop 4 = text := List.drop_left' width
    obtain ⟨fits, back⟩ := bigEndian_of_counts width counts
    rw [Value.dataType, encodeValue, textBytes, Plain, behind, ← Utf8.encode_decode_iff]
    constructor
    · intro written
      split at written
      · have same := Except.ok.inj written
        exact (List.append_inj same (by rw [length_bigEndian, width])).2
      · cases written
    · intro same
      rw [same]
      simp only [if_pos fits, back]

end SeriesClient.Wire
