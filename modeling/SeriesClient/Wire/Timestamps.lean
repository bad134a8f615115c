import SeriesClient.Error
import SeriesClient.Wire.Word

/-! Timestamps on the wire: longs back to back, none of them absent. -/
namespace SeriesClient.Wire

def encodeTimestamps (timestamps : List Int64) : Bytes := timestamps.flatMap int64Bytes

/-- The longs of a buffer; bytes that do not fill a long are left out. -/
def longs : Bytes → List Int64
  | a :: b :: c :: d :: e :: f :: g :: h :: rest =>
    int64OfBytes [a, b, c, d, e, f, g, h] :: longs rest
  | _ => []

def decodeTimestamps (buffer : Bytes) : Except Error (List Int64) :=
  if buffer.length % 8 ≠ 0 then .error (.corrupted .timestamps (.partialLong buffer.length))
  else .ok (longs buffer)

theorem length_longs : (buffer : Bytes) → (longs buffer).length = buffer.length / 8
  | a :: b :: c :: d :: e :: f :: g :: h :: rest => by
    rw [longs, List.length_cons, length_longs rest]
    simp only [List.length_cons]
    omega
  | [] | [_] | [_, _] | [_, _, _] | [_, _, _, _] | [_, _, _, _, _] | [_, _, _, _, _, _]
  | [_, _, _, _, _, _, _] => by simp [longs]

theorem getElem?_longs : (buffer : Bytes) → (i : Nat) → i < buffer.length / 8 →
    (longs buffer)[i]? = some (int64OfBytes ((buffer.drop (8 * i)).take 8))
  | a :: b :: c :: d :: e :: f :: g :: h :: rest, 0, _ => rfl
  | a :: b :: c :: d :: e :: f :: g :: h :: rest, i + 1, inside => by
    have inside : i < rest.length / 8 := by
      simp only [List.length_cons] at inside
      omega
    rw [longs, List.getElem?_cons_succ, getElem?_longs rest i inside]
    rfl
  | [], _, inside | [_], _, inside | [_, _], _, inside | [_, _, _], _, inside
  | [_, _, _, _], _, inside | [_, _, _, _, _], _, inside | [_, _, _, _, _, _], _, inside
  | [_, _, _, _, _, _, _], _, inside => by simp at inside

theorem decodeTimestamps_of_whole {buffer : Bytes} (whole : buffer.length % 8 = 0) :
    decodeTimestamps buffer = .ok (longs buffer) :=
  if_neg (not_not_intro whole)

theorem longs_int64Bytes (n : Int64) (rest : Bytes) :
    longs (int64Bytes n ++ rest) = n :: longs rest :=
  congrArg (· :: longs rest) (int64OfBytes_int64Bytes n)

theorem longs_encodeTimestamps (timestamps : List Int64) :
    longs (encodeTimestamps timestamps) = timestamps := by
  induction timestamps with
  | nil => rfl
  | cons n timestamps ih =>
    rw [encodeTimestamps, List.flatMap_cons, longs_int64Bytes]
    exact congrArg _ ih

theorem length_encodeTimestamps (timestamps : List Int64) :
    (encodeTimestamps timestamps).length = 8 * timestamps.length := by
  induction timestamps with
  | nil => rfl
  | cons n timestamps ih =>
    simp only [encodeTimestamps] at ih
    simp [encodeTimestamps, int64Bytes, ih, Nat.mul_add, Nat.add_comm]

theorem decodeTimestamps_encodeTimestamps (timestamps : List Int64) :
    decodeTimestamps (encodeTimestamps timestamps) = .ok timestamps := by
  have whole : (encodeTimestamps timestamps).length % 8 = 0 := by
    rw [length_encodeTimestamps]
    exact Nat.mul_mod_right 8 _
  rw [decodeTimestamps_of_whole whole, longs_encodeTimestamps]

end SeriesClient.Wire
