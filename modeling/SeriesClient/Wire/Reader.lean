import SeriesClient.Error
import SeriesClient.Number.Binary
import SeriesClient.Wire.Utf8

/-! Forward reading of a received buffer. Every read answers together with the reader after it,
so a failed read shows what it has already used up. -/
namespace SeriesClient.Wire

/-- A buffer read up to `position`; `rest` is what remains. -/
structure Reader where
  position : Nat
  rest : Bytes
deriving DecidableEq, Repr

namespace Reader

def ofBytes (buffer : Bytes) : Reader := ⟨0, buffer⟩

def remaining (reader : Reader) : Nat := reader.rest.length

def isEmpty (reader : Reader) : Bool := reader.rest.isEmpty

/-- Uses up exactly `count` bytes, or none if fewer remain. -/
def take (count : Nat) (reader : Reader) : Except Error Bytes × Reader :=
  if reader.remaining < count then
    (.error (.corrupted .value (.shortRead count reader.position reader.remaining)), reader)
  else (.ok (reader.rest.take count), ⟨reader.position + count, reader.rest.drop count⟩)

theorem take_of_le (reader : Reader) (count : Nat) (h : count ≤ reader.remaining) :
    reader.take count =
      (.ok (reader.rest.take count), ⟨reader.position + count, reader.rest.drop count⟩) :=
  if_neg (Nat.not_lt.mpr h)

theorem take_of_lt (reader : Reader) (count : Nat) (h : reader.remaining < count) :
    reader.take count =
      (.error (.corrupted .value (.shortRead count reader.position reader.remaining)), reader) :=
  if_pos h

/-- A read of `count` bytes whose meaning is `meaning`. -/
def fixed {α : Type} (count : Nat) (meaning : Bytes → α) (reader : Reader) :
    Except Error α × Reader :=
  let (bytes, reader) := reader.take count
  (bytes.map meaning, reader)

def byte : Reader → Except Error UInt8 × Reader :=
  fixed 1 fun bytes => UInt8.ofNat (ofBigEndian bytes)

def int32 : Reader → Except Error Int32 × Reader := fixed 4 int32OfBytes

def int64 : Reader → Except Error Int64 × Reader := fixed 8 int64OfBytes

def float : Reader → Except Error Binary32 × Reader :=
  fixed 4 fun bytes => ⟨UInt32.ofNat (ofBigEndian bytes)⟩

def double : Reader → Except Error Binary64 × Reader :=
  fixed 8 fun bytes => ⟨UInt64.ofNat (ofBigEndian bytes)⟩

/-- Text after its length. The length stays used up when it is negative or too large. -/
def text (reader : Reader) : Except Error String × Reader :=
  match reader.int32 with
  | (.error e, reader) => (.error e, reader)
  | (.ok length, reader) =>
    if length < 0 then (.error (.corrupted .value (.negativeLength length.toInt)), reader)
    else fixed length.toInt.toNat Utf8.decode reader

end Reader
end SeriesClient.Wire
