import SeriesClient.Value
import SeriesClient.Wire.Reader

/-! Single values on the wire. A value is written only under its own type, never converted; text
stands behind its length in four bytes. -/
namespace SeriesClient.Wire

/-- Bytes of text that a signed 32-bit length can announce. -/
def maxTextBytes : Nat := 2147483647

def textBytes (text : String) : Except Error Bytes :=
  let bytes := Utf8.encode text
  if bytes.length ≤ maxTextBytes then .ok (bigEndian 4 bytes.length ++ bytes)
  else .error (.invalid (.textTooLong bytes.length))

def encodeValue (declared : DataType) (value : Value) : Except Error Bytes :=
  match declared, value with
  | .boolean, .boolean b => .ok [if b then 1 else 0]
  | .integer, .integer n => .ok (int32Bytes n)
  | .long, .long n => .ok (int64Bytes n)
  | .float, .float x => .ok (bigEndian 4 x.bits.toNat)
  | .double, .double x => .ok (bigEndian 8 x.bits.toNat)
  | .binary, .binary text => textBytes text
  | declared, value => .error (.typeMismatch .value declared value.dataType)

/-- Writes behind what a buffer already holds. A refused write takes back none of those before
it. -/
abbrev Appending := ExceptT Error (StateM Bytes)

def put (bytes : Bytes) : Appending Unit := modify (· ++ bytes)

/-- The length and the text are two writes, so the length is checked before either. -/
def putText (text : String) : Appending Unit := do
  let bytes := Utf8.encode text
  if maxTextBytes < bytes.length then throw (.invalid (.textTooLong bytes.length))
  put (bigEndian 4 bytes.length)
  put bytes

/-- All values but text are one write. -/
def putValue (declared : DataType) (value : Value) : Appending Unit :=
  match declared, value with
  | .binary, .binary text => putText text
  | declared, value => do put (← encodeValue declared value)

/-- Puts a value behind what a buffer already holds. -/
def appendValue (buffer : Bytes) (declared : DataType) (value : Value) :
    Except Error Unit × Bytes := putValue declared value buffer

namespace Reader

def value (declared : DataType) (reader : Reader) : Except Error Value × Reader :=
  match declared with
  | .boolean => let (read, reader) := reader.byte; (read.map fun b => .boolean (b != 0), reader)
  | .integer => let (read, reader) := reader.int32; (read.map .integer, reader)
  | .long => let (read, reader) := reader.int64; (read.map .long, reader)
  | .float => let (read, reader) := reader.float; (read.map .float, reader)
  | .double => let (read, reader) := reader.double; (read.map .double, reader)
  | .binary => let (read, reader) := reader.text; (read.map .binary, reader)

/-- One value of each type, the first being number `column`. -/
def values (reader : Reader) (column : Nat) : List DataType → Except Error (List Value × Reader)
  | [] => .ok ([], reader)
  | declared :: types => match reader.value declared with
    | (.error e, _) => .error (e.relocate (.cell 0 column))
    | (.ok value, reader) => do
      let (rest, reader) ← reader.values (column + 1) types
      .ok (value :: rest, reader)

end Reader

/-- Values of the given types that fill a buffer. -/
def decodeValues (buffer : Bytes) (types : List DataType) : Except Error (List Value) := do
  let (values, reader) ← (Reader.ofBytes buffer).values 0 types
  if reader.isEmpty then .ok values
  else .error (.corrupted .value (.trailingBytes reader.remaining types.length))

end SeriesClient.Wire
