import SeriesClient.Wire.Mask
import SeriesClient.Wire.Values

/-! Rows and columns on the wire: the present values back to back, and a mask that says which
places are present. A row has a type per cell, a column one type for all. -/
namespace SeriesClient.Wire

structure Encoded where
  values : Bytes
  mask : Mask
deriving DecidableEq, Repr

/-- Writes the cells from place `index` on and marks those that are present. -/
def encodeFrom (place : Nat → Location) (index : Nat) (mask : Mask) :
    List (Cell × DataType) → Except Error Encoded
  | [] => .ok ⟨[], mask⟩
  | (none, _) :: cells => encodeFrom place (index + 1) mask cells
  | (some value, declared) :: cells => match mask.mark index with
    | (.error e, _) => .error e
    | (.ok (), mask) => do
      let bytes ← (encodeValue declared value).mapError (·.relocate (place index))
      let rest ← encodeFrom place (index + 1) mask cells
      .ok ⟨bytes ++ rest.values, rest.mask⟩

/-- Encodes the row with number `row`, by which failures name it. -/
def encodeRowAt (row : Nat) (cells : Row) (types : List DataType) : Except Error Encoded :=
  if cells.length ≠ types.length then
    .error (.invalid (.rowWidth row cells.length types.length))
  else encodeFrom (.cell row) 0 (.empty cells.length) (cells.zip types)

def encodeRow (cells : Row) (types : List DataType) : Except Error Encoded :=
  encodeRowAt 0 cells types

/-- Encodes the column with number `column`, by which failures name it. -/
def encodeColumnAt (column : Nat) (cells : Row) (declared : DataType) : Except Error Encoded :=
  encodeFrom (.cell · column) 0 (.empty cells.length) (cells.map (·, declared))

def encodeColumn (cells : Row) (declared : DataType) : Except Error Encoded :=
  encodeColumnAt 0 cells declared

/-- Reads the cell at place `index`, which stands at `place`. -/
def Reader.cell (reader : Reader) (mask : Mask) (index : Nat) (declared : DataType)
    (place : Location) : Except Error (Cell × Reader) :=
  match mask.test index with
  | .error e => .error e
  | .ok false => .ok (none, reader)
  | .ok true => match reader.value declared with
    | (.error e, _) => .error (e.relocate place)
    | (.ok value, reader) => .ok (some value, reader)

/-- Cells that are decoded one row after the other into the same place. -/
structure RowBuffer where
  cells : Array Cell

namespace RowBuffer

def clear (_ : RowBuffer) : RowBuffer := ⟨#[]⟩

def push (buffer : RowBuffer) (cell : Cell) : RowBuffer := ⟨buffer.cells.push cell⟩

def fillFrom (reader : Reader) (mask : Mask) (column : Nat) (buffer : RowBuffer) :
    List DataType → Except Error Unit × RowBuffer
  | [] => (.ok (), buffer)
  | declared :: types => match reader.cell mask column declared (.cell 0 column) with
    | .error e => (.error e, buffer)
    | .ok (cell, reader) => fillFrom reader mask (column + 1) (buffer.push cell) types

/-- Decodes a row over what the buffer held; a failure leaves the cells before it. -/
def decode (buffer : RowBuffer) (values : Bytes) (mask : Mask) (types : List DataType) :
    Except Error Unit × RowBuffer :=
  fillFrom (.ofBytes values) mask 0 buffer.clear types

end RowBuffer

def decodeRow (values : Bytes) (mask : Mask) (types : List DataType) : Except Error Row :=
  match (RowBuffer.mk #[]).decode values mask types with
  | (.ok (), buffer) => .ok buffer.cells.toList
  | (.error e, _) => .error e

/-- Decodes `more` cells of a column, the first at place `row`. -/
def decodeColumnFrom (reader : Reader) (mask : Mask) (declared : DataType) (row : Nat) :
    (more : Nat) → Except Error Row
  | 0 => .ok []
  | more + 1 => match reader.cell mask row declared (.cell row 0) with
    | .error e => .error e
    | .ok (cell, reader) => do
      let rest ← decodeColumnFrom reader mask declared (row + 1) more
      .ok (cell :: rest)

/-- The mask says how many cells the column has. -/
def decodeColumn (values : Bytes) (mask : Mask) (declared : DataType) : Except Error Row :=
  decodeColumnFrom (.ofBytes values) mask declared 0 mask.capacity

end SeriesClient.Wire
