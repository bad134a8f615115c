import SeriesClient.Batch
import SeriesClient.Query
import SeriesClient.Wire.Cells
import SeriesClient.Wire.Timestamps

/-! Insert requests: a sorted batch in its wire form. All cells are encoded or none; the first
that cannot be is named by its place in the sorted batch. -/
namespace SeriesClient

inductive InsertKind where
  | row
  | nonAlignedRow
  | column
  | nonAlignedColumn
deriving DecidableEq, Repr

def InsertKind.of : Orientation → (aligned : Bool) → InsertKind
  | .row, true => row
  | .row, false => nonAlignedRow
  | .column, true => column
  | .column, false => nonAlignedColumn

structure Insert where
  kind : InsertKind
  paths : List String
  timestamps : Bytes
  values : List Bytes
  bitmaps : List Bytes
  types : List DataType
deriving DecidableEq, Repr

def Insert.tags (insert : Insert) : List Int32 := insert.types.map DataType.tag

namespace Batch

def encodeRows (types : List DataType) (row : Nat) : List Row → Except Error (List Wire.Encoded)
  | [] => .ok []
  | cells :: rows => do
    let first ← Wire.encodeRowAt row cells types
    let rest ← encodeRows types (row + 1) rows
    .ok (first :: rest)

def encodeColumns (column : Nat) : List (Row × DataType) → Except Error (List Wire.Encoded)
  | [] => .ok []
  | (cells, declared) :: columns => do
    let first ← Wire.encodeColumnAt column cells declared
    let rest ← encodeColumns (column + 1) columns
    .ok (first :: rest)

/-- Wire form of a batch that is already sorted. -/
def encodeSorted (batch : Batch) (options : WriteOptions) : Except Error Insert := do
  let encoded ← match batch.orientation with
    | .row => encodeRows batch.types 0 batch.values
    | .column => encodeColumns 0 (batch.values.zip batch.types)
  .ok {
    kind := .of batch.orientation options.aligned
    paths := batch.paths
    timestamps := Wire.encodeTimestamps batch.timestamps
    values := encoded.map Wire.Encoded.values
    bitmaps := encoded.map fun e => e.mask.bytes
    types := batch.types }

def encode (batch : Batch) (options : WriteOptions) : Except Error Insert := do
  (← batch.sorted).encodeSorted options

end Batch
end SeriesClient
