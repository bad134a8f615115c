import SeriesClient.Export.Sink
import SeriesClient.Lines
import SeriesClient.Series
import SeriesClient.Wire.Cells
import SeriesClient.Wire.Timestamps

/-! Tables: a cell per path and row, with a timestamp per row or none at all. -/
namespace SeriesClient

structure Table where
  paths : List String
  types : List DataType
  timestamps : List Int64
  rows : List Row
deriving DecidableEq, Repr

/-- Paths and types stand side by side. -/
def checkTypes (paths : List String) (types : List DataType) : Except Error Unit :=
  if paths.length ≠ types.length then
    .error (.invalid (.typesForPaths types.length paths.length))
  else .ok ()

/-- A row decodes on its own as row 0; in a table a damaged cell is named by its row there. -/
def Error.inRow (row : Nat) : Error → Error
  | corrupted (.cell _ column) damage => corrupted (.cell row column) damage
  | e => e

namespace Table

/-- Decodes rows from value and mask buffers, the first being number `row`. -/
def decodeRows (types : List DataType) (row : Nat) :
    List (Bytes × Bytes) → Except Error (List Row)
  | [] => .ok []
  | (values, bitmap) :: buffers => do
    let mask := Wire.Mask.view types.length bitmap
    let first ← (Wire.decodeRow values mask types).mapError (Error.inRow row)
    let rest ← decodeRows types (row + 1) buffers
    .ok (first :: rest)

/-- A table from the buffers of a response. There is a timestamp per row, or no timestamp. -/
def assemble (paths : List String) (types : List DataType) (timestamps : Bytes)
    (values bitmaps : List Bytes) : Except Error Table := do
  checkTypes paths types
  if values.length ≠ bitmaps.length then
    .error (.corrupted .bitmap (.unequalBuffers values.length bitmaps.length))
  let timestamps ← Wire.decodeTimestamps timestamps
  if !timestamps.isEmpty && timestamps.length != values.length then
    .error (.corrupted .timestamps (.timestampsForRows timestamps.length values.length))
  let rows ← decodeRows types 0 (values.zip bitmaps)
  .ok { paths, types, timestamps, rows }

def rowCount (table : Table) : Nat := table.rows.length

def isEmpty (table : Table) : Bool := table.rows.isEmpty

def timed (table : Table) : Bool := !table.timestamps.isEmpty

/-- The value at a place; absent cells and places outside have none. -/
def value? (table : Table) (row column : Nat) : Option Value :=
  match table.rows[row]? with
  | some cells => (cells[column]?).join
  | none => none

/-- Writes the whole table into a sink; rows beyond the timestamps have none. -/
def writeTo {σ : Type} [Export.RowSink σ] (table : Table) (sink : σ) : Except Error Unit × σ :=
  Export.RowSink.session ⟨table.paths, table.types, table.timed⟩ table.timestamps table.rows sink

/-- One line per row; a row without a timestamp shows that it lacks one. -/
def rowLines (timed : Bool) (timestamps : List Int64) : List Row → List String
  | [] => []
  | row :: rows =>
    let time := match timestamps.head? with
      | some timestamp => toString timestamp.toInt
      | none => "null"
    spaced ((if timed then [time] else []) ++ row.map Cell.display) ::
      rowLines timed timestamps.tail rows

def display (table : Table) : String :=
  let header := spaced ((if table.timed then ["Time"] else []) ++ table.paths)
  lines (header :: rowLines table.timed table.timestamps table.rows)

def toJson (table : Table) : Json := .object
  [("paths", .ofList .string table.paths), ("types", .ofList DataType.toJson table.types),
    ("timestamps", .ofList (fun t => .ofInt t.toInt) table.timestamps),
    ("rows", .ofList Row.toJson table.rows)]

/-- Equality of tables whose floats are compared as numbers. -/
def numEq (a b : Table) : Bool :=
  a.paths == b.paths && a.types == b.types && a.timestamps == b.timestamps &&
    a.rows.length == b.rows.length &&
    (a.rows.zip b.rows).all fun (x, y) =>
      x.length == y.length && (x.zip y).all fun (c, d) => c.numEq d

end Table
end SeriesClient
