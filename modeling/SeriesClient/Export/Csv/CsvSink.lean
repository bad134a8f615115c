import SeriesClient.Export.Csv.Writer
import SeriesClient.Export.Instant
import SeriesClient.Export.Sink
import SeriesClient.Wire.Utf8

/-! A row sink that writes delimited text. Between sessions it holds its output; during one the
writer does. A session that cannot be finished takes the output with it.

Space that is kept from one row to the next, for the text of a field and for the fields of a record,
is not a part of the sink: both are emptied before they are used, so that no call depends on what an
earlier one has left in them. -/
namespace SeriesClient.Export.Csv

inductive TimestampStyle where
  | raw
  | rfc3339
deriving DecidableEq, Repr

def TimestampStyle.text (style : TimestampStyle) (timestamp : Int64) : Except SinkFault String :=
  match style with
  | raw => .ok (toString timestamp.toInt)
  | rfc3339 => Export.rfc3339 timestamp

structure Format where
  delimiter : UInt8 := 44
  headers : Bool := true
  timestamps : TimestampStyle := .raw
deriving DecidableEq, Repr

structure CsvSink (δ : Type) where
  format : Format
  output : Option δ
  writer : Option (Writer δ) := none
  timed : Bool := false
  columns : Nat := 0

namespace CsvSink
variable {δ : Type}

def onto (format : Format) (output : δ) : CsvSink δ := { format, output := some output }

def headerFields (layout : Layout) : List Bytes :=
  (if layout.timed then ["Time"] else []).map Wire.Utf8.encode ++
    layout.paths.map Wire.Utf8.encode

/-- Absent cells are empty fields. -/
def cellField (cell : Cell) : Bytes := match cell with
  | some value => Wire.Utf8.encode value.field
  | none => []

/-- The time column of a row, if the session has one. -/
def timeFields (sink : CsvSink δ) (timestamp : Option Int64) : Except SinkFault (List Bytes) :=
  if sink.timed then match timestamp with
    | none => .error .missingTimestamp
    | some timestamp => (sink.format.timestamps.text timestamp).map fun text =>
      [Wire.Utf8.encode text]
  else .ok []

variable [Destination δ]

def writeRecord (fields : List Bytes) (sink : CsvSink δ) : Except Error Unit × CsvSink δ :=
  match sink.writer with
  | none => (.error (.sink .noSession), sink)
  | some writer =>
    let (answer, writer) := Writer.writeRecord fields writer
    (answer.mapError .sink, { sink with writer := some writer })

def begin (layout : Layout) (sink : CsvSink δ) : Except Error Unit × CsvSink δ :=
  if sink.writer.isSome then (.error (.sink .sessionOpen), sink)
  else if layout.paths.length ≠ layout.types.length then (.error (.sink .typesForColumns), sink)
  else match sink.output with
    | none => (.error (.sink .outputTaken), sink)
    | some destination =>
      let sink := { sink with
        output := none
        writer := some { destination, delimiter := sink.format.delimiter }
        timed := layout.timed
        columns := layout.paths.length }
      if sink.format.headers then sink.writeRecord (headerFields layout) else (.ok (), sink)

/-- The width of a row is checked before its timestamp, and that before the session. -/
def writeRow (timestamp : Option Int64) (row : Row) (sink : CsvSink δ) :
    Except Error Unit × CsvSink δ :=
  if row.length ≠ sink.columns then (.error (.sink (.rowWidth row.length sink.columns)), sink)
  else match sink.timeFields timestamp with
    | .error fault => (.error (.sink fault), sink)
    | .ok time => sink.writeRecord (time ++ row.map cellField)

/-- Flushes twice, before and while the writer gives its output back. Without a session there is
nothing to finish. -/
def finish (sink : CsvSink δ) : Except Error Unit × CsvSink δ :=
  match sink.writer with
  | none => (.ok (), { sink with columns := 0 })
  | some writer =>
    let lost := { sink with writer := none }
    match writer.flush with
    | (.error e, _) => (.error (.io e), lost)
    | (.ok (), writer) => match writer.flush with
      | (.error e, _) => (.error (.sink (.closing e)), lost)
      | (.ok (), writer) =>
        (.ok (), { lost with output := some writer.destination, columns := 0 })

instance : RowSink (CsvSink δ) := ⟨begin, writeRow, finish⟩

end CsvSink
end SeriesClient.Export.Csv
