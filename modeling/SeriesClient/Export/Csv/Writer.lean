import SeriesClient.Error
import SeriesClient.Export.Csv.Destination

/-! A buffered writer of delimited records. A field is quoted iff it holds the delimiter, a quote
or a line break, and a record without any byte is written as two quotes, so that it is not lost.
Bytes go down only when the next ones find no room; a record that is cut off by a refused write
stays in progress, and the next one goes on from there. A record that is sure to find room goes
straight into the buffer, whatever is in progress. -/
namespace SeriesClient.Export.Csv

def quote : UInt8 := 34

def lineFeed : UInt8 := 10

def carriageReturn : UInt8 := 13

/-- Bytes held back before any go down. -/
def bufferSize : Nat := 8192

def needsQuotes (delimiter : UInt8) (field : Bytes) : Bool :=
  field.any fun b => b == delimiter || b == quote || b == carriageReturn || b == lineFeed

/-- How far the record at hand has come. -/
structure Progress where
  /-- Fields that are complete. -/
  fields : Nat := 0
  /-- Some byte of the record has been written. -/
  started : Bool := false
  inField : Bool := false
  /-- The field at hand is quoted and its closing quote is still to come. -/
  quoted : Bool := false
deriving DecidableEq, Repr

structure Writer (δ : Type) where
  destination : δ
  delimiter : UInt8
  buffer : Array UInt8 := #[]
  progress : Progress := {}
  /-- Fields of every record, once there has been one. -/
  width : Option Nat := none

/-- Steps of a writer; a refused step leaves the writer as far as it came. -/
abbrev Writing (δ : Type) := ExceptT SinkFault (StateM (Writer δ))

namespace Writer
variable {δ : Type} [Destination δ]

/-- Sends the buffer down; what is refused stays in it. An empty buffer is not written. -/
def drain (writer : Writer δ) : Except String Unit × Writer δ :=
  if writer.buffer.isEmpty then (.ok (), writer)
  else match Destination.write writer.buffer.toList writer.destination with
    | (.ok (), destination) => (.ok (), { writer with destination, buffer := #[] })
    | (.error e, destination) => (.error e, { writer with destination })

def fits (writer : Writer δ) (bytes : Bytes) : Bool :=
  writer.buffer.size + bytes.length ≤ bufferSize

/-- Holds bytes back behind those in the buffer. -/
def hold (bytes : Bytes) (writer : Writer δ) : Writer δ :=
  { writer with buffer := writer.buffer ++ bytes }

def add (bytes : Bytes) (writer : Writer δ) : Writer δ := { writer.hold bytes with
  progress := { writer.progress with started := true } }

def setProgress (change : Progress → Progress) : Writing δ Unit :=
  modify fun writer => { writer with progress := change writer.progress }

/-- Makes room by sending the buffer down. -/
def spill : Writing δ Unit := fun writer =>
  match writer.drain with
  | (.ok (), writer) => (.ok (), writer)
  | (.error e, writer) => (.error (.reported e), writer)

/-- Adds bytes that must stay together, after sending the buffer down if they find no room. -/
def put (bytes : Bytes) : Writing δ Unit := do
  unless (← get).fits bytes do spill
  modify (add bytes)

/-- Closes the quotes of the field at hand if it has any. -/
def closeQuotes : Writing δ Unit := do
  if (← get).progress.quoted then
    put [quote]
    setProgress fun p => { p with quoted := false }

/-- Separates the next field from those before it. -/
def separate : Writing δ Unit := do
  let writer ← get
  if writer.progress.fields ≠ 0 then
    closeQuotes
    put [writer.delimiter]
    setProgress fun p => { p with inField := false }

/-- Opens a field, with a quote if its bytes call for one. -/
def openField (field : Bytes) : Writing δ Unit := do
  let writer ← get
  unless writer.progress.inField do
    let quoted := needsQuotes writer.delimiter field
    setProgress fun p => { p with quoted }
    if quoted then put [quote]
    setProgress fun p => { p with inField := true }

/-- The bytes of a field; inside quotes a quote is written twice. -/
def putBytes : Bytes → Writing δ Unit
  | [] => pure ()
  | b :: bytes => do
    put (if (← get).progress.quoted && b == quote then [quote, quote] else [b])
    putBytes bytes

def putField (field : Bytes) : Writing δ Unit := do
  separate
  openField field
  putBytes field
  setProgress fun p => { p with fields := p.fields + 1 }

/-- All records have as many fields as the first. -/
def checkWidth : Writing δ Unit := do
  let writer ← get
  let fields := writer.progress.fields
  match writer.width with
  | none => set { writer with width := some fields }
  | some width => if width ≠ fields then throw (.recordWidth fields width)

def endRecord : Writing δ Unit := do
  unless (← get).progress.started do put [quote, quote]
  closeQuotes
  put [lineFeed]
  setProgress fun _ => {}

/-- A record byte by byte, with the buffer sent down wherever it is full. -/
def putRecord (fields : List Bytes) : Writing δ Unit := do
  fields.forM putField
  checkWidth
  endRecord

/-- No record of these fields is longer: each byte may be a quote, each field in quotes. -/
def longest (fields : List Bytes) : Nat :=
  2 * fields.flatten.length + (fields.length - 1) + 2 * fields.length + 2

/-- The buffer is sure to have room for a record, which has some byte. -/
def roomy (fields : List Bytes) (writer : Writer δ) : Bool :=
  !fields.flatten.isEmpty && longest fields ≤ bufferSize - writer.buffer.size

/-- Bytes inside quotes, one by one. -/
def holdBytes (bytes : Bytes) (writer : Writer δ) : Writer δ :=
  bytes.foldl (fun writer b => writer.hold (if b == quote then [quote, quote] else [b])) writer

def holdField (field : Bytes) (writer : Writer δ) : Writer δ :=
  if needsQuotes writer.delimiter field then ((writer.hold [quote]).holdBytes field).hold [quote]
  else writer.hold field

def holdFields (writer : Writer δ) : List Bytes → Writer δ
  | [] => writer
  | field :: fields => fields.foldl (fun writer other =>
      (writer.hold [writer.delimiter]).holdField other) (writer.holdField field)

/-- A record straight into the buffer. Of the record at hand only the number of fields is set. -/
def holdRecord (fields : List Bytes) : Writing δ Unit := do
  modify (·.holdFields fields)
  setProgress fun p => { p with fields := fields.length }
  checkWidth
  modify (·.hold [lineFeed])
  setProgress fun p => { p with fields := 0 }

def writeRecord (fields : List Bytes) : Writing δ Unit := do
  if (← get).roomy fields then holdRecord fields else putRecord fields

/-- Sends the buffer down and everything below it on. -/
def flush (writer : Writer δ) : Except String Unit × Writer δ :=
  match writer.drain with
  | (.ok (), writer) =>
    let (answer, destination) := Destination.flush writer.destination
    (answer, { writer with destination })
  | refused => refused

end Writer
end SeriesClient.Export.Csv
