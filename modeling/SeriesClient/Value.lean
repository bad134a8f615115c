import SeriesClient.DataType
import SeriesClient.Json
import SeriesClient.Number.Style

/-! Values, the cells and rows made of them, and the texts of a value. Equality of values is
equality of all their bits, which `bitEq` decides; `numEq` is the comparison under which a float
that is no number differs from itself. -/
namespace SeriesClient

inductive Value where
  | boolean (value : Bool)
  | integer (value : Int32)
  | long (value : Int64)
  | float (value : Binary32)
  | double (value : Binary64)
  | binary (text : String)
deriving DecidableEq, Repr

/-- Absence is a property of the place, not a value. -/
abbrev Cell := Option Value

abbrev Row := List Cell

namespace Value

def dataType : Value → DataType
  | boolean _ => .boolean
  | integer _ => .integer
  | long _ => .long
  | float _ => .float
  | double _ => .double
  | binary _ => .binary

def numEq : Value → Value → Bool
  | float x, float y => x.numEq y
  | double x, double y => x.numEq y
  | a, b => a = b

/-- Equality of all bits, under which a float that is no number equals itself. -/
def bitEq : Value → Value → Bool
  | float x, float y => x.bits == y.bits
  | double x, double y => x.bits == y.bits
  | a, b => a.numEq b

theorem bitEq_iff (a b : Value) : a.bitEq b = true ↔ a = b := by
  rcases a with _ | _ | _ | ⟨⟨_⟩⟩ | ⟨⟨_⟩⟩ | _ <;> rcases b with _ | _ | _ | ⟨⟨_⟩⟩ | ⟨⟨_⟩⟩ | _ <;>
    simp [bitEq, numEq]

/-- People read numbers without exponents and whole numbers without a point; a half goes up. -/
def displayStyle : Number.Style := ⟨.up, none, false, false⟩

def booleanText (value : Bool) : String := if value then "true" else "false"

def display : Value → String
  | boolean value => booleanText value
  | integer value => toString value.toInt
  | long value => toString value.toInt
  | float value => displayStyle.text value.datum
  | double value => displayStyle.text value.datum
  | binary text => text

/-- Exponents that data files write positionally, for each width of float. -/
def singleSpan : Number.Span := ⟨-6, 12⟩

def doubleSpan : Number.Span := ⟨-5, 15⟩

/-- Data files keep the point of whole numbers and switch to exponents early; a half goes to the
even neighbour. -/
def fieldStyle (span : Number.Span) : Number.Style := ⟨.even, some span, true, false⟩

/-- Text of a value in a delimited file, before any quoting. -/
def field : Value → String
  | boolean value => booleanText value
  | integer value => toString value.toInt
  | long value => toString value.toInt
  | float value => (fieldStyle singleSpan).text value.datum
  | double value => (fieldStyle doubleSpan).text value.datum
  | binary text => text

/-- JSON numbers are those of data files with a sign on every exponent; JSON has no others. -/
def jsonNumber (span : Number.Span) (datum : Number.Datum) : Json :=
  match datum with
  | .finite .. => .number (Number.Style.text ⟨.even, some span, true, true⟩ datum)
  | _ => .null

def toJson : Value → Json
  | boolean value => .bool value
  | integer value => .ofInt value.toInt
  | long value => .ofInt value.toInt
  | float value => jsonNumber singleSpan value.datum
  | double value => jsonNumber doubleSpan value.datum
  | binary text => .string text

end Value

def Cell.display (cell : Cell) : String := match cell with
  | some value => value.display
  | none => "null"

/-- Cells are equal when both are absent or both hold equal numbers. -/
def Cell.numEq (a b : Cell) : Bool := match a, b with
  | none, none => true
  | some x, some y => x.numEq y
  | _, _ => false

def Row.toJson (row : Row) : Json := .ofList (.ofOption Value.toJson) row

end SeriesClient
