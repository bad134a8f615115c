/-! The six types a series may declare, with their numbers and widths on the wire.
The set is closed: a number outside it names no type. -/
namespace SeriesClient

inductive DataType where
  | boolean
  | integer
  | long
  | float
  | double
  | binary
deriving DecidableEq, Repr

namespace DataType

def all : List DataType := [boolean, integer, long, float, double, binary]

/-- Number of the type on the wire. -/
def tag : DataType → Int32
  | boolean => 0
  | integer => 1
  | long => 2
  | float => 3
  | double => 4
  | binary => 5

def ofTag? (tag : Int32) : Option DataType :=
  all.find? (fun t => t.tag == tag)

/-- Bytes of an encoded value; text has no fixed width. -/
def fixedWidth : DataType → Option Nat
  | boolean => some 1
  | integer | float => some 4
  | long | double => some 8
  | binary => none

def name : DataType → String
  | boolean => "BOOLEAN"
  | integer => "INTEGER"
  | long => "LONG"
  | float => "FLOAT"
  | double => "DOUBLE"
  | binary => "BINARY"

theorem ofTag?_tag (t : DataType) : ofTag? t.tag = some t := by
  cases t <;> rfl

theorem tag_of_ofTag? (tag : Int32) (t : DataType) (h : ofTag? tag = some t) : t.tag = tag := by
  have := List.find?_some h
  simpa using this

end DataType
end SeriesClient
