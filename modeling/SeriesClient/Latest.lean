import SeriesClient.Table

/-! The latest sample of each series, in the order in which the paths were given. -/
namespace SeriesClient

structure Sample where
  path : String
  dataType : DataType
  timestamp : Int64
  value : Value
deriving DecidableEq, Repr

structure Latest where
  samples : List Sample
deriving DecidableEq, Repr

namespace Sample

def display (sample : Sample) : String :=
  spaced [toString sample.timestamp.toInt, sample.path, sample.value.display]

def toJson (sample : Sample) : Json := .object
  [("path", .string sample.path), ("data_type", sample.dataType.toJson),
    ("timestamp", .ofInt sample.timestamp.toInt), ("value", sample.value.toJson)]

/-- Equality of samples whose floats are compared as numbers. -/
def numEq (a b : Sample) : Bool :=
  a.path == b.path && a.dataType == b.dataType && a.timestamp == b.timestamp &&
    a.value.numEq b.value

end Sample

namespace Latest

/-- Puts four lists side by side, as far as all of them go. -/
def samplesOf : List String → List DataType → List Int64 → List Value → List Sample
  | path :: paths, dataType :: types, timestamp :: timestamps, value :: values =>
    ⟨path, dataType, timestamp, value⟩ :: samplesOf paths types timestamps values
  | _, _, _, _ => []

def assemble (paths : List String) (types : List DataType) (timestamps values : Bytes) :
    Except Error Latest := do
  checkTypes paths types
  let timestamps ← Wire.decodeTimestamps timestamps
  if timestamps.length ≠ paths.length then
    .error (.corrupted .timestamps (.timestampsForPaths timestamps.length paths.length))
  let values ← Wire.decodeValues values types
  .ok ⟨samplesOf paths types timestamps values⟩

def size (latest : Latest) : Nat := latest.samples.length

def isEmpty (latest : Latest) : Bool := latest.samples.isEmpty

/-- The first sample of a path. -/
def find? (latest : Latest) (path : String) : Option Sample :=
  latest.samples.find? (·.path == path)

def display (latest : Latest) : String :=
  lines ("Time Path Value" :: latest.samples.map Sample.display)

def toJson (latest : Latest) : Json := .object [("entries", .ofList Sample.toJson latest.samples)]

/-- Equality of results whose floats are compared as numbers. -/
def numEq (a b : Latest) : Bool :=
  a.size == b.size && (a.samples.zip b.samples).all fun (x, y) => x.numEq y

end Latest
end SeriesClient
