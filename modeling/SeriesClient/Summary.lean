import SeriesClient.Table

/-! Summaries: one reduced value per path, or per path and window. The windows of a path stand
together, so window `w` of path `p` is value `p * windows + w`. -/
namespace SeriesClient

structure Summary where
  paths : List String
  reduction : Reduction
  /-- Start of each window; without windows there is one value per path. -/
  timestamps : Option (List Int64)
  values : List Value
deriving DecidableEq, Repr

namespace Summary

/-- Counts and places are words of eight bytes; of what is more, they hold the low end. -/
def wrapped (count : Nat) : Nat := count % Wire.wordSize 8

/-- Types of all values. With windows a type per path is enough and holds for all its windows. -/
def valueTypes (paths : Nat) (windows : Option Nat) (types : List DataType) :
    Except Error (List DataType) :=
  let count := windows.getD 1
  if types.length = wrapped (paths * count) then .ok types
  else if windows.isSome && types.length == paths then
    .ok (types.flatMap fun t => List.replicate count t)
  else .error (.invalid (.typesForWindows types.length paths count))

def assemble (paths : List String) (types : List DataType) (reduction : Reduction)
    (timestamps : Option Bytes) (values : Bytes) : Except Error Summary := do
  let timestamps ← timestamps.mapM Wire.decodeTimestamps
  let types ← valueTypes paths.length (timestamps.map List.length) types
  let values ← Wire.decodeValues values types
  .ok { paths, reduction, timestamps, values }

def windowCount (summary : Summary) : Nat := match summary.timestamps with
  | some timestamps => timestamps.length
  | none => 1

def value? (summary : Summary) (path window : Nat) : Option Value :=
  let windows := summary.windowCount
  if summary.paths.length ≤ path || windows ≤ window then none
  else summary.values[wrapped (path * windows + window)]?

def header (summary : Summary) : String :=
  spaced (summary.paths.map fun path => summary.reduction.name ++ "(" ++ path ++ ")")

/-- Lines of the windows from number `window` on. -/
def windowLines (summary : Summary) (window : Nat) : List Int64 → List String
  | [] => []
  | timestamp :: timestamps =>
    spaced (toString timestamp.toInt ::
      (List.range summary.paths.length).map fun path =>
        Cell.display (summary.value? path window)) ::
      windowLines summary (window + 1) timestamps

def display (summary : Summary) : String :=
  lines <| match summary.timestamps with
    | some timestamps => ("Time " ++ summary.header) :: summary.windowLines 0 timestamps
    | none => [summary.header, spaced (summary.values.map Value.display)]

def toJson (summary : Summary) : Json := .object
  [("paths", .ofList .string summary.paths),
    ("aggregate_type", .string summary.reduction.name),
    ("timestamps", .ofOption (.ofList fun t => .ofInt t.toInt) summary.timestamps),
    ("values", .ofList Value.toJson summary.values)]

/-- Equality of summaries whose floats are compared as numbers. -/
def numEq (a b : Summary) : Bool :=
  a.paths == b.paths && a.reduction == b.reduction && a.timestamps == b.timestamps &&
    a.values.length == b.values.length && (a.values.zip b.values).all fun (x, y) => x.numEq y

end Summary
end SeriesClient
