import SeriesClient.Path
import SeriesClient.Permutation
import SeriesClient.Value

/-! Batches of samples to insert. A row batch has a list of cells per timestamp, a column batch a
list per path; sorting moves types and cells together with the timestamps and paths. -/
namespace SeriesClient

inductive Orientation where
  | row
  | column
deriving DecidableEq, Repr

structure Batch where
  orientation : Orientation
  paths : List String
  types : List DataType
  timestamps : List Int64
  values : List Row
deriving DecidableEq, Repr

namespace Orientation

/-- What the outer lists of values stand for. -/
def outer : Orientation → Axis
  | row => .timestamps
  | column => .paths

/-- What the cells in one list of values stand for. -/
def inner : Orientation → Axis
  | row => .paths
  | column => .timestamps

end Orientation

namespace Batch

def extent (batch : Batch) : Axis → Nat
  | .timestamps => batch.timestamps.length
  | .paths => batch.paths.length

/-- The first list, from number `index` on, that is not `expected` cells wide. -/
def raggedFrom (expected : Nat) (index : Nat) : List Row → Option (Nat × Nat)
  | [] => none
  | cells :: lists =>
    if cells.length ≠ expected then some (index, cells.length)
    else raggedFrom expected (index + 1) lists

/-- The first fault of the batch's shape. -/
def fault? (batch : Batch) : Option RequestFault :=
  let outer := batch.orientation.outer
  let inner := batch.orientation.inner
  if batch.paths.isEmpty || batch.types.isEmpty || batch.timestamps.isEmpty
      || batch.values.isEmpty then
    some .emptyBatch
  else if batch.paths.length ≠ batch.types.length then
    some (.typesForPaths batch.types.length batch.paths.length)
  else if batch.values.length ≠ batch.extent outer then
    some (.listsForAxis batch.values.length (batch.extent outer) outer)
  else match raggedFrom (batch.extent inner) 0 batch.values with
    | some (index, width) => some (.listWidth index width (batch.extent inner) inner)
    | none => none

def byTime (batch : Batch) : Permutation :=
  .sortingBy (fun a b => decide (a ≤ b)) batch.timestamps

def byPath (batch : Batch) : Permutation := .sortingBy Path.le batch.paths

/-- Moves lists of cells by one order and the cells of each by another. -/
def moved (outer inner : Permutation) (values : List Row) : Except Error (List Row) := do
  inner.applyEach (← outer.apply values)

/-- The batch with timestamps ascending and paths in byte order, equal ones in their given
order. -/
def sorted (batch : Batch) : Except Error Batch := do
  if let some fault := batch.fault? then .error (.invalid fault)
  let byTime := batch.byTime
  let byPath := batch.byPath
  let values ← match batch.orientation with
    | .row => moved byTime byPath batch.values
    | .column => moved byPath byTime batch.values
  .ok {
    orientation := batch.orientation
    paths := ← byPath.apply batch.paths
    types := ← byPath.apply batch.types
    timestamps := ← byTime.apply batch.timestamps
    values }

end Batch
end SeriesClient
