import SeriesClient.Error
import SeriesClient.Path

/-! Requests that read or delete samples. Ranges are half-open; each request is checked when it is
built, the range first and the paths last. -/
namespace SeriesClient

/-- How many rows a page should hold. -/
structure FetchOptions where
  fetchSize : Int32 := 1000
deriving DecidableEq, Repr

def FetchOptions.withFetchSize (_ : FetchOptions) (size : Int32) : Except Error FetchOptions :=
  if size ≤ 0 then .error (.invalid (.fetchSizeNotPositive size)) else .ok ⟨size⟩

structure FetchRequest where
  queryId : Int64
  fetchSize : Int32
deriving DecidableEq, Repr

def FetchOptions.request (options : FetchOptions) (queryId : Int64) : FetchRequest :=
  ⟨queryId, options.fetchSize⟩

/-- Aligned batches share their timestamps among all series on the server. -/
structure WriteOptions where
  aligned : Bool := true
deriving DecidableEq, Repr

def WriteOptions.withAligned (_ : WriteOptions) (aligned : Bool) : WriteOptions := ⟨aligned⟩

/-- Samples from `start` up to, but without, `finish`. -/
structure TimeRange where
  start : Int64
  finish : Int64
deriving DecidableEq, Repr

def TimeRange.check (range : TimeRange) : Except Error Unit :=
  if range.finish < range.start then .error (.invalid (.invertedRange range.start range.finish))
  else .ok ()

def mergedPaths (paths : List String) : Except Error (List String) :=
  if paths.isEmpty then .error (.invalid .queryWithoutPaths) else .ok (Path.merge paths)

structure Query where
  paths : List String
  range : TimeRange
deriving DecidableEq, Repr

def Query.make (paths : List String) (range : TimeRange) : Except Error Query := do
  range.check
  .ok ⟨← mergedPaths paths, range⟩

/-- One value per series. -/
structure AggregateQuery where
  paths : List String
  range : TimeRange
  reduction : Reduction
deriving DecidableEq, Repr

def AggregateQuery.make (paths : List String) (range : TimeRange) (reduction : Reduction) :
    Except Error AggregateQuery := do
  range.check
  .ok ⟨← mergedPaths paths, range, reduction⟩

/-- One value per series and per window of `precision`. -/
structure DownsampleQuery where
  paths : List String
  range : TimeRange
  reduction : Reduction
  precision : Int64
deriving DecidableEq, Repr

def DownsampleQuery.make (paths : List String) (range : TimeRange) (reduction : Reduction)
    (precision : Int64) : Except Error DownsampleQuery := do
  range.check
  if precision ≤ 0 then .error (.invalid (.precisionNotPositive precision))
  .ok ⟨← mergedPaths paths, range, reduction, precision⟩

/-- The latest sample of each series at or after a time. -/
structure LatestQuery where
  paths : List String
  start : Int64
deriving DecidableEq, Repr

def LatestQuery.make (paths : List String) (start : Int64) : Except Error LatestQuery := do
  .ok ⟨← mergedPaths paths, start⟩

/-- Deletes samples. Paths and range go to the server as given, which decides what an inverted
range deletes. -/
structure Deletion where
  paths : List String
  range : TimeRange
deriving DecidableEq, Repr

def Deletion.make (paths : List String) (range : TimeRange) : Except Error Deletion :=
  if paths.isEmpty then .error (.invalid .deleteWithoutPaths) else .ok ⟨paths, range⟩

end SeriesClient
