import SeriesClient.Value
import SeriesClient.Error

/-! Row sinks take a result row by row: `begin` once, then the rows, then `finish`. Every call
answers together with the sink after it, so a refused call shows what it left behind. -/
namespace SeriesClient.Export

/-- What a sink learns of the columns before the first row. -/
structure Layout where
  paths : List String
  types : List DataType
  timed : Bool
deriving DecidableEq, Repr

class RowSink (σ : Type) where
  begin : Layout → σ → Except Error Unit × σ
  writeRow : Option Int64 → Row → σ → Except Error Unit × σ
  finish : σ → Except Error Unit × σ

namespace RowSink
variable {σ : Type} [RowSink σ]

/-- Writes rows in order, each with its timestamp if there is one left, up to the first refusal. -/
def writeRows (timestamps : List Int64) : List Row → σ → Except Error Unit × σ
  | [], sink => (.ok (), sink)
  | row :: rows, sink => match writeRow timestamps.head? row sink with
    | (.ok (), sink) => writeRows timestamps.tail rows sink
    | refused => refused

/-- A whole session, ended by the first refusal. -/
def session (layout : Layout) (timestamps : List Int64) (rows : List Row) (sink : σ) :
    Except Error Unit × σ :=
  match begin layout sink with
  | (.ok (), sink) => match writeRows timestamps rows sink with
    | (.ok (), sink) => finish sink
    | refused => refused
  | refused => refused

end RowSink
end SeriesClient.Export
