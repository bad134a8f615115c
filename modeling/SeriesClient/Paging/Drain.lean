import SeriesClient.Export.Sink
import SeriesClient.Paging.Cursor

/-! Reading a cursor to its end. A source may have pages for ever, so both loops are given a number
of rows they may read at most; `none` says that this was too few, and is no answer of theirs. -/
namespace SeriesClient.Paging

/-- A drained cursor and the sink it was drained into. -/
structure Drained (σ κ : Type) where
  answer : Except Error Unit
  cursor : Cursor σ
  sink : κ
  notices : List Notice

namespace Cursor
variable {σ κ : Type} [PageSource σ] [Export.RowSink κ]

/-- Writes the rows of the cursor into a session that has begun, and finishes the session. -/
def drainRows (cursor : Cursor σ) (sink : κ) : (fuel : Nat) → Option (Drained σ κ)
  | 0 => none
  | fuel + 1 =>
    let turn := cursor.tryNext
    match turn.answer with
    | .error e => some ⟨.error e, turn.cursor, sink, turn.notices⟩
    | .ok none =>
      let (answer, sink) := Export.RowSink.finish sink
      some ⟨answer, turn.cursor, sink, turn.notices⟩
    | .ok (some row) =>
      match Export.RowSink.writeRow none row sink with
      | (.error e, sink) => some ⟨.error e, turn.cursor, sink, turn.notices⟩
      | (.ok (), sink) => (drainRows turn.cursor sink fuel).map fun drained =>
        { drained with notices := turn.notices ++ drained.notices }

/-- Writes all remaining rows into a sink, without timestamps, up to the first failure of the
cursor or the sink. -/
def drainInto (cursor : Cursor σ) (sink : κ) (fuel : Nat) : Option (Drained σ κ) :=
  match Export.RowSink.begin ⟨cursor.paths, cursor.types, false⟩ sink with
  | (.error e, sink) => some ⟨.error e, cursor, sink, []⟩
  | (.ok (), sink) => cursor.drainRows sink fuel

/-- Reads rows up to the end or the first row that does not decode. -/
def collect (cursor : Cursor σ) : (fuel : Nat) → Option (Turn σ (Except Error (List Row)))
  | 0 => none
  | fuel + 1 =>
    let turn := cursor.tryNext
    match turn.answer with
    | .error e => some ⟨.error e, turn.cursor, turn.notices⟩
    | .ok none => some ⟨.ok [], turn.cursor, turn.notices⟩
    | .ok (some row) => (turn.cursor.collect fuel).map fun rest =>
      ⟨rest.answer.map (row :: ·), rest.cursor, turn.notices ++ rest.notices⟩

/-- Enough fuel for a scripted source: each row read is one of the page or of the script. -/
def rowBound (cursor : Cursor Script) : Nat := cursor.values.length + cursor.source.rowBound + 1

end Cursor
end SeriesClient.Paging
