import SeriesClient.Proofs.Paging.Effects

/-! Sources and sinks under observation: a record of what a source was asked and answered, and of
the rows a sink was given. Observing them changes nothing that a cursor does. -/
namespace SeriesClient.Paging
open Export

inductive Exchange where
  | fetched (request : FetchRequest) (answer : Except Error Page)
  | closed (queryId : Int64) (answer : Except Error Unit)

/-- Rows of a page, as received. -/
def Page.rows (page : Page) : List (Bytes × Bytes) := page.values.zip page.bitmaps

/-- Rows a cursor accepts from an answer: those of a page whose buffers pair up. -/
def Exchange.accepted : Exchange → List (Bytes × Bytes)
  | fetched _ (.ok page) => if page.values.length = page.bitmaps.length then page.rows else []
  | fetched _ (.error _) => []
  | closed .. => []

def Exchange.request? : Exchange → Option FetchRequest
  | fetched request _ => some request
  | closed .. => none

structure Observed (σ : Type) where
  source : σ
  exchanges : List Exchange := []

namespace Observed
variable {σ : Type}

/-- Rows of the accepted pages, in the order in which they were fetched. -/
def accepted (observed : Observed σ) : List (Bytes × Bytes) :=
  observed.exchanges.flatMap Exchange.accepted

def requests (observed : Observed σ) : List FetchRequest :=
  observed.exchanges.filterMap Exchange.request?

variable [PageSource σ]

def fetch (request : FetchRequest) (observed : Observed σ) : Except Error Page × Observed σ :=
  let (answer, source) := PageSource.fetch request observed.source
  (answer, ⟨source, observed.exchanges ++ [.fetched request answer]⟩)

def close (queryId : Int64) (observed : Observed σ) : Except Error Unit × Observed σ :=
  let (answer, source) := PageSource.close queryId observed.source
  (answer, ⟨source, observed.exchanges ++ [.closed queryId answer]⟩)

instance : PageSource (Observed σ) := ⟨fetch, close⟩

end Observed

structure Watched (κ : Type) where
  sink : κ
  rows : List Row := []

namespace Watched
variable {κ : Type} [RowSink κ]

def begin (layout : Layout) (watched : Watched κ) : Except Error Unit × Watched κ :=
  let (answer, sink) := RowSink.begin layout watched.sink
  (answer, { watched with sink })

/-- The row counts as given also when the sink refuses it. -/
def writeRow (timestamp : Option Int64) (row : Row) (watched : Watched κ) :
    Except Error Unit × Watched κ :=
  let (answer, sink) := RowSink.writeRow timestamp row watched.sink
  (answer, ⟨sink, watched.rows ++ [row]⟩)

def finish (watched : Watched κ) : Except Error Unit × Watched κ :=
  let (answer, sink) := RowSink.finish watched.sink
  (answer, { watched with sink })

instance : RowSink (Watched κ) := ⟨begin, writeRow, finish⟩

theorem rows_begin {layout : Layout} {watched after : Watched κ} {answer : Except Error Unit}
    (begun : RowSink.begin layout watched = (answer, after)) : after.rows = watched.rows := by
  obtain ⟨rfl, rfl⟩ := Prod.mk.inj begun
  rfl

theorem rows_writeRow {timestamp : Option Int64} {row : Row} {watched after : Watched κ}
    {answer : Except Error Unit}
    (written : RowSink.writeRow timestamp row watched = (answer, after)) :
    after.rows = watched.rows ++ [row] := by
  obtain ⟨rfl, rfl⟩ := Prod.mk.inj written
  rfl

end Watched

variable {σ κ α : Type}

/-- The cursor without the record of its source. -/
def Cursor.plain (cursor : Cursor (Observed σ)) : Cursor σ :=
  { cursor with source := cursor.source.source }

def Turn.plain (turn : Turn (Observed σ) α) : Turn σ α := { turn with cursor := turn.cursor.plain }

def Drained.plain (drained : Drained (Observed σ) (Watched κ)) : Drained σ κ :=
  { drained with cursor := drained.cursor.plain, sink := drained.sink.sink }

namespace Cursor

theorem plain_advance (cursor : Cursor (Observed σ)) :
    cursor.plain.advance = cursor.advance.plain := by
  cases valued : cursor.values[cursor.index]? with
  | none => simp only [advance, plain, Turn.plain, valued]
  | some values =>
    cases masked : cursor.bitmaps[cursor.index]? with
    | none => simp only [advance, plain, Turn.plain, valued, masked]
    | some bitmap =>
      cases decoded : Wire.decodeRow values (.view cursor.types.length bitmap) cursor.types <;>
        simp only [advance, plain, Turn.plain, valued, masked, decoded]

variable [PageSource σ]

/-- The record shows every answer to a request. -/
theorem asked_exchange {cursor : Cursor (Observed σ)} {answer : Except Error Page}
    {source : Observed σ} (answered : cursor.asks = (answer, source)) :
    source.exchanges = cursor.source.exchanges ++
      [.fetched cursor.request answer] := by
  obtain ⟨rfl, rfl⟩ := Prod.mk.inj answered
  rfl

variable [RowSink κ]

theorem plain_fetch (cursor : Cursor (Observed σ)) :
    cursor.plain.fetch = (cursor.fetch.1.plain, cursor.fetch.2) := by
  have same : cursor.asks = (cursor.plain.asks.1, ⟨cursor.plain.asks.2, cursor.source.exchanges ++
      [.fetched cursor.request cursor.plain.asks.1]⟩) := rfl
  rw [asks, request] at same
  rw [fetch, fetch, same]
  rw [show PageSource.fetch (cursor.plain.options.request cursor.plain.queryId)
    cursor.plain.source = cursor.plain.asks from rfl]
  cases cursor.plain.asks with
  | mk answer source =>
    cases answer with
    | error e => rfl
    | ok page =>
      by_cases paired : page.values.length = page.bitmaps.length
      · simp only [bind, Except.bind, checkBuffers, if_neg (not_not_intro paired)]
        rfl
      · simp only [bind, Except.bind, checkBuffers, if_pos paired]
        rfl

theorem plain_hasNext (cursor : Cursor (Observed σ)) :
    cursor.plain.hasNext = cursor.hasNext.plain := by
  have asked := plain_fetch cursor.cleared
  by_cases left : cursor.index < cursor.values.length
  · simp only [hasNext, plain, Turn.plain, left, ↓reduceIte]
  · by_cases last : cursor.availability = .exhausted
    · simp only [hasNext, plain, Turn.plain, left, last, ↓reduceIte]
    · simp only [cleared, plain] at asked
      simp only [hasNext, plain, Turn.plain, left, last, ↓reduceIte, asked]

theorem plain_tryNext (cursor : Cursor (Observed σ)) :
    cursor.plain.tryNext = cursor.tryNext.plain := by
  rw [tryNext, tryNext, plain_hasNext]
  cases cursor.hasNext with
  | mk answer ready notices =>
    cases answer with
    | false => rfl
    | true => simp only [Turn.plain, if_true, plain_advance]

theorem plain_next (cursor : Cursor (Observed σ)) : cursor.plain.next = cursor.next.plain := by
  simp only [next, plain_tryNext, Turn.plain]

theorem plain_close (cursor : Cursor (Observed σ)) :
    cursor.plain.close = (cursor.close.1, cursor.close.2.plain) := rfl

theorem plain_drainRows (cursor : Cursor (Observed σ)) (watched : Watched κ) (fuel : Nat) :
    cursor.plain.drainRows watched.sink fuel =
      (cursor.drainRows watched fuel).map Drained.plain := by
  induction fuel generalizing cursor watched with
  | zero => rfl
  | succ fuel ih =>
    rw [drainRows, drainRows, plain_tryNext]
    cases cursor.tryNext with
    | mk answer after notices =>
      rcases answer with e | none | row
      · rfl
      · rfl
      · have written : RowSink.writeRow none row watched =
          ((RowSink.writeRow none row watched.sink).1,
            ⟨(RowSink.writeRow none row watched.sink).2, watched.rows ++ [row]⟩) := rfl
        simp only [Turn.plain, written]
        cases RowSink.writeRow none row watched.sink with
        | mk answer sink =>
          cases answer with
          | error e => rfl
          | ok =>
            simp only [ih after ⟨sink, watched.rows ++ [row]⟩, Option.map_map]
            rfl

theorem plain_drainInto (cursor : Cursor (Observed σ)) (watched : Watched κ) (fuel : Nat) :
    cursor.plain.drainInto watched.sink fuel =
      (cursor.drainInto watched fuel).map Drained.plain := by
  have begun : RowSink.begin ⟨cursor.paths, cursor.types, false⟩ watched =
    ((RowSink.begin ⟨cursor.paths, cursor.types, false⟩ watched.sink).1,
      ⟨(RowSink.begin ⟨cursor.paths, cursor.types, false⟩ watched.sink).2, watched.rows⟩) := rfl
  rw [drainInto, drainInto, begun]
  simp only [plain]
  cases RowSink.begin ⟨cursor.paths, cursor.types, false⟩ watched.sink with
  | mk answer sink =>
    cases answer with
    | error e => rfl
    | ok => exact plain_drainRows cursor ⟨sink, watched.rows⟩ fuel

end Cursor
end SeriesClient.Paging
