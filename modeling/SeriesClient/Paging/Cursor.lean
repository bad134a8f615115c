import SeriesClient.Paging.Source
import SeriesClient.Wire.Cells

/-! A cursor over a result on the server. It holds one page and fetches another only when that one
is used up and the server has not said that it was the last. A failed fetch ends the reading for
now and is tried again; a row that does not decode ends it for good. -/
namespace SeriesClient.Paging

/-- What is known of pages beyond the one at hand. -/
inductive Availability where
  /-- Nothing has been fetched yet, or the last fetch failed. -/
  | unknown
  | more
  | exhausted
deriving DecidableEq, Repr

structure Cursor (σ : Type) where
  source : σ
  queryId : Int64
  options : FetchOptions
  paths : List String
  types : List DataType
  values : List Bytes
  bitmaps : List Bytes
  /-- Rows of the page that are used up. -/
  index : Nat := 0
  availability : Availability := .unknown
  lastError : Option Error := none

/-- What a cursor reports to the log. -/
inductive Notice where
  | fetchFailed (error : Error)
  | rowDamaged (row : Nat) (error : Error)
deriving DecidableEq, Repr

/-- The answer to a call on a cursor, the cursor after it, and what it reported on the way. -/
structure Turn (σ α : Type) where
  answer : α
  cursor : Cursor σ
  notices : List Notice

namespace Cursor
variable {σ : Type}

/-- A cursor whose first page came along with the answer to the query. -/
def withPage (source : σ) (queryId : Int64) (paths : List String) (types : List DataType)
    (options : FetchOptions) (values bitmaps : List Bytes) : Except Error (Cursor σ) := do
  if paths.length ≠ types.length then
    .error (.invalid (.typesForColumns types.length paths.length))
  checkBuffers values bitmaps
  .ok { source, queryId, options, paths, types, values, bitmaps }

def make (source : σ) (queryId : Int64) (paths : List String) (types : List DataType)
    (options : FetchOptions) : Except Error (Cursor σ) :=
  withPage source queryId paths types options [] []

/-- Rows of the page at hand that are still to come. -/
def bufferedRows (cursor : Cursor σ) : Nat := cursor.values.length - cursor.index

/-- Hands out the last error and forgets it. -/
def takeLastError (cursor : Cursor σ) : Option Error × Cursor σ :=
  (cursor.lastError, { cursor with lastError := none })

variable [PageSource σ]

/-- Asks for a page and takes it if its buffers pair up; otherwise the page at hand stays. -/
def fetch (cursor : Cursor σ) : Cursor σ × List Notice :=
  let (answer, source) := PageSource.fetch (cursor.options.request cursor.queryId) cursor.source
  let accepted := do
    let page ← answer
    checkBuffers page.values page.bitmaps
    .ok page
  match accepted with
  | .ok page => ({ cursor with
      source
      values := page.values
      bitmaps := page.bitmaps
      availability := if page.hasMore then .more else .exhausted }, [])
  | .error e => ({ cursor with source, availability := .unknown, lastError := some e },
      [.fetchFailed e])

/-- Whether there is another row. A page that is used up is given away before the next is asked
for. -/
def hasNext (cursor : Cursor σ) : Turn σ Bool :=
  if cursor.index < cursor.values.length then ⟨true, cursor, []⟩
  else
    let cleared := { cursor with values := [], bitmaps := [], index := 0 }
    if cursor.availability = .exhausted then ⟨false, cleared, []⟩
    else
      let (fetched, notices) := cleared.fetch
      ⟨!fetched.values.isEmpty, fetched, notices⟩

/-- Decodes the row at hand and steps past it. The page is used up by a row that does not decode. -/
def advance (cursor : Cursor σ) : Turn σ (Except Error (Option Row)) :=
  let row := cursor.index
  let stepped := { cursor with index := row + 1 }
  match cursor.values[row]?, cursor.bitmaps[row]? with
  | some values, some bitmap =>
    match Wire.decodeRow values (.view cursor.types.length bitmap) cursor.types with
    | .ok cells => ⟨.ok (some cells), stepped, []⟩
    | .error e =>
      ⟨.error e, { stepped with index := cursor.values.length, availability := .exhausted },
        [.rowDamaged row e]⟩
  | _, _ => ⟨.ok none, stepped, []⟩

/-- The next row; none at the end and after a failed fetch. -/
def tryNext (cursor : Cursor σ) : Turn σ (Except Error (Option Row)) :=
  let ready := cursor.hasNext
  if ready.answer then
    let turn := ready.cursor.advance
    { turn with notices := ready.notices ++ turn.notices }
  else ⟨.ok none, ready.cursor, ready.notices⟩

/-- The next row as an iterator gives it: the end is no item, a damaged row is one. -/
def next (cursor : Cursor σ) : Turn σ (Option (Except Error Row)) :=
  let turn := cursor.tryNext
  let item := match turn.answer with
    | .ok (some row) => some (.ok row)
    | .ok none => none
    | .error e => some (.error e)
  ⟨item, turn.cursor, turn.notices⟩

/-- Releases the result on the server. The cursor itself goes on as it was. -/
def close (cursor : Cursor σ) : Except Error Unit × Cursor σ :=
  let (answer, source) := PageSource.close cursor.queryId cursor.source
  (answer, { cursor with source })

end Cursor
end SeriesClient.Paging
