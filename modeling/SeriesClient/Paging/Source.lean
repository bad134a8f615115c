import SeriesClient.Error
import SeriesClient.Query
import SeriesClient.Wire.Word

/-! Where pages come from: the remote side of a result that is fetched piece by piece. -/
namespace SeriesClient.Paging

/-- Rows as received: a value buffer and a mask buffer for each. -/
structure Page where
  values : List Bytes := []
  bitmaps : List Bytes := []
  hasMore : Bool := false
deriving DecidableEq, Repr

/-- Values and masks belong together one to one. -/
def checkBuffers (values bitmaps : List Bytes) : Except Error Unit :=
  if values.length ≠ bitmaps.length then
    .error (.corrupted .bitmap (.unequalBuffers values.length bitmaps.length))
  else .ok ()

class PageSource (σ : Type) where
  fetch : FetchRequest → σ → Except Error Page × σ
  close : Int64 → σ → Except Error Unit × σ

/-- A source that gives what it was told to give, and keeps what it was asked. -/
structure Script where
  pages : List (Except Error Page)
  closings : List (Except Error Unit)
  fetches : List FetchRequest := []
  closed : List Int64 := []

namespace Script

/-- A script that has run out fails. -/
def fetch (request : FetchRequest) (script : Script) : Except Error Page × Script :=
  let answer := script.pages.head?.getD (.error (.transport "fetch script exhausted"))
  (answer, { script with
    pages := script.pages.tail
    fetches := script.fetches ++ [request] })

def close (queryId : Int64) (script : Script) : Except Error Unit × Script :=
  let answer := script.closings.head?.getD (.ok ())
  (answer, { script with
    closings := script.closings.tail
    closed := script.closed ++ [queryId] })

instance : PageSource Script := ⟨fetch, close⟩

/-- Rows that the script can still give. -/
def rowBound (script : Script) : Nat :=
  script.pages.foldl (fun rows answer => match answer with
    | .ok page => rows + page.values.length
    | .error _ => rows) 0

end Script
end SeriesClient.Paging
