import SeriesClient.Journal.Log
import SeriesClient.Paging.Cursor

/-! What cursors report to the log: a warning for a page that could not be fetched, an error for a
row that does not decode, each under the label of its query. -/
namespace SeriesClient

namespace Paging.Notice

def level : Notice → Journal.Level
  | fetchFailed _ => .warning
  | rowDamaged _ _ => .error

def text : Notice → String
  | fetchFailed e => "failed to fetch page: " ++ e.message
  | rowDamaged row e => s!"row {row} failed to decode: {e.message}"

end Paging.Notice

namespace Journal.Log

def queryLabel (queryId : Int64) : String := "query " ++ toString queryId.toInt

/-- Writes one notice; the label of the query lasts for its line only. -/
def note (queryId : Int64) (notice : Paging.Notice) (log : Log) : Log :=
  let (guard, log) := log.push (queryLabel queryId)
  (log.write notice.level notice.text).release guard

/-- Writes all notices of a call, in order. -/
def report (queryId : Int64) (notices : List Paging.Notice) (log : Log) : Log :=
  notices.foldl (fun log notice => log.note queryId notice) log

end Journal.Log
end SeriesClient
