import SeriesClient.Cluster
import SeriesClient.Table

/-! Answers to executed statements: what the server reports depends on the kind of statement. -/
namespace SeriesClient

inductive StatementKind where
  | query
  | showSeries
  | replicaCount
  | countPoints
  | showCluster
  /-- A statement that answers with nothing but its success. -/
  | other
deriving DecidableEq, Repr

/-- What the server sent back; only the fields of the statement's kind matter. -/
structure StatementResponse where
  kind : StatementKind
  parseError : Option String := none
  paths : List String := []
  tags : List Int32 := []
  timestamps : Bytes := []
  values : List Bytes := []
  bitmaps : List Bytes := []
  replicas : Int32 := 0
  points : Int64 := 0
  cluster : Option Cluster := none
deriving DecidableEq, Repr

inductive Payload where
  | table (table : Table)
  | series (series : List Series)
  | replicas (count : Int32)
  | points (count : Int64)
  | cluster (cluster : Cluster)
  | empty
deriving DecidableEq, Repr

structure StatementResult where
  parseError : Option String
  payload : Payload
deriving DecidableEq, Repr

namespace StatementResponse

def table (response : StatementResponse) : Except Error Table := do
  let types ← DataType.ofTags response.tags
  Table.assemble response.paths types response.timestamps response.values response.bitmaps

/-- The lists are compared before any type number is looked at. -/
def series (response : StatementResponse) : Except Error (List Series) := do
  if response.paths.length ≠ response.tags.length then
    .error (.invalid (.typesForSeries response.tags.length response.paths.length))
  let types ← DataType.ofTags response.tags
  .ok (response.paths.zipWith Series.mk types)

def payload (response : StatementResponse) : Except Error Payload :=
  match response.kind with
  | .query => response.table.map .table
  | .showSeries => response.series.map .series
  | .replicaCount => .ok (.replicas response.replicas)
  | .countPoints => .ok (.points response.points)
  | .showCluster => .ok (.cluster (response.cluster.getD {}))
  | .other => .ok .empty

/-- An empty parse error is none. -/
def assemble (response : StatementResponse) : Except Error StatementResult := do
  let payload ← response.payload
  .ok { parseError := response.parseError.filter (!·.isEmpty), payload }

end StatementResponse

namespace StatementResult

def table? (result : StatementResult) : Option Table := match result.payload with
  | .table table => some table
  | _ => none

def isQuery (result : StatementResult) : Bool := result.table?.isSome

end StatementResult
end SeriesClient
