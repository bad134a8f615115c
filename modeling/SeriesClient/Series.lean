import SeriesClient.DataType
import SeriesClient.Json

/-! Series and cluster members as the server names them. -/
namespace SeriesClient

def DataType.toJson (t : DataType) : Json := .string t.name

structure Series where
  path : String
  dataType : DataType
deriving DecidableEq, Repr

namespace Series

def display (series : Series) : String :=
  "Path: " ++ series.path ++ ", Type: " ++ series.dataType.name

def toJson (series : Series) : Json :=
  .object [("path", .string series.path), ("data_type", series.dataType.toJson)]

end Series
end SeriesClient
