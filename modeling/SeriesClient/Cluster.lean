import SeriesClient.Json
import SeriesClient.Lines

/-! The members of a cluster. Its metadata lives in external stores or in a local directory; when
there is a local one, the external ones are not shown. -/
namespace SeriesClient

structure Node where
  id : Int64
  ip : String
  portNumber : Int32
deriving DecidableEq, Repr

structure Engine where
  id : Int64
  ip : String
  portNumber : Int32
  kind : String
deriving DecidableEq, Repr

structure MetaStore where
  ip : String
  portNumber : Int32
  kind : String
deriving DecidableEq, Repr

structure Cluster where
  nodes : List Node := []
  engines : List Engine := []
  metaStores : List MetaStore := []
  localMetaStore : Option String := none
deriving DecidableEq, Repr

def addressText (ip : String) (portNumber : Int32) : String :=
  "Ip: " ++ ip ++ ", Port: " ++ toString portNumber.toInt

namespace Node

def display (node : Node) : String :=
  "Id: " ++ toString node.id.toInt ++ ", " ++ addressText node.ip node.portNumber

def toJson (node : Node) : Json := .object
  [("id", .ofInt node.id.toInt), ("ip", .string node.ip), ("port", .ofInt node.portNumber.toInt)]

end Node

namespace Engine

def display (engine : Engine) : String :=
  "Id: " ++ toString engine.id.toInt ++ ", " ++ addressText engine.ip engine.portNumber ++
    ", Type: " ++ engine.kind

def toJson (engine : Engine) : Json := .object
  [("id", .ofInt engine.id.toInt), ("ip", .string engine.ip),
    ("port", .ofInt engine.portNumber.toInt), ("engine_type", .string engine.kind)]

end Engine

namespace MetaStore

def display (store : MetaStore) : String :=
  addressText store.ip store.portNumber ++ ", Type: " ++ store.kind

def toJson (store : MetaStore) : Json := .object
  [("ip", .string store.ip), ("port", .ofInt store.portNumber.toInt),
    ("storage_type", .string store.kind)]

end MetaStore

namespace Cluster

def usesLocalMetaStore (cluster : Cluster) : Bool := cluster.localMetaStore.isSome

def display (cluster : Cluster) : String :=
  lines <| "Iginx info:" :: cluster.nodes.map Node.display ++
    "Storage engine info:" :: cluster.engines.map Engine.display ++
    match cluster.localMetaStore with
    | some path => ["Local meta storage info:", path]
    | none => "Meta storage info:" :: cluster.metaStores.map MetaStore.display

def toJson (cluster : Cluster) : Json := .object
  [("nodes", .ofList Node.toJson cluster.nodes),
    ("storage_engines", .ofList Engine.toJson cluster.engines),
    ("meta_storages", .ofList MetaStore.toJson cluster.metaStores),
    ("local_meta_storage", .ofOption .string cluster.localMetaStore)]

end Cluster
end SeriesClient
