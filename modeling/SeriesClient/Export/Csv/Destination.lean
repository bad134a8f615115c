import SeriesClient.Wire.Word

/-! What a file writer writes to. A write is taken whole or refused whole. -/
namespace SeriesClient.Export.Csv

class Destination (δ : Type) where
  write : Bytes → δ → Except String Unit × δ
  flush : δ → Except String Unit × δ

/-- Memory of bounded size that can be told to refuse one of its flushes. -/
structure Store where
  limit : Option Nat := none
  /-- Number of the flush to refuse, from one. -/
  refusedFlush : Option Nat := none
  written : Bytes := []
  flushes : Nat := 0
deriving DecidableEq, Repr

namespace Store

def write (bytes : Bytes) (store : Store) : Except String Unit × Store :=
  if store.limit.any (· < store.written.length + bytes.length) then (.error "disk full", store)
  else (.ok (), { store with written := store.written ++ bytes })

def flush (store : Store) : Except String Unit × Store :=
  let number := store.flushes + 1
  let answer := if store.refusedFlush = some number then .error "flush refused" else .ok ()
  (answer, { store with flushes := number })

instance : Destination Store := ⟨write, flush⟩

end Store
end SeriesClient.Export.Csv
