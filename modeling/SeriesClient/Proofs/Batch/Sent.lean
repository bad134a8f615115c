import Mathlib.Order.MinMax
import SeriesClient.Insert
import SeriesClient.Proofs.Batch.Grid
import SeriesClient.Proofs.Wire.DenseCells

/-! A batch as the lists of cells that are sent, every cell with its type. The lists are encoded in
order, whichever way the batch is nested, and each entry of the batch stands in one of them. -/
namespace SeriesClient

namespace Orientation

/-- A cell's timestamp and path, for its list and its number in the list. -/
def place : Orientation → (outer inner : Nat) → Nat × Nat
  | row, outer, inner => (outer, inner)
  | column, outer, inner => (inner, outer)

theorem exists_place (way : Orientation) (time path : Nat) :
    ∃ outer inner, way.place outer inner = (time, path) := by
  cases way with
  | row => exact ⟨time, path, rfl⟩
  | column => exact ⟨path, time, rfl⟩

end Orientation

namespace Batch
open Wire

theorem mem_entries {batch : Batch} {entry : Entry} {time path : Nat}
    (timestamp : batch.timestamps[time]? = some entry.timestamp)
    (name : batch.paths[path]? = some entry.path)
    (declared : batch.types[path]? = some entry.dataType)
    (cell : batch.cell? time path = some entry.cell) : entry ∈ batch.entries := by
  have inside : (time, path) ∈ batch.places := by
    rw [places, List.mem_product, List.mem_range, List.mem_range]
    exact ⟨(List.getElem?_eq_some_iff.mp timestamp).1, (List.getElem?_eq_some_iff.mp name).1⟩
  exact List.mem_filterMap.mpr ⟨_, inside, by simp [entryAt?, timestamp, name, declared, cell]⟩

theorem mem_entries_of_entryAt? {batch : Batch} {place : Nat × Nat} {entry : Entry}
    (here : batch.entryAt? place = some entry) : entry ∈ batch.entries := by
  have found := here
  simp only [entryAt?, Option.bind_eq_some_iff, Option.map_eq_some_iff] at found
  obtain ⟨timestamp, timed, name, named, declared, typed, cell, stands, rfl⟩ := found
  exact mem_entries timed named typed stands

/-- The cells of a batch as they are written. -/
def encodeCells (batch : Batch) : Except Error (List Encoded) := match batch.orientation with
  | .row => encodeRows batch.types 0 batch.values
  | .column => encodeColumns 0 (batch.values.zip batch.types)

theorem encodeSorted_eq (batch : Batch) (options : WriteOptions) :
    batch.encodeSorted options = batch.encodeCells.map fun encoded => {
      kind := .of batch.orientation options.aligned
      paths := batch.paths
      timestamps := encodeTimestamps batch.timestamps
      values := encoded.map Encoded.values
      bitmaps := encoded.map fun e => e.mask.bytes
      types := batch.types } := by
  obtain ⟨orientation, paths, types, timestamps, values⟩ := batch
  cases orientation with
  | row =>
    simp only [encodeSorted, encodeCells]
    cases encodeRows types 0 values <;> rfl
  | column =>
    simp only [encodeSorted, encodeCells]
    cases encodeColumns 0 (values.zip types) <;> rfl

theorem encodeSorted_eq_ok {batch : Batch} {options : WriteOptions} {insert : Insert}
    (done : batch.encodeSorted options = .ok insert) :
    (∃ encoded, batch.encodeCells = .ok encoded ∧ insert.values = encoded.map Encoded.values ∧
      insert.bitmaps = encoded.map fun e => e.mask.bytes) ∧ insert.paths = batch.paths ∧
      insert.types = batch.types ∧ insert.timestamps = encodeTimestamps batch.timestamps := by
  rw [encodeSorted_eq] at done
  cases written : batch.encodeCells with
  | error e =>
    rw [written] at done
    cases done
  | ok encoded =>
    rw [written] at done
    cases done
    exact ⟨⟨encoded, rfl, rfl, rfl⟩, rfl, rfl, rfl⟩

/-- The lists of cells that are sent, every cell with its type. -/
def sent (batch : Batch) : List (List (Cell × DataType)) := match batch.orientation with
  | .row => batch.values.map (·.zip batch.types)
  | .column => (batch.values.zip batch.types).map fun source => source.1.map (·, source.2)

/-- Encodes each list by its number. -/
def encodeEach (encode : Nat → List (Cell × DataType) → Except Error Encoded) (index : Nat) :
    List (List (Cell × DataType)) → Except Error (List Encoded)
  | [] => .ok []
  | cells :: lists => do
    let first ← encode index cells
    let rest ← encodeEach encode (index + 1) lists
    .ok (first :: rest)

/-- Encodes the cells of the list with this number. -/
def send (way : Orientation) (outer : Nat) (cells : List (Cell × DataType)) :
    Except Error Encoded :=
  encodeFrom (fun inner => .cell (way.place outer inner).1 (way.place outer inner).2) 0
    (.empty cells.length) cells

section Lists
variable {lists : List (List (Cell × DataType))} {index : Nat} {encoded : List Encoded}

theorem length_of_encodeEach
    {encode : Nat → List (Cell × DataType) → Except Error Encoded}
    (done : encodeEach encode index lists = .ok encoded) : encoded.length = lists.length := by
  induction lists generalizing index encoded with
  | nil =>
    cases done
    rfl
  | cons cells lists ih =>
    obtain ⟨first, -, rest⟩ := exists_of_bind_eq_ok done
    obtain ⟨rest, others, same⟩ := exists_of_bind_eq_ok rest
    cases same
    exact congrArg (· + 1) (ih others)

/-- No cells are sent but those that can be encoded. -/
theorem encodable_of_encodeEach {way : Orientation}
    (done : encodeEach (send way) index lists = .ok encoded) :
    ∀ cells ∈ lists, ∀ cell ∈ cells, CellEncodable cell := by
  induction lists generalizing index encoded with
  | nil => simp
  | cons cells lists ih =>
    obtain ⟨first, written, rest⟩ := exists_of_bind_eq_ok done
    obtain ⟨rest, others, -⟩ := exists_of_bind_eq_ok rest
    exact List.forall_mem_cons.mpr ⟨encodable_of_encodeFrom written, ih others⟩

end Lists

theorem encodeRows_eq {types : List DataType} {rows : List Row}
    (wide : ∀ cells ∈ rows, cells.length = types.length) (row : Nat) :
    encodeRows types row rows = encodeEach (send .row) row (rows.map (·.zip types)) := by
  induction rows generalizing row with
  | nil => rfl
  | cons cells rows ih =>
    obtain ⟨width, others⟩ := List.forall_mem_cons.mp wide
    have count : (cells.zip types).length = cells.length := by simp [width]
    rw [encodeRows, List.map_cons, encodeEach, ih others, encodeRowAt,
      if_neg (not_not_intro width), send, count]
    rfl

theorem encodeColumns_eq (columns : List (Row × DataType)) (column : Nat) :
    encodeColumns column columns = encodeEach (send .column) column
      (columns.map fun source => source.1.map (·, source.2)) := by
  induction columns generalizing column with
  | nil => rfl
  | cons source columns ih =>
    rw [encodeColumns, List.map_cons, encodeEach, ih, encodeColumnAt, send, List.length_map]
    rfl

section Shaped
variable {batch : Batch}

theorem encodeCells_eq_sent (shaped : batch.WellShaped) :
    batch.encodeCells = encodeEach (send batch.orientation) 0 batch.sent := by
  have inner := shaped.inner
  rw [encodeCells, sent]
  cases oriented : batch.orientation with
  | row =>
    simp only [oriented, Orientation.inner, extent, shaped.declared] at inner
    exact encodeRows_eq inner 0
  | column => exact encodeColumns_eq _ 0

theorem length_sent (shaped : batch.WellShaped) :
    batch.sent.length = batch.extent batch.orientation.outer := by
  have outer := shaped.outer
  rw [sent]
  cases oriented : batch.orientation with
  | row =>
    rw [oriented] at outer
    exact (List.length_map _).trans outer
  | column =>
    simp only [oriented, Orientation.outer, extent] at outer ⊢
    simp [outer, shaped.declared]

/-- Every entry of the batch is sent, at its place. -/
theorem getElem?_sent (shaped : batch.WellShaped) (outer inner : Nat) :
    batch.sent[outer]?.bind (·[inner]?) =
      (batch.entryAt? (batch.orientation.place outer inner)).map fun entry =>
        (entry.cell, entry.dataType) := by
  have outer_eq := shaped.outer
  have inner_eq := shaped.inner
  have declared := shaped.declared
  rw [sent]
  simp only [entryAt?, cell?]
  cases oriented : batch.orientation with
  | row =>
    simp only [oriented, Orientation.outer, Orientation.inner, extent] at outer_eq inner_eq
    simp only [Orientation.place, List.getElem?_map]
    by_cases listed : outer < batch.values.length
    · have width := inner_eq _ (List.getElem_mem listed)
      by_cases inside : inner < batch.paths.length
      · simp [listed, inside, width, outer_eq ▸ listed, declared ▸ inside]
      · simp [listed, inside, width, outer_eq ▸ listed]
    · simp [listed]
  | column =>
    simp only [oriented, Orientation.outer, Orientation.inner, extent] at outer_eq inner_eq
    simp only [Orientation.place, List.getElem?_map]
    by_cases listed : outer < batch.values.length
    · have width := inner_eq _ (List.getElem_mem listed)
      have named := outer_eq ▸ listed
      by_cases inside : inner < batch.timestamps.length
      · simp [listed, inside, width, named, declared ▸ named]
      · simp [listed, inside, width, declared ▸ named]
    · have outside := declared ▸ outer_eq ▸ listed
      simp [listed, outside]

theorem entry_of_sent (shaped : batch.WellShaped) {outer inner : Nat}
    {cells : List (Cell × DataType)} {cell : Cell × DataType}
    (listed : batch.sent[outer]? = some cells) (here : cells[inner]? = some cell) :
    ∃ entry, batch.entryAt? (batch.orientation.place outer inner) = some entry ∧
      cell = (entry.cell, entry.dataType) := by
  have found := getElem?_sent shaped outer inner
  rw [listed, Option.bind_some, here, eq_comm, Option.map_eq_some_iff] at found
  obtain ⟨entry, stands, same⟩ := found
  exact ⟨entry, stands, same.symm⟩

end Shaped
end Batch
end SeriesClient
