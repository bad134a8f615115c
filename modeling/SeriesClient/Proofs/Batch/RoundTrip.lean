import SeriesClient.Proofs.Batch.Sent
import SeriesClient.Proofs.Batch.Sorted
import SeriesClient.Proofs.Table.Assembly
import SeriesClient.Proofs.Wire.Layout
import SeriesClient.Statement

/-! An insert request holds the whole sorted batch: reading its buffers back gives the timestamps,
paths, types and cells, whichever way the batch is nested. -/
namespace SeriesClient
open Wire

namespace Batch

/-- Every present value has the type of its path, and no text is too long for its length. -/
def WellTyped (batch : Batch) : Prop :=
  ∀ entry ∈ batch.entries, CellEncodable (entry.cell, entry.dataType)

instance (batch : Batch) : Decidable batch.WellTyped :=
  inferInstanceAs (Decidable (∀ entry ∈ batch.entries, _))

def table (batch : Batch) : Table where
  paths := batch.paths
  types := batch.types
  timestamps := batch.timestamps
  rows := batch.values

theorem WellTyped.cell {batch : Batch} (typed : batch.WellTyped) (shaped : batch.WellShaped)
    {time path : Nat} {cell : Cell} {declared : DataType} (early : time < batch.timestamps.length)
    (named : batch.types[path]? = some declared) (found : batch.cell? time path = some cell) :
    CellEncodable (cell, declared) := by
  have left : path < batch.paths.length :=
    shaped.declared ▸ (List.getElem?_eq_some_iff.mp named).1
  exact typed ⟨batch.timestamps[time], batch.paths[path], declared, cell⟩
    (mem_entries (List.getElem?_eq_getElem early) (List.getElem?_eq_getElem left) named found)

theorem WellTyped.rows {batch : Batch} (typed : batch.WellTyped) (shaped : batch.WellShaped)
    (oriented : batch.orientation = .row) : ∀ cells ∈ batch.values,
      cells.length = batch.types.length ∧ ∀ cell ∈ cells.zip batch.types, CellEncodable cell := by
  have outer := shaped.outer
  have inner := shaped.inner
  simp only [oriented, Orientation.outer, Orientation.inner, extent] at outer inner
  intro cells member
  refine ⟨(inner cells member).trans shaped.declared, ?_⟩
  rintro ⟨cell, declared⟩ inside
  obtain ⟨time, here⟩ := List.mem_iff_getElem?.mp member
  obtain ⟨path, there⟩ := List.mem_iff_getElem?.mp inside
  obtain ⟨there, named⟩ := List.getElem?_zip_eq_some.mp there
  have early := outer ▸ (List.getElem?_eq_some_iff.mp here).1
  exact typed.cell shaped early named (by simp [cell?, oriented, here, there])

theorem WellTyped.columns {batch : Batch} (typed : batch.WellTyped) (shaped : batch.WellShaped)
    (oriented : batch.orientation = .column) : ∀ column ∈ batch.values.zip batch.types,
      ∀ cell ∈ column.1, CellEncodable (cell, column.2) := by
  have inner := shaped.inner
  simp only [oriented, Orientation.inner, extent] at inner
  rintro ⟨cells, declared⟩ member cell inside
  obtain ⟨path, here⟩ := List.mem_iff_getElem?.mp member
  obtain ⟨here, named⟩ := List.getElem?_zip_eq_some.mp here
  obtain ⟨time, there⟩ := List.mem_iff_getElem?.mp inside
  have early := inner cells (List.mem_of_getElem? here) ▸ (List.getElem?_eq_some_iff.mp there).1
  exact typed.cell shaped early named (by simp [cell?, oriented, here, there])

theorem encodeRows_readBack {types : List DataType} {rows : List Row}
    (encodable : ∀ cells ∈ rows,
      cells.length = types.length ∧ ∀ cell ∈ cells.zip types, CellEncodable cell)
    (row place : Nat) : ∃ encoded, encodeRows types row rows = .ok encoded ∧
      encoded.length = rows.length ∧
      Table.decodeRows types place (encoded.map fun e => (e.values, e.mask.bytes)) = .ok rows := by
  induction rows generalizing row place with
  | nil => exact ⟨[], rfl, rfl, rfl⟩
  | cons cells rows ih =>
    obtain ⟨⟨width, head⟩, tail⟩ := List.forall_mem_cons.mp encodable
    obtain ⟨first, written, -⟩ := encodeRowAt_packs width head row
    have read := (lays_of_encodeRowAt written).readBack
    rw [width] at read
    obtain ⟨rest, writtenRest, count, readRest⟩ := ih tail (row + 1) (place + 1)
    refine ⟨first :: rest, ?_, congrArg (· + 1) count, ?_⟩
    · rw [encodeRows, written, writtenRest]
      rfl
    · rw [List.map_cons, Table.decodeRows, read, readRest]
      rfl

theorem encodeColumns_readBack {columns : List (Row × DataType)}
    (encodable : ∀ column ∈ columns, ∀ cell ∈ column.1, CellEncodable (cell, column.2))
    (column : Nat) : ∃ encoded, encodeColumns column columns = .ok encoded ∧
      List.Forall₂ (fun e source => decodeColumn e.values (.view source.1.length e.mask.bytes)
        source.2 = .ok source.1) encoded columns := by
  induction columns generalizing column with
  | nil => exact ⟨[], rfl, .nil⟩
  | cons source columns ih =>
    obtain ⟨cells, declared⟩ := source
    obtain ⟨head, tail⟩ := List.forall_mem_cons.mp encodable
    obtain ⟨first, written, -⟩ := encodeColumnAt_packs head column
    have read := (lays_of_encodeColumnAt written).readBack
    obtain ⟨rest, writtenRest, readRest⟩ := ih tail (column + 1)
    refine ⟨first :: rest, ?_, .cons read readRest⟩
    rw [encodeColumns, written, writtenRest]
    rfl

end Batch

namespace Insert

/-- An answer to a query that carries the buffers of the request. -/
def response (insert : Insert) (other : StatementResponse) : StatementResponse := { other with
  kind := .query
  paths := insert.paths
  tags := insert.tags
  timestamps := insert.timestamps
  values := insert.values
  bitmaps := insert.bitmaps }

/-- The buffers of the request, read as a server's answer would be, give the batch. -/
def ReadsBack (insert : Insert) (batch : Batch) : Prop :=
  insert.paths = batch.paths ∧ insert.types = batch.types ∧ match batch.orientation with
  | .row =>
    Table.assemble insert.paths insert.types insert.timestamps insert.values insert.bitmaps =
      .ok batch.table ∧
    ∀ other, (insert.response other).assemble =
      .ok ⟨other.parseError.filter (!·.isEmpty), .table batch.table⟩
  | .column =>
    decodeTimestamps insert.timestamps = .ok batch.timestamps ∧
    insert.values.length = batch.paths.length ∧ insert.bitmaps.length = batch.paths.length ∧
    ∀ path < batch.paths.length, ∃ values bitmap declared column,
      insert.values[path]? = some values ∧ insert.bitmaps[path]? = some bitmap ∧
      insert.types[path]? = some declared ∧ batch.values[path]? = some column ∧
      decodeColumn values (.view batch.timestamps.length bitmap) declared = .ok column

theorem assemble_response {insert : Insert} {table : Table}
    (assembled : Table.assemble insert.paths insert.types insert.timestamps insert.values
      insert.bitmaps = .ok table) (other : StatementResponse) :
    (insert.response other).assemble =
      .ok ⟨other.parseError.filter (!·.isEmpty), .table table⟩ := by
  have types := DataType.ofTags_tags insert.types
  have answered : (insert.response other).table = .ok table := by
    rw [StatementResponse.table, show (insert.response other).tags = insert.types.map DataType.tag
      from rfl, types]
    exact assembled
  rw [StatementResponse.assemble, StatementResponse.payload]
  simp only [show (insert.response other).kind = .query from rfl, answered]
  rfl

end Insert

namespace Batch

section Oriented
variable {batch : Batch}

theorem encodeSorted_row (shaped : batch.WellShaped) (typed : batch.WellTyped)
    (oriented : batch.orientation = .row) (options : WriteOptions) :
    ∃ insert, batch.encodeSorted options = .ok insert ∧
      insert.kind = .of batch.orientation options.aligned ∧ insert.ReadsBack batch := by
  have outer := shaped.outer
  have times := decodeTimestamps_encodeTimestamps batch.timestamps
  simp only [oriented, Orientation.outer, extent] at outer
  obtain ⟨encoded, written, count, read⟩ := encodeRows_readBack (typed.rows shaped oriented) 0 0
  have fits : batch.timestamps.length = (encoded.map Encoded.values).length := by
    rw [List.length_map, count, outer]
  have assembled : Table.assemble batch.paths batch.types (encodeTimestamps batch.timestamps)
      (encoded.map Encoded.values) (encoded.map fun e => e.mask.bytes) = .ok batch.table := by
    rw [Table.assemble_eq shaped.declared (by simp) times (Or.inr fits), List.zip_map', read]
    rfl
  refine ⟨_, by rw [encodeSorted, oriented, written]; rfl, by rw [oriented], rfl, rfl, ?_⟩
  rw [oriented]
  exact ⟨assembled, fun other => Insert.assemble_response assembled other⟩

theorem encodeSorted_column (shaped : batch.WellShaped) (typed : batch.WellTyped)
    (oriented : batch.orientation = .column) (options : WriteOptions) :
    ∃ insert, batch.encodeSorted options = .ok insert ∧
      insert.kind = .of batch.orientation options.aligned ∧ insert.ReadsBack batch := by
  have outer := shaped.outer
  have inner := shaped.inner
  have times := decodeTimestamps_encodeTimestamps batch.timestamps
  simp only [oriented, Orientation.outer, Orientation.inner, extent] at outer inner
  obtain ⟨encoded, written, read⟩ := encodeColumns_readBack (typed.columns shaped oriented) 0
  have count := read.length_eq
  rw [List.length_zip, outer, shaped.declared, Nat.min_self] at count
  refine ⟨_, by rw [encodeSorted, oriented, written]; rfl, by rw [oriented], rfl, rfl, ?_⟩
  rw [oriented]
  refine ⟨times, ?_, ?_, ?_⟩
  · rw [List.length_map, count, shaped.declared]
  · rw [List.length_map, count, shaped.declared]
  · intro path left
    have coded : path < encoded.length := count ▸ shaped.declared ▸ left
    have named : path < batch.types.length := shaped.declared ▸ left
    have listed : path < batch.values.length := outer ▸ left
    have decoded := read.get coded (by rw [List.length_zip]; omega)
    simp only [List.get_eq_getElem, List.getElem_zip] at decoded
    rw [inner _ (List.getElem_mem listed)] at decoded
    exact ⟨_, _, _, _, by simp [coded], by simp [coded], List.getElem?_eq_getElem named,
      List.getElem?_eq_getElem listed, decoded⟩

theorem encodeSorted_readsBack (shaped : batch.WellShaped) (typed : batch.WellTyped)
    (options : WriteOptions) : ∃ insert, batch.encodeSorted options = .ok insert ∧
      insert.kind = .of batch.orientation options.aligned ∧ insert.ReadsBack batch := by
  cases oriented : batch.orientation with
  | row => exact oriented ▸ encodeSorted_row shaped typed oriented options
  | column => exact oriented ▸ encodeSorted_column shaped typed oriented options

end Oriented

theorem wellTyped_of_encodeSorted {batch : Batch} (shaped : batch.WellShaped)
    {options : WriteOptions} {insert : Insert} (done : batch.encodeSorted options = .ok insert) :
    batch.WellTyped := by
  intro entry member
  obtain ⟨⟨time, path⟩, -, here⟩ := List.mem_filterMap.mp member
  obtain ⟨outer, inner, stands⟩ := batch.orientation.exists_place time path
  have found := getElem?_sent shaped outer inner
  rw [stands, here] at found
  obtain ⟨cells, listed, there⟩ := Option.bind_eq_some_iff.mp found
  obtain ⟨⟨encoded, written, -⟩, -⟩ := encodeSorted_eq_ok done
  rw [encodeCells_eq_sent shaped] at written
  exact encodable_of_encodeEach written cells (List.mem_of_getElem? listed) _
    (List.mem_of_getElem? there)

theorem encodeSorted_ok_iff {batch : Batch} (shaped : batch.WellShaped)
    (options : WriteOptions) :
    (∃ insert, batch.encodeSorted options = .ok insert) ↔ batch.WellTyped := by
  constructor
  · rintro ⟨insert, done⟩
    exact wellTyped_of_encodeSorted shaped done
  · intro typed
    obtain ⟨insert, done, -⟩ := encodeSorted_readsBack shaped typed options
    exact ⟨insert, done⟩

/-- A batch of sound shape whose values fit their types is encoded, and the request reads back as
the sorted batch, bit for bit. -/
theorem encode_readsBack (batch : Batch) (options : WriteOptions) (sound : batch.fault? = none)
    (typed : batch.WellTyped) :
    ∃ insert after, batch.encode options = .ok insert ∧ batch.sorted = .ok after ∧
      insert.kind = .of batch.orientation options.aligned ∧ insert.ReadsBack after := by
  have shaped := (fault?_eq_none_iff batch).mp sound
  obtain ⟨after, sorted⟩ : ∃ after, batch.sorted = .ok after := ⟨_, sorted_eq_rearranged shaped⟩
  obtain ⟨moved, again, _⟩ := sorted_rearranges sorted
  have same := sorted_entries sorted
  have retyped : after.WellTyped := fun entry member => typed entry (same.mem_iff.mp member)
  obtain ⟨insert, encoded, kind, reads⟩ := encodeSorted_readsBack again retyped options
  refine ⟨insert, after, ?_, sorted, kind.trans (by rw [moved.orientation]), reads⟩
  rw [encode, sorted]
  exact encoded

theorem encode_tied_readsBack : tied.fault? = none ∧ tied.WellTyped ∧
    ∃ insert after, tied.encode {} = .ok insert ∧ tied.sorted = .ok after ∧
      insert.kind = .column ∧ insert.ReadsBack after :=
  ⟨by decide, by decide, encode_readsBack tied {} (by decide) (by decide)⟩

end Batch
end SeriesClient
