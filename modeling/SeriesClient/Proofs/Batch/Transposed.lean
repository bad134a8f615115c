import Mathlib
import SeriesClient.Proofs.Batch.RoundTrip
import SeriesClient.Proofs.Table.Acceptance

/-! The two ways to nest a batch carry the same data. Turning the lists of cells into those of the
other way commutes with sorting, and what is encoded of either is decoded as the same cells. -/
namespace SeriesClient
open Wire

/-- The other way to nest. -/
def Orientation.other : Orientation → Orientation
  | row => column
  | column => row

/-- The columns of a grid, `width` of them, each from the first row to the last. -/
def transpose (width : Nat) (grid : List Row) : List Row :=
  (List.range width).map fun j => grid.map fun cells => cells[j]?.join

theorem length_transpose (width : Nat) (grid : List Row) :
    (transpose width grid).length = width := by
  simp [transpose]

theorem length_of_mem_transpose {width : Nat} {grid : List Row} {cells : Row}
    (member : cells ∈ transpose width grid) : cells.length = grid.length := by
  obtain ⟨j, -, rfl⟩ := List.mem_map.mp member
  exact List.length_map _

/-- A full grid has each of its cells at the turned place. -/
theorem getElem?_transpose {width : Nat} {grid : List Row}
    (full : ∀ cells ∈ grid, cells.length = width) (i j : Nat) :
    (transpose width grid)[j]?.bind (·[i]?) = grid[i]?.bind (·[j]?) := by
  cases listed : grid[i]? with
  | none =>
    have outside : grid.length ≤ i := List.getElem?_eq_none_iff.mp listed
    rw [Option.bind_none, Option.bind_eq_none_iff]
    intro cells member
    apply List.getElem?_eq_none
    rw [length_of_mem_transpose (List.mem_of_getElem? member)]
    exact outside
  | some cells =>
    have wide := full cells (List.mem_of_getElem? listed)
    by_cases left : j < width
    · simp [transpose, left, listed, wide]
    · simp [transpose, left, wide]

/-- A full grid is known by its cells. -/
theorem eq_of_cells {height width : Nat} {first second : List Row}
    (tall : first.length = height) (tall' : second.length = height)
    (wide : ∀ cells ∈ first, cells.length = width) (wide' : ∀ cells ∈ second, cells.length = width)
    (same : ∀ i j : Nat, first[i]?.bind (·[j]?) = second[i]?.bind (·[j]?)) : first = second := by
  apply List.ext_getElem (tall.trans tall'.symm)
  intro i left right
  have width := wide _ (List.getElem_mem left)
  have width' := wide' _ (List.getElem_mem right)
  apply List.ext_getElem (width.trans width'.symm)
  intro j here there
  have cell := same i j
  simpa [left, right, here, there] using cell

namespace Batch

/-- The batch nested the other way. -/
def transposed (batch : Batch) : Batch := { batch with
  orientation := batch.orientation.other
  values := transpose (batch.extent batch.orientation.inner) batch.values }

section Shaped
variable {batch : Batch}

theorem cell?_transposed (shaped : batch.WellShaped) (time path : Nat) :
    batch.transposed.cell? time path = batch.cell? time path := by
  have full := shaped.inner
  rw [cell?, cell?, transposed]
  cases oriented : batch.orientation with
  | row =>
    rw [oriented] at full
    exact getElem?_transpose full time path
  | column =>
    rw [oriented] at full
    exact getElem?_transpose full path time

theorem transposed_wellShaped (shaped : batch.WellShaped) : batch.transposed.WellShaped := by
  have outer := shaped.outer
  have extent_pos (axis : Axis) : 0 < batch.extent axis := by
    cases axis with
    | timestamps => exact List.length_pos_iff.mpr shaped.timestamps
    | paths => exact List.length_pos_iff.mpr shaped.paths
  constructor
  case paths => exact shaped.paths
  case types => exact shaped.types
  case timestamps => exact shaped.timestamps
  case declared => exact shaped.declared
  case values =>
    apply List.ne_nil_of_length_pos
    rw [transposed, length_transpose]
    exact extent_pos _
  case outer =>
    rw [transposed, length_transpose]
    cases batch.orientation <;> rfl
  case inner =>
    intro cells member
    rw [length_of_mem_transpose member, outer, transposed]
    cases batch.orientation <;> rfl

/-- Batches of full shape with the same heads and the same cells are the same. -/
theorem eq_of_cell? {other : Batch} (shaped : batch.WellShaped) (shaped' : other.WellShaped)
    (orientation : batch.orientation = other.orientation) (paths : batch.paths = other.paths)
    (types : batch.types = other.types) (timestamps : batch.timestamps = other.timestamps)
    (cells : ∀ time path, batch.cell? time path = other.cell? time path) : batch = other := by
  have outer := shaped.outer
  have outer' := shaped'.outer
  have inner := shaped.inner
  have inner' := shaped'.inner
  obtain ⟨way, _, _, _, values⟩ := batch
  obtain ⟨_, _, _, _, values'⟩ := other
  dsimp only at orientation paths types timestamps
  subst orientation paths types timestamps
  congr 1
  cases way with
  | row => exact eq_of_cells outer outer' inner inner' cells
  | column => exact eq_of_cells outer outer' inner inner' fun path time => cells time path

theorem entries_transposed (shaped : batch.WellShaped) :
    batch.transposed.entries = batch.entries := by
  have same : batch.transposed.entryAt? = batch.entryAt? := by
    funext place
    simp only [entryAt?, cell?_transposed shaped]
    rfl
  rw [entries, same]
  rfl

theorem wellTyped_transposed_iff (shaped : batch.WellShaped) :
    batch.transposed.WellTyped ↔ batch.WellTyped := by
  rw [WellTyped, WellTyped, entries_transposed shaped]

theorem transposed_rearranged (shaped : batch.WellShaped) {times paths : List Nat}
    (early : ∀ t ∈ times, t < batch.timestamps.length)
    (left : ∀ p ∈ paths, p < batch.paths.length)
    (timeCount : times.length = batch.timestamps.length)
    (pathCount : paths.length = batch.paths.length) :
    batch.transposed.rearranged times paths = (batch.rearranged times paths).transposed := by
  have turned := transposed_wellShaped shaped
  have moved := rearranged_wellShaped shaped early left timeCount pathCount
  apply eq_of_cell? (rearranged_wellShaped turned early left timeCount pathCount)
    (transposed_wellShaped moved) rfl rfl rfl rfl
  intro time path
  rw [(rearranged_rearranges turned early left).cell, cell?_transposed moved,
    (rearranged_rearranges shaped early left).cell]
  simp only [cell?_transposed shaped]

theorem sorted_transposed (shaped : batch.WellShaped) : ∃ after, batch.sorted = .ok after ∧
    after.WellShaped ∧ batch.transposed.sorted = .ok after.transposed := by
  have early := (byTime_sorts batch).bounded
  have left := (byPath_sorts batch).bounded
  have moved := transposed_rearranged shaped early left (size_byTime batch) (size_byPath batch)
  refine ⟨_, sorted_eq_rearranged shaped, ?_, ?_⟩
  · exact rearranged_wellShaped shaped early left (size_byTime batch) (size_byPath batch)
  · rw [sorted_eq_rearranged (transposed_wellShaped shaped), ← moved]
    rfl

theorem readsBack_of_encodeSorted (shaped : batch.WellShaped) {options : WriteOptions}
    {insert : Insert} (done : batch.encodeSorted options = .ok insert) :
    insert.ReadsBack batch := by
  obtain ⟨same, again, -, reads⟩ :=
    encodeSorted_readsBack shaped (wellTyped_of_encodeSorted shaped done) options
  cases again.symm.trans done
  exact reads

end Shaped
end Batch

theorem mapM_eq_ok {α β ε : Type} {f : α → Except ε β} {items : List α} {results : List β}
    (each : items.map f = results.map .ok) : items.mapM f = .ok results := by
  induction items generalizing results with
  | nil =>
    obtain rfl := List.map_eq_nil_iff.mp each.symm
    rfl
  | cons item items ih =>
    cases results with
    | nil => cases each
    | cons result results =>
      obtain ⟨first, rest⟩ := List.cons.inj each
      rw [List.mapM_cons, first, ih rest]
      rfl

namespace Insert

/-- The cells of a request, decoded row by row. -/
def readRows (insert : Insert) : Except Error (List Row) :=
  (insert.values.zip insert.bitmaps).mapM (readRow insert.types)

/-- The cells of a request, decoded column by column; a column is as long as the timestamps. -/
def readColumns (insert : Insert) : Except Error (List Row) := do
  let timestamps ← decodeTimestamps insert.timestamps
  ((insert.values.zip insert.bitmaps).zip insert.types).mapM fun ((values, bitmap), declared) =>
    decodeColumn values (.view timestamps.length bitmap) declared

theorem ReadsBack.rows {insert : Insert} {batch : Batch} (reads : insert.ReadsBack batch)
    (oriented : batch.orientation = .row) : insert.readRows = .ok batch.values := by
  obtain ⟨-, -, reads⟩ := reads
  rw [oriented] at reads
  obtain ⟨-, -, -, -, rows, read, same⟩ := Table.assemble_eq_ok reads.1
  obtain rfl : batch.values = rows := congrArg Table.rows same
  exact mapM_eq_ok read

theorem ReadsBack.columns {insert : Insert} {batch : Batch} (reads : insert.ReadsBack batch)
    (shaped : batch.WellShaped) (oriented : batch.orientation = .column) :
    insert.readColumns = .ok batch.values := by
  obtain ⟨-, types, reads⟩ := reads
  have outer := shaped.outer
  rw [oriented] at reads outer
  obtain ⟨timestamps, valueCount, bitmapCount, each⟩ := reads
  rw [readColumns, timestamps]
  apply mapM_eq_ok
  apply List.ext_getElem
  · simp [valueCount, bitmapCount, types, outer, Orientation.outer, Batch.extent, shaped.declared]
  · intro path left right
    simp only [List.length_map, List.length_zip, valueCount, bitmapCount, Nat.min_self] at left
    obtain ⟨values, bitmap, declared, column, valued, masked, typed, listed, decoded⟩ :=
      each path (Nat.lt_of_lt_of_le left (Nat.min_le_left ..))
    obtain ⟨_, rfl⟩ := List.getElem?_eq_some_iff.mp valued
    obtain ⟨_, rfl⟩ := List.getElem?_eq_some_iff.mp masked
    obtain ⟨_, rfl⟩ := List.getElem?_eq_some_iff.mp typed
    obtain ⟨_, rfl⟩ := List.getElem?_eq_some_iff.mp listed
    simpa using decoded

end Insert

namespace Batch

/-- A batch of rows and its columns are sorted alike, and either can be encoded if the other can.
Both requests have the paths, types and timestamps of the sorted batch; what is decoded of the one
are its rows, and of the other these rows, turned. -/
theorem encode_transposed (batch : Batch) (shaped : batch.WellShaped)
    (oriented : batch.orientation = .row) (options other : WriteOptions) :
    ∃ after, batch.sorted = .ok after ∧ batch.transposed.sorted = .ok after.transposed ∧
    ((∃ rows, batch.encode options = .ok rows) ↔
      ∃ columns, batch.transposed.encode other = .ok columns) ∧
    ∀ rows columns, batch.encode options = .ok rows →
      batch.transposed.encode other = .ok columns →
      rows.paths = after.paths ∧ columns.paths = rows.paths ∧
      rows.types = after.types ∧ columns.types = rows.types ∧
      rows.timestamps = encodeTimestamps after.timestamps ∧
      columns.timestamps = rows.timestamps ∧
      rows.readRows = .ok after.values ∧
      columns.readColumns = .ok (transpose after.paths.length after.values) := by
  obtain ⟨after, sorted, again, turned⟩ := sorted_transposed shaped
  have way : after.orientation = .row := (sorted_rearranges sorted).1.orientation.trans oriented
  have encoded : batch.encode options = after.encodeSorted options := by
    rw [encode, sorted]
    rfl
  have encoded' : batch.transposed.encode other = after.transposed.encodeSorted other := by
    rw [encode, turned]
    rfl
  refine ⟨after, sorted, turned, ?_, ?_⟩
  · rw [encoded, encoded', encodeSorted_ok_iff again,
      encodeSorted_ok_iff (transposed_wellShaped again), wellTyped_transposed_iff again]
  rw [encoded, encoded']
  intro rows columns done done'
  obtain ⟨-, paths, types, timestamps⟩ := encodeSorted_eq_ok done
  obtain ⟨-, paths', types', timestamps'⟩ := encodeSorted_eq_ok done'
  have reads := (readsBack_of_encodeSorted again done).rows way
  have turnedWay : after.transposed.orientation = .column := by
    rw [transposed, way]
    rfl
  have reads' := (readsBack_of_encodeSorted (transposed_wellShaped again) done').columns
    (transposed_wellShaped again) turnedWay
  refine ⟨paths, paths'.trans paths.symm, types, types'.trans types.symm, timestamps,
    timestamps'.trans timestamps.symm, reads, reads'.trans ?_⟩
  rw [transposed, way]
  rfl

/-- Rows with equal timestamps and equal paths, an absent cell and a number that is none. -/
def mingled : Batch where
  orientation := .row
  paths := ["b", "a", "b"]
  types := [.long, .double, .boolean]
  timestamps := [7, 3, 7, 3]
  values := [[some (.long 1), some (.double ⟨0x7ff0000000000001⟩), none],
    [none, none, some (.boolean true)],
    [some (.long 2), none, some (.boolean false)],
    [some (.long 3), some (.double ⟨0⟩), none]]

theorem encode_mingled_transposed : mingled.WellShaped ∧
    ∃ rows columns, mingled.encode {} = .ok rows ∧
      mingled.transposed.encode ⟨false⟩ = .ok columns ∧ rows.paths = ["a", "b", "b"] ∧
      rows.timestamps = encodeTimestamps [3, 3, 7, 7] ∧ columns.timestamps = rows.timestamps ∧
      rows.readRows = .ok [[none, none, some (.boolean true)],
        [some (.double ⟨0⟩), some (.long 3), none],
        [some (.double ⟨0x7ff0000000000001⟩), some (.long 1), none],
        [none, some (.long 2), some (.boolean false)]] ∧
      columns.readColumns = .ok [
        [none, some (.double ⟨0⟩), some (.double ⟨0x7ff0000000000001⟩), none],
        [none, some (.long 3), some (.long 1), some (.long 2)],
        [some (.boolean true), none, none, some (.boolean false)]] := by
  have shaped : mingled.WellShaped :=
    ⟨by decide, by decide, by decide, by decide, rfl, rfl, by decide⟩
  obtain ⟨after, sorted, -, both, same⟩ := encode_transposed mingled shaped rfl {} ⟨false⟩
  have known : mingled.sorted = .ok ⟨.row, ["a", "b", "b"], [.double, .long, .boolean],
      [3, 3, 7, 7], [[none, none, some (.boolean true)],
        [some (.double ⟨0⟩), some (.long 3), none],
        [some (.double ⟨0x7ff0000000000001⟩), some (.long 1), none],
        [none, some (.long 2), some (.boolean false)]]⟩ := by cbv
  obtain rfl := Except.ok.inj (sorted.symm.trans known)
  obtain ⟨_, sorted', again, -⟩ := sorted_transposed shaped
  obtain rfl := Except.ok.inj (sorted'.symm.trans known)
  obtain ⟨rows, done⟩ : ∃ rows, mingled.encode {} = .ok rows := by
    rw [encode, sorted]
    exact (encodeSorted_ok_iff again {}).mpr (by decide)
  obtain ⟨columns, done'⟩ := both.mp ⟨rows, done⟩
  obtain ⟨paths, -, -, -, timestamps, timestamps', reads, reads'⟩ := same rows columns done done'
  exact ⟨shaped, rows, columns, done, done', paths, timestamps, timestamps', reads, reads'⟩

end Batch
end SeriesClient
