import Mathlib
import SeriesClient.Proofs.Batch.RoundTrip

/-! A batch is refused for the first of its values that has another type than its path. First is
meant as values are sent, list after list of the sorted batch, and the value is named by its
timestamp and its path there, whichever way the lists are nested. -/
namespace SeriesClient
namespace Wire

/-- No value of another type stands in the cell. -/
def Fits (cell : Cell × DataType) : Prop := ∀ value ∈ cell.1, value.dataType = cell.2

/-- No text is too long for its length. -/
def Short (cell : Cell) : Prop := ∀ value ∈ cell, textSize value ≤ maxTextBytes

instance (cell : Cell) : Decidable (Short cell) :=
  inferInstanceAs (Decidable (∀ value ∈ cell, _))

theorem cellEncodable_iff {cell : Cell × DataType} :
    CellEncodable cell ↔ Fits cell ∧ Short cell.1 := forall₂_and

/-- The first value of another type among cells that are sent one after the other. -/
structure FirstMisfit (cells : List (Cell × DataType)) (number : Nat) (declared : DataType)
    (value : Value) : Prop where
  here : cells[number]? = some (some value, declared)
  differs : value.dataType ≠ declared
  first : ∀ earlier < number, ∀ cell ∈ cells[earlier]?, Fits cell

theorem FirstMisfit.tail {cell : Cell × DataType} {cells : List (Cell × DataType)} {number : Nat}
    {declared : DataType} {value : Value}
    (misfit : FirstMisfit (cell :: cells) (number + 1) declared value) :
    Fits cell ∧ FirstMisfit cells number declared value := by
  refine ⟨misfit.first 0 (Nat.succ_pos _) cell rfl, misfit.here, misfit.differs, ?_⟩
  intro earlier early
  exact misfit.first (earlier + 1) (Nat.succ_lt_succ early)

/-- Cells are sent up to the first misfit, and it is named by its place. -/
theorem FirstMisfit.encodeFrom_eq {cells : List (Cell × DataType)} {number : Nat}
    {declared : DataType} {value : Value} (misfit : FirstMisfit cells number declared value)
    {mask : Mask} {index : Nat} (sized : mask.Sized) (room : index + cells.length ≤ mask.capacity)
    (short : ∀ cell ∈ cells, Short cell.1) (place : Nat → Location) :
    encodeFrom place index mask cells =
      .error (.typeMismatch (place (index + number)) declared value.dataType) := by
  induction cells generalizing mask index number with
  | nil => cases misfit.here
  | cons cell cells ih =>
    obtain ⟨shortHead, shortTail⟩ := List.forall_mem_cons.mp short
    rw [List.length_cons] at room
    have inside : index < mask.capacity := by omega
    have marks := Mask.mark_eq_marked inside (sized.byte inside)
    cases number with
    | zero =>
      cases misfit.here
      simp only [encodeFrom, marks, encodeValue_of_ne misfit.differs]
      rfl
    | succ number =>
      obtain ⟨fits, later⟩ := misfit.tail
      have next : index + (number + 1) = index + 1 + number := by omega
      obtain ⟨cell, expected⟩ := cell
      rw [next]
      cases cell with
      | none => exact ih later sized (by omega) shortTail
      | some found =>
        have encodable := cellEncodable_iff.mpr ⟨fits, shortHead⟩
        have bytes := encodeValue_eq_cellBytes (encodable found rfl)
        have onward := @ih number later (mask.marked index) (index + 1)
          (Mask.marked_sized sized index) (by rw [Mask.capacity_marked]; omega) shortTail
        simp only [encodeFrom, marks, bytes, onward]
        rfl

end Wire

namespace Orientation

/-- The order in which the cells of timestamps and paths are sent. -/
def Before : Orientation → Nat × Nat → Nat × Nat → Prop
  | row => Prod.Lex (· < ·) (· < ·)
  | column => InvImage (Prod.Lex (· < ·) (· < ·)) Prod.swap

theorem before_place_iff (way : Orientation) (outer inner outer' inner' : Nat) :
    way.Before (way.place outer inner) (way.place outer' inner') ↔
      outer < outer' ∨ outer = outer' ∧ inner < inner' := by
  cases way <;> simp [Before, place, InvImage, Prod.lex_def]

theorem before_wellFounded (way : Orientation) : WellFounded way.Before := by
  have lexical := WellFounded.prod_lex Nat.lt_wfRel.wf Nat.lt_wfRel.wf
  cases way with
  | row => exact lexical
  | column => exact InvImage.wf Prod.swap lexical

end Orientation

namespace Batch
open Permutation Wire

/-- The value that stands at the entry, if any, has the type of its path. -/
def Entry.Matches (entry : Entry) : Prop := Fits (entry.cell, entry.dataType)

/-- The first value, in the order in which the batch is sent, of another type than its path. -/
structure FirstMismatch (batch : Batch) (time path : Nat) (entry : Entry) (value : Value) :
    Prop where
  here : batch.entryAt? (time, path) = some entry
  present : entry.cell = some value
  differs : value.dataType ≠ entry.dataType
  first : ∀ place, batch.orientation.Before place (time, path) →
    ∀ earlier ∈ batch.entryAt? place, earlier.Matches

section Lists
variable {encode : Nat → List (Cell × DataType) → Except Error Encoded}
  {lists : List (List (Cell × DataType))}

/-- The first list that fails is the failure. -/
theorem encodeEach_eq_error {index number : Nat} {cells : List (Cell × DataType)} {e : Error}
    (here : lists[number]? = some cells) (failed : encode (index + number) cells = .error e)
    (before : ∀ earlier < number, ∀ cells ∈ lists[earlier]?,
      ∃ encoded, encode (index + earlier) cells = .ok encoded) :
    encodeEach encode index lists = .error e := by
  induction lists generalizing index number with
  | nil => cases here
  | cons head lists ih =>
    rw [encodeEach]
    cases number with
    | zero =>
      cases here
      rw [show encode index cells = .error e from failed]
      rfl
    | succ number =>
      have next (i : Nat) : index + (i + 1) = index + 1 + i := by omega
      obtain ⟨first, written⟩ := before 0 (Nat.succ_pos _) head rfl
      rw [next] at failed
      have onward := ih here failed fun earlier early cells listed =>
        next earlier ▸ before (earlier + 1) (Nat.succ_lt_succ early) cells listed
      rw [show encode index head = .ok first from written, onward]
      rfl

theorem send_eq_error {cells : List (Cell × DataType)} {inner : Nat} {declared : DataType}
    {value : Value} (misfit : FirstMisfit cells inner declared value)
    (short : ∀ cell ∈ cells, Short cell.1) (way : Orientation) (outer : Nat) :
    send way outer cells = .error (.typeMismatch
      (.cell (way.place outer inner).1 (way.place outer inner).2) declared value.dataType) := by
  have failed := misfit.encodeFrom_eq (Mask.empty_sized cells.length)
    (Nat.le_of_eq (Nat.zero_add _)) short
    fun inner => .cell (way.place outer inner).1 (way.place outer inner).2
  rwa [Nat.zero_add] at failed

theorem send_eq_ok {cells : List (Cell × DataType)}
    (encodable : ∀ cell ∈ cells, CellEncodable cell) (way : Orientation) (outer : Nat) :
    ∃ encoded, send way outer cells = .ok encoded := by
  obtain ⟨encoded, done, -⟩ := encodeFrom_empty encodable _
  exact ⟨encoded, done⟩

end Lists

section Shaped
variable {batch : Batch}

theorem short_of_sent (shaped : batch.WellShaped)
    (short : ∀ entry ∈ batch.entries, Short entry.cell) {outer : Nat}
    {cells : List (Cell × DataType)} (listed : batch.sent[outer]? = some cells) :
    ∀ cell ∈ cells, Short cell.1 := by
  intro cell member
  obtain ⟨inner, here⟩ := List.mem_iff_getElem?.mp member
  obtain ⟨entry, stands, rfl⟩ := entry_of_sent shaped listed here
  exact short entry (mem_entries_of_entryAt? stands)

/-- What is sent before the first mismatch fits. -/
theorem FirstMismatch.fits {time path : Nat} {entry : Entry} {value : Value}
    (mismatch : FirstMismatch batch time path entry value) (shaped : batch.WellShaped)
    {outer inner outer' inner' : Nat}
    (stands : batch.orientation.place outer inner = (time, path))
    (earlier : outer' < outer ∨ outer' = outer ∧ inner' < inner)
    {cells : List (Cell × DataType)} {cell : Cell × DataType}
    (listed : batch.sent[outer']? = some cells) (here : cells[inner']? = some cell) :
    Fits cell := by
  obtain ⟨other, there, rfl⟩ := entry_of_sent shaped listed here
  refine mismatch.first _ ?_ other there
  rw [← stands]
  exact (batch.orientation.before_place_iff _ _ _ _).mpr earlier

/-- A batch is refused for its first mismatch. -/
theorem FirstMismatch.encodeCells_eq {time path : Nat} {entry : Entry} {value : Value}
    (mismatch : FirstMismatch batch time path entry value) (shaped : batch.WellShaped)
    (short : ∀ entry ∈ batch.entries, Short entry.cell) :
    batch.encodeCells =
      .error (.typeMismatch (.cell time path) entry.dataType value.dataType) := by
  obtain ⟨outer, inner, stands⟩ := batch.orientation.exists_place time path
  have found := getElem?_sent shaped outer inner
  rw [stands, mismatch.here] at found
  obtain ⟨cells, listed, here⟩ := Option.bind_eq_some_iff.mp found
  have misfit : FirstMisfit cells inner entry.dataType value := by
    refine ⟨mismatch.present ▸ here, mismatch.differs, ?_⟩
    intro earlier early cell there
    exact mismatch.fits shaped stands (.inr ⟨rfl, early⟩) listed there
  have failed := send_eq_error misfit (short_of_sent shaped short listed) batch.orientation outer
  rw [stands] at failed
  rw [encodeCells_eq_sent shaped]
  refine encodeEach_eq_error listed ((Nat.zero_add outer).symm ▸ failed) ?_
  intro earlier early cells listed
  apply send_eq_ok
  intro cell member
  obtain ⟨inner', there⟩ := List.mem_iff_getElem?.mp member
  exact cellEncodable_iff.mpr ⟨mismatch.fits shaped stands (.inl early) listed there,
    short_of_sent shaped short listed cell member⟩

/-- A batch with a mismatch has a first one. -/
theorem exists_firstMismatch (mismatch : ¬ ∀ entry ∈ batch.entries, entry.Matches) :
    ∃ time path entry value, FirstMismatch batch time path entry value := by
  obtain ⟨entry, member, differs⟩ : ∃ entry ∈ batch.entries, ¬ entry.Matches := by
    simpa using mismatch
  obtain ⟨place, -, stands⟩ := List.mem_filterMap.mp member
  obtain ⟨⟨time, path⟩, ⟨entry, here, differs⟩, least⟩ :=
    batch.orientation.before_wellFounded.has_min
      {place | ∃ entry, batch.entryAt? place = some entry ∧ ¬ entry.Matches}
      ⟨place, entry, stands, differs⟩
  obtain ⟨value, present, differs⟩ : ∃ value ∈ entry.cell, value.dataType ≠ entry.dataType := by
    simpa [Entry.Matches, Fits] using differs
  refine ⟨time, path, entry, value, here, present, differs, ?_⟩
  intro place before earlier there
  by_contra misfit
  exact least place ⟨earlier, there, misfit⟩ before

theorem wellTyped_iff (short : ∀ entry ∈ batch.entries, Short entry.cell) :
    batch.WellTyped ↔ ∀ entry ∈ batch.entries, entry.Matches :=
  forall₂_congr fun entry member => cellEncodable_iff.trans (and_iff_left (short entry member))

theorem encodeSorted_eq_error_iff (shaped : batch.WellShaped)
    (short : ∀ entry ∈ batch.entries, Short entry.cell) {options : WriteOptions} {e : Error} :
    batch.encodeSorted options = .error e ↔ ∃ time path entry value,
      FirstMismatch batch time path entry value ∧
      e = .typeMismatch (.cell time path) entry.dataType value.dataType := by
  have refused {time path : Nat} {entry : Entry} {value : Value}
      (mismatch : FirstMismatch batch time path entry value) : batch.encodeSorted options =
        .error (.typeMismatch (.cell time path) entry.dataType value.dataType) := by
    rw [encodeSorted_eq, mismatch.encodeCells_eq shaped short]
    rfl
  constructor
  · intro failed
    have misfit : ¬ ∀ entry ∈ batch.entries, entry.Matches := by
      rw [← wellTyped_iff short, ← encodeSorted_ok_iff shaped options]
      rintro ⟨insert, done⟩
      cases failed.symm.trans done
    obtain ⟨time, path, entry, value, mismatch⟩ := exists_firstMismatch misfit
    have same := (refused mismatch).symm.trans failed
    exact ⟨time, path, entry, value, mismatch, (Except.error.inj same).symm⟩
  · rintro ⟨time, path, entry, value, mismatch, rfl⟩
    exact refused mismatch

/-- There is a buffer and a mask for each list. -/
theorem lengths_of_encodeSorted (shaped : batch.WellShaped) {options : WriteOptions}
    {insert : Insert} (done : batch.encodeSorted options = .ok insert) :
    insert.values.length = batch.extent batch.orientation.outer ∧
      insert.bitmaps.length = batch.extent batch.orientation.outer := by
  obtain ⟨⟨encoded, written, values, bitmaps⟩, -⟩ := encodeSorted_eq_ok done
  rw [encodeCells_eq_sent shaped] at written
  have count := (length_of_encodeEach written).trans (length_sent shaped)
  rw [values, bitmaps, List.length_map, List.length_map]
  exact ⟨count, count⟩

theorem extent_of_sorted {after : Batch} (done : batch.sorted = .ok after) :
    after.extent after.orientation.outer = batch.extent batch.orientation.outer := by
  rw [sorted_eq_rearranged (wellShaped_of_sorted done)] at done
  cases done
  have timestamps := (length_select (byTime_sorts batch).bounded).trans (size_byTime batch)
  have paths := (length_select (byPath_sorts batch).bounded).trans (size_byPath batch)
  simp only [rearranged]
  cases batch.orientation with
  | row => exact timestamps
  | column => exact paths

end Shaped

/-- A batch of short texts is encoded as a whole, or it holds a value of another type than its path.
Then the failure names the first one as values are sent, by its timestamp and its path in the sorted
batch. -/
theorem encode_refuses_first (batch : Batch) (options : WriteOptions) (shaped : batch.WellShaped)
    (short : ∀ entry ∈ batch.entries, Short entry.cell) :
    ∃ after, batch.sorted = .ok after ∧ after.orientation = batch.orientation ∧
      (∀ e, batch.encode options = .error e ↔ ∃ time path entry value,
        FirstMismatch after time path entry value ∧
        e = .typeMismatch (.cell time path) entry.dataType value.dataType) ∧
      ((∃ e, batch.encode options = .error e) ↔ ∃ entry ∈ batch.entries, ¬ entry.Matches) ∧
      ((∀ entry ∈ batch.entries, entry.Matches) → ∃ insert, batch.encode options = .ok insert ∧
        insert.values.length = batch.extent batch.orientation.outer ∧
        insert.bitmaps.length = batch.extent batch.orientation.outer) := by
  obtain ⟨after, sorted⟩ : ∃ after, batch.sorted = .ok after := ⟨_, sorted_eq_rearranged shaped⟩
  obtain ⟨moved, again, _⟩ := sorted_rearranges sorted
  have same := sorted_entries sorted
  have short' : ∀ entry ∈ after.entries, Short entry.cell :=
    fun entry member => short entry (same.mem_iff.mp member)
  have encoded : batch.encode options = after.encodeSorted options := by
    rw [encode, sorted]
    rfl
  have typed : after.WellTyped ↔ ∀ entry ∈ batch.entries, entry.Matches := by
    rw [wellTyped_iff short']
    exact forall_congr' fun entry => imp_congr_left same.mem_iff
  have accepted := encodeSorted_ok_iff again options
  rw [typed] at accepted
  rw [encoded]
  refine ⟨after, sorted, moved.orientation, fun e => encodeSorted_eq_error_iff again short',
    ?_, ?_⟩
  · rw [exists_error_iff, accepted]
    simp
  · intro fits
    obtain ⟨insert, done⟩ := accepted.mpr fits
    exact ⟨insert, done, extent_of_sorted sorted ▸ lengths_of_encodeSorted again done⟩

/-- Two values of other types than their paths. The one that is sent first is not the earlier. -/
def askew : Batch where
  orientation := .column
  paths := ["b", "a"]
  types := [.long, .double]
  timestamps := [7, 3, 5]
  values := [[some (.long 1), some (.boolean true), none],
    [some (.long 4), some (.double ⟨0⟩), none]]

theorem askew_refused_first : askew.WellShaped ∧
    (∀ entry ∈ askew.entries, Short entry.cell) ∧
    askew.encode {} = .error (.typeMismatch (.cell 2 0) .double .long) ∧
    ∃ after entry value, askew.sorted = .ok after ∧ FirstMismatch after 2 0 entry value := by
  have shaped : askew.WellShaped :=
    ⟨by decide, by decide, by decide, by decide, rfl, rfl, by decide⟩
  have short : ∀ entry ∈ askew.entries, Short entry.cell := by decide
  have failed : askew.encode {} = .error (.typeMismatch (.cell 2 0) .double .long) := by cbv
  obtain ⟨after, sorted, -, refuses, -, -⟩ := encode_refuses_first askew {} shaped short
  obtain ⟨time, path, entry, value, first, same⟩ := (refuses _).mp failed
  obtain ⟨⟨rfl, rfl⟩, -⟩ : (2 = time ∧ 0 = path) ∧ _ := by simpa using same
  exact ⟨shaped, short, failed, after, entry, value, sorted, first⟩

end Batch
end SeriesClient
