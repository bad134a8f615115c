import Mathlib.Data.List.Forall2
import Mathlib.Data.Option.Basic
import SeriesClient.Proofs.Wire.Walk

/-! The layout of rows and columns in full. What is written for cells is fixed by the cells, and
they are read back from it under everything that the layout leaves open. -/
namespace SeriesClient.Wire

/-- What writing each present value on its own gives, in order. -/
def written (cells : List (Cell × DataType)) : List (Except Error Bytes) :=
  cells.filterMap fun (cell, declared) => cell.map (encodeValue declared)

/-- What the wire form of a row promises: the bytes of its cells without gaps, and a mark for each
present one and for nothing else. The cells are read whatever else the buffers hold: `bitmap` may
differ from the mask in its padding, and bytes may follow both. -/
structure Lays (decode : Bytes → Mask → Except Error Row) (cells : Row) (types : List DataType)
    (encoded : Encoded) : Prop where
  values : ∃ chunks : List Bytes,
    written (cells.zip types) = chunks.map .ok ∧ encoded.values = chunks.flatten
  capacity : encoded.mask.capacity = cells.length
  stored : encoded.mask.bytes.length = storageLength cells.length
  marks : ∀ i (inside : i < cells.length), encoded.mask.test i = .ok cells[i].isSome
  padding : ∀ i ≥ cells.length, encoded.mask.bit i = false
  reads : ∀ bitmap more rest : Bytes,
    (∀ i < cells.length, (Mask.view cells.length bitmap).test i = encoded.mask.test i) →
      decode (encoded.values ++ rest) (.view cells.length (bitmap ++ more)) = .ok cells

theorem written_packed {cells : List (Cell × DataType)}
    (encodable : ∀ cell ∈ cells, CellEncodable cell) :
    ∃ chunks : List Bytes,
      written cells = chunks.map .ok ∧ cells.flatMap cellBytes = chunks.flatten := by
  induction cells with
  | nil => exact ⟨[], rfl, rfl⟩
  | cons cell cells ih =>
    obtain ⟨head, tail⟩ := List.forall_mem_cons.mp encodable
    obtain ⟨chunks, listed, joined⟩ := ih tail
    obtain ⟨cell, declared⟩ := cell
    cases cell with
    | none => exact ⟨chunks, listed, joined⟩
    | some value =>
      have bytes := encodeValue_eq_cellBytes (head value rfl)
      refine ⟨cellBytes (some value, declared) :: chunks, ?_, ?_⟩
      · rw [written] at listed
        simp [written, bytes, listed]
      · rw [List.flatMap_cons, List.flatten_cons, joined]

theorem Packs.lays {decode : Bytes → Mask → Except Error Row} {cells : Row}
    {types : List DataType} {encoded : Encoded} (width : cells.length = types.length)
    (packs : Packs (cells.zip types) encoded)
    (decodes : ∀ bitmap rest, Replays (.view cells.length bitmap) 0 cells →
      decode ((cells.zip types).flatMap cellBytes ++ rest) (.view cells.length bitmap) =
        .ok cells) : Lays decode cells types encoded := by
  have count : (cells.zip types).length = cells.length := by simp [width]
  have cellsOf := List.map_fst_zip (Nat.le_of_eq width)
  have marks (i : Nat) (inside : i < cells.length) :
      encoded.mask.test i = .ok cells[i].isSome := by
    rw [packs.test (count ▸ inside), List.getElem_zip]
  constructor
  case values =>
    rw [packs.values]
    exact written_packed packs.encodable
  case capacity => exact packs.capacity.trans count
  case stored =>
    rw [← count, ← packs.capacity]
    exact packs.sized
  case marks => exact marks
  case padding =>
    intro i outside
    rw [packs.marks, presentFrom, Nat.sub_zero, List.getElem?_eq_none (count ▸ outside)]
    simp
  case reads =>
    intro bitmap more rest alike
    rw [packs.values]
    apply decodes
    rw [replays_iff]
    intro i inside
    rw [Nat.zero_add]
    apply Mask.test_view_append
    rw [alike i inside, marks i inside]

/-- The cells are read from exactly what was written. -/
theorem Lays.readBack {decode : Bytes → Mask → Except Error Row} {cells : Row}
    {types : List DataType} {encoded : Encoded} (lays : Lays decode cells types encoded) :
    decode encoded.values (.view cells.length encoded.mask.bytes) = .ok cells := by
  have read := lays.reads encoded.mask.bytes [] [] fun i _ => Mask.test_view lays.capacity i
  rwa [List.append_nil, List.append_nil] at read

theorem lays_of_encodeRowAt {row : Nat} {cells : Row} {types : List DataType} {encoded : Encoded}
    (done : encodeRowAt row cells types = .ok encoded) :
    Lays (decodeRow · · types) cells types encoded := by
  obtain ⟨width, packs⟩ := packs_of_encodeRowAt done
  apply packs.lays width
  intro bitmap rest presence
  exact decodeRow_packed width packs.encodable presence rest

theorem lays_of_encodeColumnAt {column : Nat} {cells : Row} {declared : DataType}
    {encoded : Encoded} (done : encodeColumnAt column cells declared = .ok encoded) :
    Lays (decodeColumn · · declared) cells (List.replicate cells.length declared) encoded := by
  have packs := packs_of_encodeColumnAt done
  rw [← zip_replicate] at packs
  apply packs.lays (List.length_replicate ..).symm
  intro bitmap rest presence
  rw [zip_replicate]
  exact decodeColumn_packed rfl (zip_replicate cells declared ▸ packs.encodable) presence rest

/-- Cells that agree in all bits are equal. -/
theorem forall₂_bitEq_iff {first second : Row} :
    List.Forall₂ (Option.Rel fun a b => Value.bitEq a b = true) first second ↔
      first = second := by
  have cell : Option.Rel (fun a b : Value => a.bitEq b = true) = Eq := by
    funext a b
    rw [eq_iff_iff]
    constructor
    · rintro (same | _)
      · rw [(Value.bitEq_iff _ _).mp same]
      · rfl
    · rintro rfl
      cases a with
      | none => exact .none
      | some value => exact .some ((Value.bitEq_iff value value).mpr rfl)
  rw [cell, List.forall₂_eq_eq_eq]

/-- Rows and columns whose values fit their types are written, and laid out as promised. Two rows of
the same types have the same wire form exactly when their cells agree in all bits. -/
theorem cells_laid_out :
    (∀ (cells : Row) (types : List DataType), cells.length = types.length →
      (∀ cell ∈ cells.zip types, CellEncodable cell) →
        ∃ encoded, encodeRow cells types = .ok encoded ∧
          Lays (decodeRow · · types) cells types encoded) ∧
    (∀ (cells : Row) (declared : DataType), (∀ cell ∈ cells, CellEncodable (cell, declared)) →
        ∃ encoded, encodeColumn cells declared = .ok encoded ∧
          Lays (decodeColumn · · declared) cells (List.replicate cells.length declared) encoded) ∧
    ∀ (types : List DataType) (first second : Row) (a b : Encoded),
      encodeRow first types = .ok a → encodeRow second types = .ok b →
        (a.values = b.values ∧ a.mask.bytes = b.mask.bytes ↔
          List.Forall₂ (Option.Rel fun x y => Value.bitEq x y = true) first second) := by
  refine ⟨?_, ?_, ?_⟩
  · intro cells types width encodable
    obtain ⟨encoded, done, -⟩ := encodeRowAt_packs width encodable 0
    exact ⟨encoded, done, lays_of_encodeRowAt done⟩
  · intro cells declared encodable
    obtain ⟨encoded, done, -⟩ := encodeColumnAt_packs encodable 0
    exact ⟨encoded, done, lays_of_encodeColumnAt done⟩
  · intro types first second a b written written'
    rw [forall₂_bitEq_iff]
    constructor
    · rintro ⟨values, bytes⟩
      have read := (lays_of_encodeRowAt written).readBack
      have read' := (lays_of_encodeRowAt written').readBack
      have width := (packs_of_encodeRowAt written).1.trans (packs_of_encodeRowAt written').1.symm
      rw [values, bytes, width, read'] at read
      exact (Except.ok.inj read).symm
    · rintro rfl
      cases written.symm.trans written'
      exact ⟨rfl, rfl⟩

/-- Cells of every type, three of them absent, over a mask with padding. -/
def mixed (payload : UInt32) : Row :=
  [some (.boolean true), none, some (.float ⟨payload⟩), some (.binary "é"), none,
    some (.double ⟨0x7ff0000000000001⟩), some (.binary ""), none, some (.integer (-1))]

def mixedTypes : List DataType :=
  [.boolean, .integer, .float, .binary, .long, .double, .binary, .boolean, .integer]

theorem mixed_laid_out :
    (∀ cell ∈ (mixed 0x7fc00001).zip mixedTypes, CellEncodable cell) ∧
    ∃ encoded other column, encodeRow (mixed 0x7fc00001) mixedTypes = .ok encoded ∧
      encodeRow (mixed 0x7fc00002) mixedTypes = .ok other ∧
      encodeColumn [none, some (.long 7)] .long = .ok column ∧
      decodeRow (encoded.values ++ [0xAB]) (.view 9 ([0x6D, 0xFF] ++ [1])) mixedTypes =
        .ok (mixed 0x7fc00001) ∧
      decodeColumn (column.values ++ [0xAB]) (.view 2 ([0xFE] ++ [1])) .long =
        .ok [none, some (.long 7)] ∧
      (encoded.values = other.values ∧ encoded.mask.bytes = other.mask.bytes ↔
        List.Forall₂ (Option.Rel fun x y => Value.bitEq x y = true) (mixed 0x7fc00001)
          (mixed 0x7fc00002)) := by
  obtain ⟨rows, columns, same⟩ := cells_laid_out
  have first : ∀ cell ∈ (mixed 0x7fc00001).zip mixedTypes, CellEncodable cell := by decide
  have second : ∀ cell ∈ (mixed 0x7fc00002).zip mixedTypes, CellEncodable cell := by decide
  obtain ⟨encoded, written, laid⟩ := rows (mixed 0x7fc00001) mixedTypes rfl first
  obtain ⟨other, written', -⟩ := rows (mixed 0x7fc00002) mixedTypes rfl second
  obtain ⟨column, packed, stood⟩ := columns [none, some (.long 7)] .long (by decide)
  refine ⟨first, encoded, other, column, written, written', packed, ?_, ?_,
    same _ _ _ _ _ written written'⟩
  · apply laid.reads
    intro i inside
    rw [laid.marks i inside]
    revert i
    decide
  · apply stood.reads
    intro i inside
    rw [stood.marks i inside]
    revert i
    decide

end SeriesClient.Wire
