import Mathlib.Data.List.Flatten
import SeriesClient.Proofs.Wire.DenseValues
import SeriesClient.Proofs.Wire.Layout

/-! Buffers that were cut short. A cut anywhere in the values is found at the first cell whose bytes
it reaches, and a cut in the mask at the first bit that is gone. -/
namespace SeriesClient.Wire

/-- Where the bytes of a cell end. -/
def endOf (cells : List (Cell × DataType)) (index : Nat) : Nat :=
  ((cells.take (index + 1)).flatMap cellBytes).length

/-- A present cell that is not complete in the first `cut` bytes. -/
def Cuts (cells : List (Cell × DataType)) (cut index : Nat) : Prop :=
  (∃ value declared, cells[index]? = some (some value, declared)) ∧ cut < endOf cells index

/-- The first cell that a cut reaches. -/
def CutsFirst (cells : List (Cell × DataType)) (cut index : Nat) : Prop :=
  Cuts cells cut index ∧ ∀ earlier < index, ¬ Cuts cells cut earlier

theorem cutsFirst_of_within {before behind : List (Cell × DataType)} {value : Value}
    {declared : DataType} {cut : Nat} (reached : (before.flatMap cellBytes).length ≤ cut)
    (within : cut < (before.flatMap cellBytes).length + (cellBytes (some value, declared)).length) :
    CutsFirst (before ++ (some value, declared) :: behind) cut before.length := by
  constructor
  · constructor
    · exact ⟨value, declared, by simp⟩
    · simpa [endOf, List.take_append, List.take_of_length_le] using within
  · rintro earlier early ⟨-, ends⟩
    -- What stands before the cell is complete, so are the cells in it.
    have inside : endOf (before ++ (some value, declared) :: behind) earlier ≤
        (before.flatMap cellBytes).length := by
      rw [endOf, List.take_append_of_le_length early]
      exact ((List.take_sublist ..).flatMap cellBytes).length_le
    omega

/-- A walk over written cells ends where a cell cannot be read. -/
theorem walk_stops {before : List (Cell × DataType)} {mask : Mask} {index : Nat}
    (encodable : ∀ cell ∈ before, CellEncodable cell)
    (presence : Replays mask index (before.map Prod.fst)) {place : Nat → Location}
    {position : Nat} {rest : Bytes} {declared : DataType} {e : Error}
    (stops : Reader.cell ⟨position + (before.flatMap cellBytes).length, rest⟩ mask
      (index + before.length) declared (place (index + before.length)) = .error e)
    (types : List DataType) :
    walk place mask index ⟨position, before.flatMap cellBytes ++ rest⟩
      (before.map Prod.snd ++ declared :: types) = .error e := by
  induction before generalizing index position with
  | nil =>
    rw [List.map_nil, List.nil_append, walk]
    simp only [List.flatMap_nil, List.nil_append, List.length_nil, Nat.add_zero] at stops ⊢
    rw [stops]
    rfl
  | cons cell before ih =>
    obtain ⟨head, tail⟩ := List.forall_mem_cons.mp encodable
    obtain ⟨tested, presence⟩ := presence
    rw [List.flatMap_cons, List.append_assoc, List.map_cons, List.cons_append,
      walk_cons_packed head tested, ih tail presence]
    · rfl
    · rw [← stops, List.flatMap_cons, List.length_append, List.length_cons]
      simp only [Nat.add_assoc, Nat.add_comm 1]

theorem walk_cut {cells : List (Cell × DataType)} {mask : Mask}
    (encodable : ∀ cell ∈ cells, CellEncodable cell)
    (presence : Replays mask 0 (cells.map Prod.fst)) {cut : Nat}
    (short : cut < (cells.flatMap cellBytes).length) (place : Nat → Location) :
    ∃ index needed offset remaining, CutsFirst cells cut index ∧
      walk place mask 0 (.ofBytes ((cells.flatMap cellBytes).take cut)) (cells.map Prod.snd) =
        .error (.corrupted (place index) (.shortRead needed offset remaining)) := by
  obtain ⟨before, ⟨cell, declared⟩, behind, rfl, reached, within⟩ := exists_cut short
  cases cell with
  | none => exact absurd within (Nat.not_lt.mpr reached)
  | some value =>
    have head : Encodable declared value := encodable (some value, declared) (by simp) value rfl
    obtain ⟨form, typed⟩ := readAs_of_encodeValue (encodeValue_eq_cellBytes head)
    rw [List.map_append, replays_append, List.length_map] at presence
    obtain ⟨earlier, present, -⟩ := presence
    obtain ⟨needed, offset, remaining, after, read⟩ := Reader.value_short form
      (Nat.sub_lt_left_of_lt_add reached within) (before.flatMap cellBytes).length
    rw [typed] at read
    have kept : ((before ++ (some value, declared) :: behind).flatMap cellBytes).take cut =
        before.flatMap cellBytes ++
          (cellBytes (some value, declared)).take (cut - (before.flatMap cellBytes).length) := by
      rw [List.flatMap_append, List.take_append, List.take_of_length_le reached,
        List.flatMap_cons, List.take_append_of_le_length (by omega)]
    refine ⟨before.length, needed, offset, remaining, cutsFirst_of_within reached within, ?_⟩
    rw [kept, List.map_append, List.map_cons]
    apply walk_stops
    · intro cell member
      exact encodable cell (List.mem_append_left _ member)
    · exact earlier
    · rw [Reader.cell, present]
      simp only [Option.isSome_some, Nat.zero_add, read]
      rfl

/-- A walk ends at the first bit that the mask does not have. -/
theorem walk_missing {cells : List (Cell × DataType)} {mask : Mask}
    (encodable : ∀ cell ∈ cells, CellEncodable cell) {gone : Nat} (inside : gone < cells.length)
    (presence : Replays mask 0 ((cells.take gone).map Prod.fst)) {e : Error}
    (missing : mask.test gone = .error e) (place : Nat → Location) :
    walk place mask 0 (.ofBytes (cells.flatMap cellBytes)) (cells.map Prod.snd) = .error e := by
  have split : cells.take gone ++ cells[gone] :: cells.drop (gone + 1) = cells := by
    rw [List.getElem_cons_drop, List.take_append_drop]
  rw [← split, List.flatMap_append, List.map_append, List.map_cons]
  apply walk_stops
  · intro cell member
    exact encodable cell (List.mem_of_mem_take member)
  · exact presence
  · rw [List.length_take_of_le (Nat.le_of_lt inside), Reader.cell, Nat.zero_add, missing]

/-- What a wire form owes when it is cut short. Values that end early are refused at the first cell
that they do not hold in full, and a mask that ends early at its first missing bit. -/
structure RefusesCuts (decode : Bytes → Mask → Except Error Row) (place : Nat → Location)
    (cells : Row) (types : List DataType) (encoded : Encoded) : Prop where
  values : ∀ cut < encoded.values.length, ∃ index needed offset remaining,
    CutsFirst (cells.zip types) cut index ∧
      decode (encoded.values.take cut) encoded.mask =
        .error (.corrupted (place index) (.shortRead needed offset remaining))
  mask : ∀ kept < storageLength cells.length,
    decode encoded.values (.view cells.length (encoded.mask.bytes.take kept)) =
      .error (.corrupted .bitmap (.missingBit (8 * kept)))

theorem Packs.refusesCuts {decode : Bytes → Mask → Except Error Row} {place : Nat → Location}
    {cells : Row} {types : List DataType} {encoded : Encoded} (width : cells.length = types.length)
    (packs : Packs (cells.zip types) encoded)
    (walks : ∀ values mask, mask.capacity = cells.length → ∀ e,
      walk place mask 0 (.ofBytes values) types = .error e → decode values mask = .error e) :
    RefusesCuts decode place cells types encoded := by
  have count : (cells.zip types).length = cells.length := by simp [width]
  have typesOf : (cells.zip types).map Prod.snd = types :=
    List.map_snd_zip (Nat.le_of_eq width.symm)
  have capacity : encoded.mask.capacity = cells.length := packs.capacity.trans count
  constructor
  case values =>
    intro cut short
    rw [packs.values] at short ⊢
    have presence := packs.replays (cells.zip types).length fun _ _ => rfl
    rw [List.take_length] at presence
    obtain ⟨index, needed, offset, remaining, first, refused⟩ :=
      walk_cut packs.encodable presence short place
    rw [typesOf] at refused
    exact ⟨index, needed, offset, remaining, first, walks _ _ capacity _ refused⟩
  case mask =>
    intro kept short
    have inside : 8 * kept < (cells.zip types).length := by
      rw [count]
      rw [storageLength] at short
      omega
    have presence : Replays (.view cells.length (encoded.mask.bytes.take kept)) 0
        (((cells.zip types).take (8 * kept)).map Prod.fst) := by
      apply packs.replays
      intro i early
      rw [Mask.test_view_take early, Mask.test_view capacity]
    have missing := Mask.test_view_missing short encoded.mask.bytes
    have refused := walk_missing packs.encodable inside presence missing place
    rw [typesOf, ← packs.values] at refused
    exact walks _ _ rfl _ refused

/-- No cut of what was written for a row or a column is ever decoded. -/
theorem cuts_refused :
    (∀ (cells : Row) (types : List DataType) (encoded : Encoded),
      encodeRow cells types = .ok encoded →
        RefusesCuts (decodeRow · · types) (.cell 0) cells types encoded) ∧
    ∀ (cells : Row) (declared : DataType) (encoded : Encoded),
      encodeColumn cells declared = .ok encoded →
        RefusesCuts (decodeColumn · · declared) (.cell · 0) cells
          (List.replicate cells.length declared) encoded := by
  constructor
  · intro cells types encoded done
    obtain ⟨width, packs⟩ := packs_of_encodeRowAt done
    apply packs.refusesCuts width
    intro values mask _ e refused
    rw [decodeRow_eq_walk, refused]
    rfl
  · intro cells declared encoded done
    have packs := packs_of_encodeColumnAt done
    rw [← zip_replicate] at packs
    apply packs.refusesCuts (List.length_replicate ..).symm
    intro values mask capacity e refused
    rw [decodeColumn_eq_walk, capacity, refused]
    rfl

/-- A row cut within a text and within its mask, and a column cut before its last cell. -/
theorem mixed_cuts_refused : ∃ row column,
    encodeRow (mixed 0x7fc00001) mixedTypes = .ok row ∧
    encodeColumn [some (.long 7), none, some (.long 8)] .long = .ok column ∧
    (∃ index needed offset remaining,
      CutsFirst ((mixed 0x7fc00001).zip mixedTypes) 10 index ∧
        decodeRow (row.values.take 10) row.mask mixedTypes =
          .error (.corrupted (.cell 0 index) (.shortRead needed offset remaining))) ∧
    decodeRow row.values (.view 9 (row.mask.bytes.take 1)) mixedTypes =
      .error (.corrupted .bitmap (.missingBit 8)) ∧
    ∃ index needed offset remaining,
      CutsFirst [(some (.long 7), .long), (none, .long), (some (.long 8), .long)] 8 index ∧
        decodeColumn (column.values.take 8) column.mask .long =
          .error (.corrupted (.cell index 0) (.shortRead needed offset remaining)) := by
  obtain ⟨rows, columns⟩ := cuts_refused
  obtain ⟨row, written, packs⟩ := encodeRowAt_packs (rfl : (mixed 0x7fc00001).length = _)
    (by decide : ∀ cell ∈ (mixed 0x7fc00001).zip mixedTypes, CellEncodable cell) 0
  obtain ⟨column, stood, packed⟩ := encodeColumnAt_packs
    (by decide : ∀ cell ∈ [some (.long 7), none, some (.long 8)], CellEncodable (cell, .long)) 0
  have refuses := rows _ _ _ written
  have stops := columns _ _ _ stood
  refine ⟨row, column, written, stood, ?_, ?_, ?_⟩
  · apply refuses.values
    rw [packs.values]
    decide
  · exact refuses.mask 1 (by decide)
  · apply stops.values
    rw [packed.values]
    decide

end SeriesClient.Wire
