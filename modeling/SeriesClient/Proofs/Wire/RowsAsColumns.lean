import SeriesClient.Proofs.Wire.ReceivedRow

/-! Rows of one type and columns of this type have one codec. Cell after cell is written and read in
the same way, over whatever mask, so that the two differ in nothing but the place that a failure
names: the column in the first row, or the row in the first column. -/
namespace SeriesClient

/-- The place with its row and its column exchanged. -/
def Location.transposed : Location → Location
  | .cell row column => .cell column row
  | place => place

namespace Error

/-- The failure at the transposed place, if it has a place. -/
def transposed : Error → Error
  | typeMismatch place declared found => typeMismatch place.transposed declared found
  | corrupted place damage => corrupted place.transposed damage
  | e => e

theorem transposed_relocate (e : Error) (place : Location) :
    (e.relocate place).transposed = e.relocate place.transposed := by
  cases e <;> rfl

end Error

theorem mapError_map {α β : Type} (meaning : α → β) (change : Error → Error)
    (outcome : Except Error α) :
    (outcome.mapError change).map meaning = (outcome.map meaning).mapError change := by
  cases outcome <;> rfl

namespace Wire

/-- A mask names no cell when it fails. -/
theorem transposed_of_test {mask : Mask} {index : Nat} {e : Error}
    (failed : mask.test index = .error e) : e.transposed = e := by
  rw [Mask.test] at failed
  split at failed
  · cases failed
    rfl
  · split at failed <;> cases failed
    rfl

theorem transposed_of_mark {mask marked : Mask} {index : Nat} {e : Error}
    (failed : mask.mark index = (.error e, marked)) : e.transposed = e := by
  have effect := mask.mark_effect index
  rw [failed] at effect
  cases effect <;> rfl

theorem encodeFrom_transposed (place : Nat → Location) (index : Nat) (mask : Mask)
    (cells : List (Cell × DataType)) :
    encodeFrom (fun i => (place i).transposed) index mask cells =
      (encodeFrom place index mask cells).mapError Error.transposed := by
  induction cells generalizing index mask with
  | nil => rfl
  | cons cell cells ih =>
    obtain ⟨cell, declared⟩ := cell
    cases cell with
    | none => exact ih (index + 1) mask
    | some value =>
      rw [encodeFrom, encodeFrom]
      cases met : mask.mark index with
      | mk answer marked =>
        cases answer with
        | error e => exact congrArg Except.error (transposed_of_mark met).symm
        | ok =>
          cases encodeValue declared value with
          | error e => exact congrArg Except.error (e.transposed_relocate _).symm
          | ok bytes =>
            simp only [ih (index + 1) marked]
            cases encodeFrom place (index + 1) marked cells <;> rfl

theorem cell_transposed (reader : Reader) (mask : Mask) (index : Nat) (declared : DataType)
    (place : Location) : reader.cell mask index declared place.transposed =
      (reader.cell mask index declared place).mapError Error.transposed := by
  rw [Reader.cell, Reader.cell]
  cases tested : mask.test index with
  | error e => exact congrArg Except.error (transposed_of_test tested).symm
  | ok present =>
    cases present with
    | false => rfl
    | true =>
      cases reader.value declared with
      | mk answer behind =>
        cases answer with
        | error e => exact congrArg Except.error (e.transposed_relocate place).symm
        | ok value => rfl

theorem walk_transposed (place : Nat → Location) (mask : Mask) (index : Nat) (reader : Reader)
    (types : List DataType) : walk (fun i => (place i).transposed) mask index reader types =
      (walk place mask index reader types).mapError Error.transposed := by
  induction types generalizing index reader with
  | nil => rfl
  | cons declared types ih =>
    have moved := cell_transposed reader mask index declared (place index)
    cases met : reader.cell mask index declared (place index) with
    | error e =>
      rw [met] at moved
      rw [walk_cons_of_error met, walk_cons_of_error moved]
      rfl
    | ok here =>
      rw [met] at moved
      rw [walk_cons_of_ok met, walk_cons_of_ok moved, ih, mapError_map]

theorem encodeColumn_eq (cells : Row) (declared : DataType) : encodeColumn cells declared =
    (encodeRow cells (List.replicate cells.length declared)).mapError Error.transposed := by
  have width : cells.length = (List.replicate cells.length declared).length := by simp
  rw [encodeRow, encodeRowAt, if_neg (not_not_intro width), zip_replicate]
  exact encodeFrom_transposed (.cell 0) 0 (.empty cells.length) (cells.map (·, declared))

theorem decodeColumn_eq (values : Bytes) (mask : Mask) (declared : DataType) :
    decodeColumn values mask declared =
      (decodeRow values mask (List.replicate mask.capacity declared)).mapError
        Error.transposed := by
  rw [decodeColumn_eq_walk, decodeRow_eq_walk, ← mapError_map]
  exact congrArg (Except.map rowOf) (walk_transposed (.cell 0) mask 0 (.ofBytes values) _)

/-- What a row is refused for when it is the first: a cell, by its column, or no cell at all. -/
inductive NamesColumn (columns : Nat) : Error → Prop
  | mismatch {column : Nat} (inside : column < columns) (declared found : DataType) :
    NamesColumn columns (.typeMismatch (.cell 0 column) declared found)
  | text (bytes : Nat) : NamesColumn columns (.invalid (.textTooLong bytes))
  | cell {column : Nat} (inside : column < columns) (damage : Damage) :
    NamesColumn columns (.corrupted (.cell 0 column) damage)
  | mask (damage : Damage) : NamesColumn columns (.corrupted .bitmap damage)

theorem refusal_of_encodeFrom {place : Nat → Location} {index : Nat} {mask : Mask}
    {cells : List (Cell × DataType)} {e : Error} (sized : mask.Sized)
    (room : index + cells.length ≤ mask.capacity)
    (failed : encodeFrom place index mask cells = .error e) :
    ∃ number < cells.length, ∃ declared value fault, Refusal declared value fault ∧
      e = fault.relocate (place (index + number)) := by
  induction cells generalizing index mask with
  | nil => cases failed
  | cons cell cells ih =>
    rw [List.length_cons] at room
    have next (number : Nat) : index + (number + 1) = index + 1 + number := by omega
    obtain ⟨cell, declared⟩ := cell
    cases cell with
    | none =>
      obtain ⟨number, inside, found⟩ := ih sized (by omega) failed
      exact ⟨number + 1, Nat.succ_lt_succ inside, next number ▸ found⟩
    | some value =>
      have inside : index < mask.capacity := by omega
      rw [encodeFrom, Mask.mark_eq_marked inside (sized.byte inside)] at failed
      cases written : encodeValue declared value with
      | error fault =>
        rw [written] at failed
        cases failed
        exact ⟨0, Nat.succ_pos _, declared, value, fault, encodeValue_eq_error_iff.mp written, rfl⟩
      | ok bytes =>
        cases behind : encodeFrom place (index + 1) (mask.marked index) cells with
        | ok =>
          simp only [written, behind] at failed
          cases failed
        | error fault =>
          simp only [written, behind] at failed
          cases failed
          obtain ⟨number, inside, found⟩ := ih (Mask.marked_sized sized index)
            (by rw [Mask.capacity_marked]; omega) behind
          exact ⟨number + 1, Nat.succ_lt_succ inside, next number ▸ found⟩

theorem namesColumn_of_encodeRow {cells : Row} {types : List DataType} {e : Error}
    (width : cells.length = types.length) (failed : encodeRow cells types = .error e) :
    NamesColumn cells.length e := by
  have count : (cells.zip types).length = cells.length := by simp [width]
  rw [encodeRow, encodeRowAt, if_neg (not_not_intro width)] at failed
  obtain ⟨number, inside, declared, value, fault, refusal, rfl⟩ :=
    refusal_of_encodeFrom (Mask.empty_sized _) (by simp [Mask.empty, width]) failed
  rw [Nat.zero_add]
  rw [count] at inside
  cases refusal with
  | mismatch => exact .mismatch inside declared value.dataType
  | tooLong => exact .text (textSize value)

theorem namesColumn_of_decodeRow {values : Bytes} {mask : Mask} {types : List DataType} {e : Error}
    (room : types.length ≤ mask.capacity) (failed : decodeRow values mask types = .error e) :
    NamesColumn types.length e := by
  rw [decodeRow_eq_walk, map_eq_error_iff, walk_eq_error_iff] at failed
  obtain ⟨column, declared, taken, after, named, -, stops⟩ := failed
  have inside : column < types.length := (List.getElem?_eq_some_iff.mp named).1
  rw [Nat.zero_add] at stops
  rcases (Reader.cell_error_iff (by omega)).mp stops with ⟨-, rfl⟩ | ⟨-, damage, rfl, -⟩
  · exact .mask (.missingBit column)
  · exact .cell inside damage

/-- A column is written and read as a row in which every cell has its type: the bytes, the mask and
the cells are the same, and so are the failures but for the place of a cell, which is the column on
one side and the row on the other. -/
theorem columns_agree_with_rows (declared : DataType) :
    (∀ cells : Row,
      encodeColumn cells declared =
        (encodeRow cells (List.replicate cells.length declared)).mapError Error.transposed ∧
      ∀ e, encodeRow cells (List.replicate cells.length declared) = .error e →
        NamesColumn cells.length e) ∧
    ∀ (values : Bytes) (mask : Mask),
      decodeColumn values mask declared =
        (decodeRow values mask (List.replicate mask.capacity declared)).mapError
          Error.transposed ∧
      (∀ cells, decodeRow values mask (List.replicate mask.capacity declared) = .ok cells →
        cells.length = mask.capacity) ∧
      ∀ e, decodeRow values mask (List.replicate mask.capacity declared) = .error e →
        NamesColumn mask.capacity e := by
  constructor
  · intro cells
    refine ⟨encodeColumn_eq cells declared, ?_⟩
    intro e failed
    exact namesColumn_of_encodeRow (by simp) failed
  · intro values mask
    have width : (List.replicate mask.capacity declared).length = mask.capacity := by simp
    refine ⟨decodeColumn_eq values mask declared, ?_, ?_⟩
    · intro cells decoded
      exact (length_of_decodeRow decoded).trans width
    · intro e failed
      exact width ▸ namesColumn_of_decodeRow (Nat.le_of_eq width) failed

/-- A value of another type behind an absent cell, a mask with a byte too few for its last cell, and
a value cut short. -/
theorem broken_columns_agree_with_rows :
    encodeRow [none, some (.boolean true)] [.long, .long] =
      .error (.typeMismatch (.cell 0 1) .long .boolean) ∧
    encodeColumn [none, some (.boolean true)] .long =
      .error (.typeMismatch (.cell 1 0) .long .boolean) ∧
    NamesColumn 2 (.typeMismatch (.cell 0 1) .long .boolean) ∧
    decodeColumn [] (.view 9 [0]) .long = .error (.corrupted .bitmap (.missingBit 8)) ∧
    decodeColumn [0, 0, 0, 7, 1] (.view 3 [5]) .integer =
      .error (.corrupted (.cell 2 0) (.shortRead 4 4 1)) ∧
    NamesColumn 3 (.corrupted (.cell 0 2) (.shortRead 4 4 1)) ∧
    decodeRow [1] (.view 3 [4]) (List.replicate 3 .boolean) =
      .ok [none, none, some (.boolean true)] ∧
    [none, none, some (Value.boolean true)].length = 3 := by
  have refused : encodeRow [none, some (.boolean true)] [.long, .long] =
      .error (.typeMismatch (.cell 0 1) .long .boolean) := rfl
  have cut : decodeRow [0, 0, 0, 7, 1] (.view 3 [5]) (List.replicate 3 .integer) =
      .error (.corrupted (.cell 0 2) (.shortRead 4 4 1)) := rfl
  have read : decodeRow [1] (.view 3 [4]) (List.replicate 3 .boolean) =
      .ok [none, none, some (.boolean true)] := rfl
  obtain ⟨written, -⟩ := columns_agree_with_rows .long
  obtain ⟨sameFailure, named⟩ := written [none, some (.boolean true)]
  obtain ⟨sameMissing, -⟩ := (columns_agree_with_rows .long).2 [] (.view 9 [0])
  obtain ⟨sameCut, -, cutNamed⟩ :=
    (columns_agree_with_rows .integer).2 [0, 0, 0, 7, 1] (.view 3 [5])
  obtain ⟨-, width, -⟩ := (columns_agree_with_rows .boolean).2 [1] (.view 3 [4])
  refine ⟨refused, ?_, named _ refused, ?_, ?_, cutNamed _ cut, read, width _ read⟩
  · rw [sameFailure]
    exact congrArg (Except.mapError Error.transposed) refused
  · rw [sameMissing]
    rfl
  · rw [sameCut]
    exact congrArg (Except.mapError Error.transposed) cut

end Wire
end SeriesClient
