import SeriesClient.Proofs.Wire.DenseCells
import SeriesClient.Proofs.Wire.ValueForms

/-! A walk over the cells of a buffer, one type after the other, that keeps the bytes of every cell.
Decoding a row and decoding a column are the same walk, and differ only in the places they name. A
buffer for rows is filled with the cells of the walk, also where the walk ends early. -/
namespace SeriesClient.Wire

/-- A cell as it was met, with the bytes it was read from. -/
structure Taken where
  declared : DataType
  cell : Cell
  bytes : Bytes

/-- Bytes between two states of one reader. -/
def Reader.used (before after : Reader) : Bytes :=
  before.rest.take (after.position - before.position)

theorem Reader.Passes.used_eq {before after : Reader} {bytes : Bytes}
    (passes : before.Passes bytes after) : before.used after = bytes := by
  obtain ⟨rest, position⟩ := passes
  rw [used, rest, position, Nat.add_sub_cancel_left, List.take_left]

/-- Reads a cell of each type from place `index` on. -/
def walk (place : Nat → Location) (mask : Mask) (index : Nat) (reader : Reader) :
    List DataType → Except Error (List Taken × Reader)
  | [] => .ok ([], reader)
  | declared :: types => do
    let (cell, behind) ← reader.cell mask index declared (place index)
    let (taken, after) ← walk place mask (index + 1) behind types
    .ok (⟨declared, cell, reader.used behind⟩ :: taken, after)

theorem walk_cons_of_error {place : Nat → Location} {mask : Mask} {index : Nat} {before : Reader}
    {declared : DataType} {e : Error}
    (met : before.cell mask index declared (place index) = .error e) (types : List DataType) :
    walk place mask index before (declared :: types) = .error e := by
  rw [walk, met]
  rfl

theorem walk_cons_of_ok {place : Nat → Location} {mask : Mask} {index : Nat}
    {before behind : Reader} {declared : DataType} {cell : Cell}
    (met : before.cell mask index declared (place index) = .ok (cell, behind))
    (types : List DataType) :
    walk place mask index before (declared :: types) =
      (walk place mask (index + 1) behind types).map fun (taken, after) =>
        (⟨declared, cell, before.used behind⟩ :: taken, after) := by
  rw [walk, met]
  rfl

theorem walk_cons_eq_ok {place : Nat → Location} {mask : Mask} {index : Nat}
    {before after : Reader} {declared : DataType} {types : List DataType} {taken : List Taken}
    (done : walk place mask index before (declared :: types) = .ok (taken, after)) :
    ∃ cell behind others, before.cell mask index declared (place index) = .ok (cell, behind) ∧
      walk place mask (index + 1) behind types = .ok (others, after) ∧
      taken = ⟨declared, cell, before.used behind⟩ :: others := by
  rw [walk] at done
  obtain ⟨⟨cell, behind⟩, met, done⟩ := exists_of_bind_eq_ok done
  obtain ⟨⟨others, ended⟩, walked, done⟩ := exists_of_bind_eq_ok done
  cases done
  exact ⟨cell, behind, others, met, walked, rfl⟩

theorem walk_cons_eq_error_iff {place : Nat → Location} {mask : Mask} {index : Nat}
    {before : Reader} {declared : DataType} {types : List DataType} {e : Error} :
    walk place mask index before (declared :: types) = .error e ↔
      before.cell mask index declared (place index) = .error e ∨
      ∃ cell behind, before.cell mask index declared (place index) = .ok (cell, behind) ∧
        walk place mask (index + 1) behind types = .error e := by
  cases met : before.cell mask index declared (place index) with
  | error e' =>
    rw [walk_cons_of_error met]
    simp
  | ok here =>
    obtain ⟨cell, behind⟩ := here
    rw [walk_cons_of_ok met, map_eq_error_iff]
    simp [and_assoc]

def rowOf (walked : List Taken × Reader) : Row := walked.1.map Taken.cell

theorem decodeColumnFrom_eq_walk (reader : Reader) (mask : Mask) (declared : DataType)
    (row more : Nat) : decodeColumnFrom reader mask declared row more =
      (walk (.cell · 0) mask row reader (List.replicate more declared)).map rowOf := by
  induction more generalizing reader row with
  | zero => rfl
  | succ more ih =>
    rw [decodeColumnFrom, List.replicate_succ, walk]
    cases met : reader.cell mask row declared (.cell row 0) with
    | error e => rfl
    | ok here =>
      obtain ⟨cell, behind⟩ := here
      simp only [ih, bind, Except.bind]
      cases walk (.cell · 0) mask (row + 1) behind (List.replicate more declared) <;> rfl

theorem decodeColumn_eq_walk (values : Bytes) (mask : Mask) (declared : DataType) :
    decodeColumn values mask declared =
      (walk (.cell · 0) mask 0 (.ofBytes values) (List.replicate mask.capacity declared)).map
        rowOf :=
  decodeColumnFrom_eq_walk ..

/-- An absent cell has no bytes, and a present one those of a value of its type. -/
def Taken.Sound (taken : Taken) : Prop := match taken.cell with
  | none => taken.bytes = []
  | some value => ReadAs taken.bytes value ∧ value.dataType = taken.declared

/-- What a finished walk has gone through: a cell for each type, present where the mask says so,
and the bytes of all of them one after the other. -/
structure Walked (mask : Mask) (index : Nat) (before : Reader) (types : List DataType)
    (taken : List Taken) (after : Reader) : Prop where
  types : taken.map Taken.declared = types
  presence : Replays mask index (taken.map Taken.cell)
  sound : ∀ cell ∈ taken, cell.Sound
  passes : before.Passes (taken.flatMap Taken.bytes) after

theorem cell_eq_ok {mask : Mask} {index : Nat} {declared : DataType} {place : Location}
    {before after : Reader} {cell : Cell}
    (met : before.cell mask index declared place = .ok (cell, after)) :
    mask.test index = .ok cell.isSome ∧ (Taken.mk declared cell (before.used after)).Sound ∧
      before.Passes (before.used after) after := by
  rw [Reader.cell] at met
  cases tested : mask.test index with
  | error e =>
    rw [tested] at met
    cases met
  | ok present =>
    rw [tested] at met
    cases present with
    | false =>
      cases met
      have still := before.passes_nil
      rw [still.used_eq]
      exact ⟨rfl, rfl, still⟩
    | true =>
      simp only at met
      split at met
      · cases met
      · rename_i value behind read
        cases met
        obtain ⟨bytes, form, typed, passes⟩ := Reader.value_eq_ok read
        rw [passes.used_eq]
        exact ⟨rfl, ⟨form, typed⟩, passes⟩

theorem cell_of_sound {mask : Mask} {index : Nat} {taken : Taken} {before after : Reader}
    (tested : mask.test index = .ok taken.cell.isSome) (sound : taken.Sound)
    (passes : before.Passes taken.bytes after) (place : Location) :
    before.cell mask index taken.declared place = .ok (taken.cell, after) := by
  obtain ⟨declared, cell, bytes⟩ := taken
  obtain ⟨position, rest⟩ := before
  rw [Reader.cell, tested]
  cases cell with
  | none =>
    obtain rfl : bytes = [] := sound
    rw [(Reader.passes_nil ⟨position, rest⟩).eq passes]
    rfl
  | some value =>
    obtain ⟨form, typed⟩ : ReadAs bytes value ∧ value.dataType = declared := sound
    subst typed
    obtain rfl : rest = bytes ++ after.rest := passes.1
    rw [← (Reader.passes_append position bytes after.rest).eq passes]
    simp only [Option.isSome_some, Reader.value_readAs form]

theorem walked_nil {mask : Mask} {index : Nat} {before after : Reader} {taken : List Taken} :
    Walked mask index before [] taken after ↔ taken = [] ∧ after = before := by
  constructor
  · rintro ⟨types, -, -, passes⟩
    obtain rfl := List.map_eq_nil_iff.mp types
    exact ⟨rfl, passes.eq before.passes_nil⟩
  · rintro ⟨rfl, rfl⟩
    exact ⟨rfl, trivial, by simp, after.passes_nil⟩

theorem walk_eq_ok_iff {place : Nat → Location} {mask : Mask} {index : Nat} {before after : Reader}
    {types : List DataType} {taken : List Taken} :
    walk place mask index before types = .ok (taken, after) ↔
      Walked mask index before types taken after := by
  induction types generalizing index before taken with
  | nil =>
    rw [walked_nil, walk]
    simp [eq_comm]
  | cons declared types ih =>
    constructor
    · intro done
      obtain ⟨cell, behind, others, met, walked, rfl⟩ := walk_cons_eq_ok done
      obtain ⟨tested, head, passes⟩ := cell_eq_ok met
      obtain ⟨types, presence, sound, onward⟩ := ih.mp walked
      exact ⟨congrArg _ types, ⟨tested, presence⟩, List.forall_mem_cons.mpr ⟨head, sound⟩,
        passes.append onward⟩
    · rintro ⟨listed, presence, sound, passes⟩
      cases taken with
      | nil => cases listed
      | cons head tail =>
        obtain ⟨rfl, rest⟩ := List.cons.inj listed
        obtain ⟨tested, presence⟩ := presence
        obtain ⟨first, sound⟩ := List.forall_mem_cons.mp sound
        obtain ⟨behind, here, onward⟩ := passes.split
        have met := cell_of_sound tested first here (place index)
        have walked := ih.mpr ⟨rest, presence, sound, onward⟩
        rw [walk]
        simp only [met, walked, bind, Except.bind, here.used_eq]

/-- A walk ends at its first cell that cannot be read, after all cells before it. -/
theorem walk_eq_error_iff {place : Nat → Location} {mask : Mask} {index : Nat} {before : Reader}
    {types : List DataType} {e : Error} : walk place mask index before types = .error e ↔
      ∃ column declared taken after, types[column]? = some declared ∧
        Walked mask index before (types.take column) taken after ∧
        after.cell mask (index + column) declared (place (index + column)) = .error e := by
  induction types generalizing index before with
  | nil => simp [walk]
  | cons declared types ih =>
    have next (column : Nat) : index + (column + 1) = index + 1 + column := by omega
    rw [walk_cons_eq_error_iff]
    constructor
    · rintro (failed | ⟨cell, behind, met, failed⟩)
      · exact ⟨0, declared, [], before, rfl, walked_nil.mpr ⟨rfl, rfl⟩, failed⟩
      · obtain ⟨column, last, taken, after, named, passed, stops⟩ := ih.mp failed
        refine ⟨column + 1, last, ⟨declared, cell, before.used behind⟩ :: taken, after, named, ?_,
          next column ▸ stops⟩
        rw [← @walk_eq_ok_iff place, List.take_succ_cons, walk_cons_of_ok met,
          walk_eq_ok_iff.mpr passed]
        rfl
    · rintro ⟨column, last, taken, after, named, passed, stops⟩
      cases column with
      | zero =>
        cases named
        obtain ⟨rfl, rfl⟩ := walked_nil.mp passed
        exact .inl stops
      | succ column =>
        obtain ⟨cell, behind, others, met, onward, rfl⟩ :=
          walk_cons_eq_ok ((@walk_eq_ok_iff place).mpr passed)
        rw [next] at stops
        exact .inr ⟨cell, behind, met,
          ih.mpr ⟨column, last, others, after, named, walk_eq_ok_iff.mp onward, stops⟩⟩

namespace RowBuffer

/-- Cells that are met are put behind those in the buffer, and decoding goes on from there. -/
theorem fillFrom_append {mask : Mask} {column : Nat} {before after : Reader}
    {types : List DataType} {taken : List Taken}
    (walked : walk (.cell 0) mask column before types = .ok (taken, after)) (buffer : RowBuffer)
    (more : List DataType) : fillFrom before mask column buffer (types ++ more) =
      fillFrom after mask (column + types.length) ⟨buffer.cells ++ taken.map Taken.cell⟩ more := by
  induction types generalizing column before taken buffer with
  | nil =>
    cases walked
    simp
  | cons declared types ih =>
    obtain ⟨cell, behind, others, met, rest, rfl⟩ := walk_cons_eq_ok walked
    have next : column + 1 + types.length = column + (types.length + 1) := by omega
    simp only [List.cons_append, fillFrom, met, ih rest, next, List.length_cons, push]
    simp

theorem fillFrom_of_ok {mask : Mask} {column : Nat} {before after : Reader}
    {types : List DataType} {taken : List Taken}
    (walked : walk (.cell 0) mask column before types = .ok (taken, after)) (buffer : RowBuffer) :
    fillFrom before mask column buffer types =
      (.ok (), ⟨buffer.cells ++ taken.map Taken.cell⟩) := by
  simpa only [List.append_nil, fillFrom] using fillFrom_append walked buffer []

/-- Where a cell cannot be read, those before it stay in the buffer. -/
theorem fillFrom_of_error {mask : Mask} {column : Nat} {before : Reader} {types : List DataType}
    {e : Error} (failed : walk (.cell 0) mask column before types = .error e)
    (buffer : RowBuffer) : ∃ number declared taken after, types[number]? = some declared ∧
      Walked mask column before (types.take number) taken after ∧
      after.cell mask (column + number) declared (.cell 0 (column + number)) = .error e ∧
      fillFrom before mask column buffer types =
        (.error e, ⟨buffer.cells ++ taken.map Taken.cell⟩) := by
  obtain ⟨number, declared, taken, after, named, passed, stops⟩ := walk_eq_error_iff.mp failed
  obtain ⟨inside, here⟩ := List.getElem?_eq_some_iff.mp named
  have split : types.take number ++ declared :: types.drop (number + 1) = types := by
    rw [← here, ← List.drop_eq_getElem_cons inside, List.take_append_drop]
  have filled := fillFrom_append (walk_eq_ok_iff.mpr passed) buffer
    (declared :: types.drop (number + 1))
  rw [split, List.length_take_of_le (Nat.le_of_lt inside)] at filled
  refine ⟨number, declared, taken, after, named, passed, stops, ?_⟩
  rw [filled, fillFrom, stops]

end RowBuffer

theorem decodeRow_eq_walk (values : Bytes) (mask : Mask) (types : List DataType) :
    decodeRow values mask types = (walk (.cell 0) mask 0 (.ofBytes values) types).map rowOf := by
  rw [decodeRow, RowBuffer.decode, RowBuffer.clear]
  cases walked : walk (.cell 0) mask 0 (.ofBytes values) types with
  | ok result =>
    have filled := RowBuffer.fillFrom_of_ok walked ⟨#[]⟩
    simp [filled, Except.map, rowOf]
  | error e =>
    obtain ⟨_, _, _, _, -, -, -, filled⟩ := RowBuffer.fillFrom_of_error walked ⟨#[]⟩
    rw [filled]
    rfl

/-- A decoded row comes from one walk. -/
theorem walked_of_decodeRow {values : Bytes} {mask : Mask} {types : List DataType} {row : Row}
    (decoded : decodeRow values mask types = .ok row) :
    ∃ taken after, walk (.cell 0) mask 0 (.ofBytes values) types = .ok (taken, after) ∧
      row = taken.map Taken.cell := by
  rw [decodeRow_eq_walk] at decoded
  cases walked : walk (.cell 0) mask 0 (.ofBytes values) types with
  | error e =>
    rw [walked] at decoded
    cases decoded
  | ok result =>
    rw [walked] at decoded
    cases decoded
    exact ⟨result.1, result.2, rfl, rfl⟩

theorem Walked.width {mask : Mask} {index : Nat} {before after : Reader} {types : List DataType}
    {taken : List Taken} (walked : Walked mask index before types taken after) :
    (taken.map Taken.cell).length = types.length := by
  rw [← walked.types, List.length_map, List.length_map]

/-- A walk has one outcome. -/
theorem Walked.unique {mask : Mask} {index : Nat} {before after other : Reader}
    {types : List DataType} {taken others : List Taken}
    (walked : Walked mask index before types taken after)
    (again : Walked mask index before types others other) : taken = others ∧ after = other := by
  have first : walk (.cell 0) mask index before types = _ := walk_eq_ok_iff.mpr walked
  have second : walk (.cell 0) mask index before types = _ := walk_eq_ok_iff.mpr again
  exact Prod.mk.inj (Except.ok.inj (first.symm.trans second))

/-- A cell together with the bytes that are written for it. -/
def Taken.of (cell : Cell × DataType) : Taken := ⟨cell.2, cell.1, cellBytes cell⟩

theorem Taken.of_sound {cell : Cell × DataType} (encodable : CellEncodable cell) :
    (Taken.of cell).Sound := by
  obtain ⟨cell, declared⟩ := cell
  cases cell with
  | none => rfl
  | some value => exact readAs_of_encodeValue (encodeValue_eq_cellBytes (encodable value rfl))

/-- One written cell is passed, whatever comes behind it. -/
theorem walk_cons_packed {cell : Cell × DataType} {mask : Mask} {index : Nat}
    (encodable : CellEncodable cell) (present : mask.test index = .ok cell.1.isSome)
    (place : Nat → Location) (position : Nat) (rest : Bytes) (types : List DataType) :
    walk place mask index ⟨position, cellBytes cell ++ rest⟩ (cell.2 :: types) =
      (walk place mask (index + 1) ⟨position + (cellBytes cell).length, rest⟩ types).map
        fun walked => (Taken.of cell :: walked.1, walked.2) := by
  have passes := Reader.passes_append position (cellBytes cell) rest
  have met := cell_of_sound present (Taken.of_sound encodable) passes (place index)
  rw [walk, show cell.2 = (Taken.of cell).declared from rfl, met]
  simp only [bind, Except.bind, passes.used_eq]
  cases walk place mask (index + 1) ⟨position + (cellBytes cell).length, rest⟩ types <;> rfl

/-- What was written for cells is walked as these cells, whatever comes behind it. -/
theorem walked_packed {cells : List (Cell × DataType)} {mask : Mask} {index : Nat}
    (encodable : ∀ cell ∈ cells, CellEncodable cell)
    (presence : Replays mask index (cells.map Prod.fst)) (position : Nat) (rest : Bytes) :
    Walked mask index ⟨position, cells.flatMap cellBytes ++ rest⟩ (cells.map Prod.snd)
      (cells.map Taken.of) ⟨position + (cells.flatMap cellBytes).length, rest⟩ := by
  have bytes : (cells.map Taken.of).flatMap Taken.bytes = cells.flatMap cellBytes :=
    List.flatMap_map ..
  refine ⟨?_, ?_, ?_, ?_⟩
  · exact List.map_map
  · rw [List.map_map]
    exact presence
  · intro taken member
    obtain ⟨cell, inside, rfl⟩ := List.mem_map.mp member
    exact Taken.of_sound (encodable cell inside)
  · rw [bytes]
    exact Reader.passes_append ..

theorem rowOf_packed (cells : List (Cell × DataType)) (after : Reader) :
    rowOf (cells.map Taken.of, after) = cells.map Prod.fst := List.map_map

theorem decodeRow_packed {cells : Row} {types : List DataType} {mask : Mask}
    (width : cells.length = types.length)
    (encodable : ∀ cell ∈ cells.zip types, CellEncodable cell) (presence : Replays mask 0 cells)
    (rest : Bytes) :
    decodeRow ((cells.zip types).flatMap cellBytes ++ rest) mask types = .ok cells := by
  have cellsOf := List.map_fst_zip (Nat.le_of_eq width)
  have typesOf := List.map_snd_zip (Nat.le_of_eq width.symm)
  rw [← cellsOf] at presence
  have walked := walked_packed encodable presence 0 rest
  rw [typesOf] at walked
  rw [decodeRow_eq_walk, Reader.ofBytes, walk_eq_ok_iff.mpr walked, Except.map, rowOf_packed,
    cellsOf]

theorem zip_replicate {α β : Type} (items : List α) (b : β) :
    items.zip (List.replicate items.length b) = items.map (·, b) := by
  induction items with
  | nil => rfl
  | cons item items ih => simp [List.replicate_succ, ih]

theorem decodeColumn_packed {cells : Row} {declared : DataType} {mask : Mask}
    (size : mask.capacity = cells.length)
    (encodable : ∀ cell ∈ cells.map (·, declared), CellEncodable cell)
    (presence : Replays mask 0 cells) (rest : Bytes) :
    decodeColumn ((cells.map (·, declared)).flatMap cellBytes ++ rest) mask declared =
      .ok cells := by
  have cellsOf : (cells.map (·, declared)).map Prod.fst = cells := by simp [Function.comp_def]
  have typesOf :
      (cells.map (·, declared)).map Prod.snd = List.replicate mask.capacity declared := by
    rw [List.map_map, size]
    exact List.map_const' ..
  rw [← cellsOf] at presence
  have walked := walked_packed encodable presence 0 rest
  rw [typesOf] at walked
  rw [decodeColumn_eq_walk, Reader.ofBytes, walk_eq_ok_iff.mpr walked, Except.map, rowOf_packed,
    cellsOf]

end SeriesClient.Wire
