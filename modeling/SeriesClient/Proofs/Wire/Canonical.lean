import SeriesClient.Proofs.Wire.Layout

/-! Which buffers are their own wire form. A reader forgives any byte for a truth value, text that
is not well-formed, bytes behind the last value, and padding: a decoded row is written back as the
buffers it came from when they make use of none of these, and only then. -/
namespace SeriesClient.Wire

/-- Buffers that leave the leeway of the reader unused: the mask has no spare bytes and no marks in
its padding, the walk ends with the values, and every value stands in the form that is written. -/
structure Canonical (types : List DataType) (bitmap : Bytes) (taken : List Taken)
    (after : Reader) : Prop where
  stored : bitmap.length = storageLength types.length
  padding : ∀ i ≥ types.length, (Mask.view types.length bitmap).bit i = false
  finished : after.rest = []
  plain : ∀ place ∈ taken, place.cell.isSome → Plain place.declared place.bytes

/-- The cell and the type it was read under. -/
def Taken.typed (taken : Taken) : Cell × DataType := (taken.cell, taken.declared)

/-- A cell is written as the bytes it was read from when they are plain, and only then. -/
theorem cellBytes_eq_iff {place : Taken} (sound : place.Sound) :
    (CellEncodable place.typed ∧ cellBytes place.typed = place.bytes) ↔
      (place.cell.isSome → Plain place.declared place.bytes) := by
  obtain ⟨declared, cell, bytes⟩ := place
  cases cell with
  | none =>
    obtain rfl : bytes = [] := sound
    simp [CellEncodable, Taken.typed, cellBytes]
  | some value =>
    obtain ⟨form, rfl⟩ : ReadAs bytes value ∧ value.dataType = declared := sound
    constructor
    · rintro ⟨encodable, same⟩ -
      have written : encodeValue value.dataType value = _ :=
        encodeValue_eq_cellBytes (encodable value rfl)
      rw [show cellBytes (some value, value.dataType) = bytes from same] at written
      exact (encodeValue_readAs_iff form).mp written
    · intro plain
      have written := (encodeValue_readAs_iff form).mpr (plain rfl)
      constructor
      · rintro value ⟨⟩
        exact encodable_of_encodeValue written
      · simp only [Taken.typed, cellBytes, written]

namespace Walked
variable {types : List DataType} {mask : Mask} {before after : Reader} {taken : List Taken}

theorem zip (walked : Walked mask 0 before types taken after) :
    (taken.map Taken.cell).zip types = taken.map Taken.typed := by
  rw [← walked.types, List.zip_map']
  rfl

theorem presence_test (walked : Walked mask 0 before types taken after) (i : Nat)
    (inside : i < (taken.map Taken.cell).length) :
    mask.test i = .ok (taken.map Taken.cell)[i].isSome := by
  have tested := replays_iff.mp walked.presence i inside
  rwa [Nat.zero_add] at tested

theorem typed (walked : Walked mask 0 before types taken after) {i : Nat}
    (here : i < (taken.map Taken.cell).length) (typed : i < types.length) :
    ∀ value ∈ (taken.map Taken.cell)[i], value.dataType = types[i] := by
  obtain rfl := walked.types
  intro value present
  rw [List.getElem_map] at present ⊢
  have inside : i < taken.length := List.length_map Taken.cell ▸ here
  have sound := walked.sound _ (List.getElem_mem inside)
  rw [Taken.Sound, Option.mem_def.mp present] at sound
  exact sound.2

end Walked

section Received
variable {types : List DataType} {values bitmap : Bytes} {taken : List Taken} {after : Reader}

/-- Walking over what was written meets the cells in the form that is written. -/
theorem canonical_of_reencoded {encoded : Encoded}
    (walked : Walked (.view types.length bitmap) 0 (.ofBytes values) types taken after)
    (done : encodeRow (taken.map Taken.cell) types = .ok encoded)
    (sameValues : encoded.values = values) (sameBitmap : encoded.mask.bytes = bitmap) :
    Canonical types bitmap taken after := by
  subst sameValues sameBitmap
  have lays := lays_of_encodeRowAt done
  have packs := (packs_of_encodeRowAt done).2
  rw [walked.zip] at packs
  have presence : Replays (.view types.length encoded.mask.bytes) 0
      ((taken.map Taken.typed).map Prod.fst) := by
    rw [List.map_map]
    exact walked.presence
  have again := walked_packed packs.encodable presence 0 []
  have typesOf : (taken.map Taken.typed).map Prod.snd = types := by
    rw [List.map_map]
    exact walked.types
  rw [List.append_nil, ← packs.values, typesOf] at again
  obtain ⟨same, ended⟩ := walked.unique again
  have size := walked.width
  constructor
  case stored => exact size ▸ lays.stored
  case padding => exact fun i outside => lays.padding i (size ▸ outside)
  case finished => rw [ended]
  case plain =>
    intro place member
    have written : place ∈ (taken.map Taken.typed).map Taken.of := same ▸ member
    rw [List.map_map] at written
    obtain ⟨place, -, rfl⟩ := List.mem_map.mp written
    apply (cellBytes_eq_iff (walked.sound _ member)).mp
    exact ⟨packs.encodable _ (List.mem_map_of_mem member), rfl⟩

theorem reencoded_of_canonical
    (walked : Walked (.view types.length bitmap) 0 (.ofBytes values) types taken after)
    (canonical : Canonical types bitmap taken after) :
    ∃ encoded, encodeRow (taken.map Taken.cell) types = .ok encoded ∧
      encoded.values = values ∧ encoded.mask.bytes = bitmap := by
  have plain (place : Taken) (member : place ∈ taken) :=
    (cellBytes_eq_iff (walked.sound place member)).mpr (canonical.plain place member)
  have encodable : ∀ cell ∈ (taken.map Taken.cell).zip types, CellEncodable cell := by
    rw [walked.zip]
    intro cell member
    obtain ⟨place, inside, rfl⟩ := List.mem_map.mp member
    exact (plain place inside).1
  obtain ⟨encoded, done, packs⟩ := encodeRowAt_packs walked.width encodable 0
  have lays := lays_of_encodeRowAt done
  refine ⟨encoded, done, ?_, ?_⟩
  · have bytes : (taken.map Taken.typed).flatMap cellBytes = taken.flatMap Taken.bytes := by
      rw [List.flatMap_map]
      exact List.flatMap_congr fun place member => (plain place member).2
    have buffer : values = taken.flatMap Taken.bytes ++ after.rest := walked.passes.1
    rw [packs.values, walked.zip, bytes, buffer, canonical.finished, List.append_nil]
  · have size : encoded.mask.bytes.length = (Mask.view types.length bitmap).bytes.length := by
      rw [lays.stored, walked.width]
      exact canonical.stored.symm
    refine Mask.bytes_eq_of_bit size ?_
    intro i
    by_cases inside : i < types.length
    · have inside := walked.width.symm ▸ inside
      rw [Mask.bit_of_test (lays.marks i inside), Mask.bit_of_test (walked.presence_test i inside)]
    · have outside := Nat.le_of_not_lt inside
      rw [canonical.padding i outside, lays.padding i (walked.width.symm ▸ outside)]

end Received

/-- A decoded row has a cell for each type, present where the mask has a mark. It is written back as
the buffers it was read from when these are canonical, and only then; and whatever is written for a
row is read as that row. -/
theorem reencoded_iff_canonical :
    (∀ (types : List DataType) (values bitmap : Bytes) (row : Row),
      decodeRow values (.view types.length bitmap) types = .ok row →
        row.length = types.length ∧
        (∀ i (here : i < row.length) (typed : i < types.length),
          row[i].isSome = (Mask.view types.length bitmap).bit i ∧
          ∀ value ∈ row[i], value.dataType = types[i]) ∧
        ∃ taken after,
          walk (.cell 0) (.view types.length bitmap) 0 (.ofBytes values) types =
            .ok (taken, after) ∧
          row = taken.map Taken.cell ∧ values = taken.flatMap Taken.bytes ++ after.rest ∧
          ((∃ encoded, encodeRow row types = .ok encoded ∧ encoded.values = values ∧
            encoded.mask.bytes = bitmap) ↔ Canonical types bitmap taken after)) ∧
    ∀ (types : List DataType) (row : Row) (encoded : Encoded),
      encodeRow row types = .ok encoded →
        decodeRow encoded.values (.view types.length encoded.mask.bytes) types = .ok row := by
  constructor
  · intro types values bitmap row decoded
    obtain ⟨taken, after, done, rfl⟩ := walked_of_decodeRow decoded
    have walked := walk_eq_ok_iff.mp done
    refine ⟨walked.width, ?_, taken, after, done, rfl, walked.passes.1, ?_⟩
    · intro i here typed
      constructor
      · exact (Mask.bit_of_test (walked.presence_test i here)).symm
      · exact walked.typed here typed
    · constructor
      · rintro ⟨encoded, written, sameValues, sameBitmap⟩
        exact canonical_of_reencoded walked written sameValues sameBitmap
      · exact reencoded_of_canonical walked
  · intro types row encoded written
    have read := (lays_of_encodeRowAt written).readBack
    rwa [(packs_of_encodeRowAt written).1] at read

/-- A truth value of 2, a text that is not well-formed, and a byte behind it. -/
def loose : Bytes := [2, 0, 0, 0, 1, 0xFF, 9]

/-- Marks in the padding, and a byte too many. -/
def looseMask : Bytes := [0xF3, 5]

def looseTypes : List DataType := [.boolean, .binary, .long]

/-- What is read from them. -/
def looseRow : Row := [some (.boolean true), some (.binary "\uFFFD"), none]

theorem loose_not_reencoded :
    decodeRow loose (.view 3 looseMask) looseTypes = .ok looseRow ∧
    (¬ ∃ encoded, encodeRow looseRow looseTypes = .ok encoded ∧ encoded.values = loose ∧
      encoded.mask.bytes = looseMask) ∧
    ∃ encoded, encodeRow looseRow looseTypes = .ok encoded ∧
      decodeRow encoded.values (.view 3 encoded.mask.bytes) looseTypes = .ok looseRow := by
  obtain ⟨reencodes, reads⟩ := reencoded_iff_canonical
  have decoded : decodeRow loose (.view 3 looseMask) looseTypes = .ok looseRow := by decide +kernel
  obtain ⟨-, -, taken, after, -, -, -, canonical⟩ := reencodes looseTypes _ _ _ decoded
  refine ⟨decoded, ?_, ?_⟩
  · intro same
    have size := (canonical.mp same).stored
    contradiction
  · have width : looseRow.length = looseTypes.length := rfl
    obtain ⟨encoded, written, -⟩ := encodeRowAt_packs width (by decide) 0
    exact ⟨encoded, written, reads _ _ _ written⟩

end SeriesClient.Wire
