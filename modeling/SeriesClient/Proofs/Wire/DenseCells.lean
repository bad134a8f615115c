import SeriesClient.Proofs.Wire.Presence
import SeriesClient.Proofs.Wire.ValueForms
import SeriesClient.Wire.Cells

/-! The dense layout of cells: the bytes of the present values back to back, and a mark for each.
Encodable cells are written in this layout, and others are refused. -/
namespace SeriesClient.Wire

/-- Bytes that the length of a text counts; other values have none. -/
def textSize : Value → Nat
  | .binary text => (Utf8.encode text).length
  | _ => 0

/-- A value that its declared type and the length prefix of texts allow. -/
def Encodable (declared : DataType) (value : Value) : Prop :=
  value.dataType = declared ∧ textSize value ≤ maxTextBytes

instance (declared : DataType) (value : Value) : Decidable (Encodable declared value) :=
  inferInstanceAs (Decidable (_ ∧ _))

/-- An absent cell can stand in every place. -/
def CellEncodable (cell : Cell × DataType) : Prop := ∀ value ∈ cell.1, Encodable cell.2 value

instance (cell : Cell × DataType) : Decidable (CellEncodable cell) :=
  inferInstanceAs (Decidable (∀ value ∈ cell.1, _))

/-- Bytes of a cell in the dense layout; an absent cell has none. -/
def cellBytes : Cell × DataType → Bytes
  | (none, _) => []
  | (some value, declared) => match encodeValue declared value with
    | .ok bytes => bytes
    | .error _ => []

theorem encodeValue_eq_cellBytes {declared : DataType} {value : Value}
    (encodable : Encodable declared value) :
    encodeValue declared value = .ok (cellBytes (some value, declared)) := by
  obtain ⟨rfl, short⟩ := encodable
  cases value with
  | binary text =>
    have fits : textBytes text = .ok (bigEndian 4 (Utf8.encode text).length ++ Utf8.encode text) :=
      if_pos short
    simp only [cellBytes, Value.dataType, encodeValue, fits]
  | _ => rfl

theorem encodeValue_of_ne {declared : DataType} {value : Value}
    (differs : value.dataType ≠ declared) :
    encodeValue declared value = .error (.typeMismatch .value declared value.dataType) := by
  cases value <;> cases declared <;> first | rfl | exact absurd rfl differs

/-- Why a value is not written under a type. -/
inductive Refusal (declared : DataType) (value : Value) : Error → Prop
  | mismatch (differs : value.dataType ≠ declared) :
    Refusal declared value (.typeMismatch .value declared value.dataType)
  | tooLong (typed : value.dataType = declared) (long : maxTextBytes < textSize value) :
    Refusal declared value (.invalid (.textTooLong (textSize value)))

theorem Refusal.encodeValue_eq {declared : DataType} {value : Value} {e : Error}
    (refusal : Refusal declared value e) : encodeValue declared value = .error e := by
  cases refusal with
  | mismatch differs => exact encodeValue_of_ne differs
  | tooLong typed long =>
    subst typed
    cases value with
    | binary text => exact if_neg (Nat.not_le.mpr long)
    | _ => exact absurd long (Nat.not_lt_zero _)

theorem encodable_or_refused (declared : DataType) (value : Value) :
    Encodable declared value ∨ ∃ e, Refusal declared value e := by
  by_cases typed : value.dataType = declared
  · by_cases short : textSize value ≤ maxTextBytes
    · exact .inl ⟨typed, short⟩
    · exact .inr ⟨_, .tooLong typed (Nat.lt_of_not_le short)⟩
  · exact .inr ⟨_, .mismatch typed⟩

theorem encodeValue_eq_error_iff {declared : DataType} {value : Value} {e : Error} :
    encodeValue declared value = .error e ↔ Refusal declared value e := by
  constructor
  · intro failed
    rcases encodable_or_refused declared value with encodable | ⟨e', refusal⟩
    · cases failed.symm.trans (encodeValue_eq_cellBytes encodable)
    · cases failed.symm.trans refusal.encodeValue_eq
      exact refusal
  · exact Refusal.encodeValue_eq

/-- Present places of cells that stand from place `index` on. -/
def presentFrom (index : Nat) (cells : List (Cell × DataType)) (place : Nat) : Bool :=
  index ≤ place && (cells[place - index]?).any (·.1.isSome)

theorem presentFrom_of_lt {index place : Nat} (earlier : place < index)
    (cells : List (Cell × DataType)) : presentFrom index cells place = false := by
  rw [presentFrom, decide_eq_false (Nat.not_le.mpr earlier), Bool.false_and]

theorem presentFrom_cons (index : Nat) (cell : Cell × DataType) (cells : List (Cell × DataType))
    (place : Nat) : presentFrom index (cell :: cells) place =
      ((index == place && cell.1.isSome) || presentFrom (index + 1) cells place) := by
  rcases Nat.lt_trichotomy index place with later | rfl | earlier
  · have next : place - index = place - (index + 1) + 1 := by omega
    simp [presentFrom, next, Nat.le_of_lt later, Nat.succ_le_of_lt later, Nat.ne_of_lt later]
  · rw [presentFrom_of_lt (Nat.lt_succ_self index)]
    simp [presentFrom]
  · rw [presentFrom_of_lt earlier, presentFrom_of_lt (Nat.lt_succ_of_lt earlier)]
    simp [Nat.ne_of_gt earlier]

theorem encodeFrom_eq {cells : List (Cell × DataType)} {mask : Mask} {index : Nat}
    (sized : mask.Sized) (room : index + cells.length ≤ mask.capacity)
    (encodable : ∀ cell ∈ cells, CellEncodable cell) (place : Nat → Location) :
    ∃ marks, encodeFrom place index mask cells = .ok ⟨cells.flatMap cellBytes, marks⟩ ∧
      marks.capacity = mask.capacity ∧ marks.Sized ∧
      ∀ i, marks.bit i = (mask.bit i || presentFrom index cells i) := by
  induction cells generalizing mask index with
  | nil => exact ⟨mask, rfl, rfl, sized, fun i => by simp [presentFrom]⟩
  | cons cell cells ih =>
    obtain ⟨head, tail⟩ := List.forall_mem_cons.mp encodable
    rw [List.length_cons] at room
    obtain ⟨cell, declared⟩ := cell
    cases cell with
    | none =>
      obtain ⟨marks, encoded, capacity, full, bits⟩ := @ih mask (index + 1) sized (by omega) tail
      refine ⟨marks, encoded, capacity, full, ?_⟩
      intro i
      rw [bits, presentFrom_cons]
      simp
    | some value =>
      have inside : index < mask.capacity := by omega
      have there := sized.byte inside
      obtain ⟨marks, encoded, capacity, full, bits⟩ := @ih (mask.marked index) (index + 1)
        (Mask.marked_sized sized index) (by rw [Mask.capacity_marked]; omega) tail
      have bytes := encodeValue_eq_cellBytes (head value rfl)
      refine ⟨marks, ?_, capacity.trans (Mask.capacity_marked mask index), full, ?_⟩
      · simp only [encodeFrom, Mask.mark_eq_marked inside there, bytes, encoded]
        rfl
      · intro i
        rw [bits, Mask.bit_marked inside there, presentFrom_cons]
        simp [Bool.or_assoc, Bool.or_comm, Bool.or_left_comm]

/-- The mask, asked from place `index` on, tells which of the cells are present. -/
def Replays (mask : Mask) : (index : Nat) → Row → Prop
  | _, [] => True
  | index, cell :: cells => mask.test index = .ok cell.isSome ∧ Replays mask (index + 1) cells

theorem replays_iff {mask : Mask} {index : Nat} {cells : Row} : Replays mask index cells ↔
    ∀ i (inside : i < cells.length), mask.test (index + i) = .ok cells[i].isSome := by
  induction cells generalizing index with
  | nil => simp [Replays]
  | cons cell cells ih =>
    have next (i : Nat) : index + (i + 1) = index + 1 + i := by omega
    rw [Replays, ih]
    constructor
    · rintro ⟨first, rest⟩ i inside
      cases i with
      | zero => exact first
      | succ i =>
        rw [List.getElem_cons_succ, next]
        exact rest i (Nat.lt_of_succ_lt_succ inside)
    · intro all
      refine ⟨all 0 (Nat.succ_pos _), ?_⟩
      intro i inside
      have later := all (i + 1) (Nat.succ_lt_succ inside)
      rw [List.getElem_cons_succ, next] at later
      exact later

theorem replays_append {mask : Mask} {index : Nat} {before behind : Row} :
    Replays mask index (before ++ behind) ↔
      Replays mask index before ∧ Replays mask (index + before.length) behind := by
  induction before generalizing index with
  | nil => simp [Replays]
  | cons cell before ih =>
    rw [List.cons_append, Replays, Replays, ih, and_assoc, List.length_cons, Nat.add_assoc,
      Nat.add_comm 1]

/-- What is written for cells: the bytes of all of them, and a mask with a mark for each present
one and for nothing else. -/
structure Packs (cells : List (Cell × DataType)) (encoded : Encoded) : Prop where
  encodable : ∀ cell ∈ cells, CellEncodable cell
  values : encoded.values = cells.flatMap cellBytes
  capacity : encoded.mask.capacity = cells.length
  sized : encoded.mask.Sized
  marks : ∀ i, encoded.mask.bit i = presentFrom 0 cells i

/-- Writing encodable cells onto an empty mask succeeds. -/
theorem encodeFrom_empty {cells : List (Cell × DataType)}
    (encodable : ∀ cell ∈ cells, CellEncodable cell) (place : Nat → Location) :
    ∃ encoded, encodeFrom place 0 (.empty cells.length) cells = .ok encoded ∧
      Packs cells encoded := by
  obtain ⟨marks, written, capacity, sized, bits⟩ := encodeFrom_eq (Mask.empty_sized cells.length)
    (Nat.le_of_eq (Nat.zero_add _)) encodable place
  refine ⟨_, written, encodable, rfl, capacity, sized, ?_⟩
  intro i
  rw [bits, Mask.bit_empty, Bool.false_or]

theorem encodable_of_encodeValue {declared : DataType} {value : Value} {bytes : Bytes}
    (written : encodeValue declared value = .ok bytes) : Encodable declared value := by
  refine ⟨(readAs_of_encodeValue written).2, ?_⟩
  cases value with
  | binary text =>
    cases declared <;> simp only [encodeValue, reduceCtorEq] at written
    rw [textBytes] at written
    split at written
    · assumption
    · cases written
  | _ => exact Nat.zero_le _

/-- No other cells are written. -/
theorem encodable_of_encodeFrom {cells : List (Cell × DataType)} {place : Nat → Location}
    {index : Nat} {mask : Mask} {encoded : Encoded}
    (done : encodeFrom place index mask cells = .ok encoded) :
    ∀ cell ∈ cells, CellEncodable cell := by
  induction cells generalizing index mask encoded with
  | nil => simp
  | cons cell cells ih =>
    obtain ⟨cell, declared⟩ := cell
    rw [List.forall_mem_cons]
    cases cell with
    | none => exact ⟨by simp [CellEncodable], ih done⟩
    | some value =>
      rw [encodeFrom] at done
      split at done
      · cases done
      · rename_i marked _
        cases written : encodeValue declared value with
        | error e =>
          rw [written] at done
          cases done
        | ok bytes =>
          cases onward : encodeFrom place (index + 1) marked cells with
          | error e =>
            rw [written, onward] at done
            cases done
          | ok rest =>
            refine ⟨?_, ih onward⟩
            rintro value ⟨⟩
            exact encodable_of_encodeValue written

theorem packs_of_encodeFrom {cells : List (Cell × DataType)} {place : Nat → Location}
    {encoded : Encoded} (done : encodeFrom place 0 (.empty cells.length) cells = .ok encoded) :
    Packs cells encoded := by
  obtain ⟨same, written, packs⟩ := encodeFrom_empty (encodable_of_encodeFrom done) place
  cases written.symm.trans done
  exact packs

theorem Packs.test {cells : List (Cell × DataType)} {encoded : Encoded}
    (packs : Packs cells encoded) {i : Nat} (inside : i < cells.length) :
    encoded.mask.test i = .ok cells[i].1.isSome := by
  rw [Mask.test_eq_bit packs.sized (packs.capacity ▸ inside), packs.marks]
  simp [presentFrom, inside]

/-- A mask that at first answers like the one written replays the first cells. -/
theorem Packs.replays {cells : List (Cell × DataType)} {encoded : Encoded}
    (packs : Packs cells encoded) {mask : Mask} (many : Nat)
    (alike : ∀ i < many, mask.test i = encoded.mask.test i) :
    Replays mask 0 ((cells.take many).map Prod.fst) := by
  rw [replays_iff]
  intro i inside
  rw [List.length_map, List.length_take, Nat.lt_min] at inside
  rw [Nat.zero_add, alike i inside.1, packs.test inside.2, List.getElem_map, List.getElem_take]

theorem encodeRowAt_packs {cells : Row} {types : List DataType}
    (width : cells.length = types.length)
    (encodable : ∀ cell ∈ cells.zip types, CellEncodable cell) (row : Nat) :
    ∃ encoded, encodeRowAt row cells types = .ok encoded ∧ Packs (cells.zip types) encoded := by
  have count : (cells.zip types).length = cells.length := by simp [width]
  obtain ⟨encoded, written, packs⟩ := encodeFrom_empty encodable (.cell row)
  refine ⟨encoded, ?_, packs⟩
  rw [encodeRowAt, if_neg (not_not_intro width), ← count]
  exact written

theorem packs_of_encodeRowAt {row : Nat} {cells : Row} {types : List DataType} {encoded : Encoded}
    (done : encodeRowAt row cells types = .ok encoded) :
    cells.length = types.length ∧ Packs (cells.zip types) encoded := by
  rw [encodeRowAt] at done
  split at done
  · cases done
  · rename_i width
    have width := Decidable.not_not.mp width
    have count : cells.length = (cells.zip types).length := by simp [width]
    rw [count] at done
    exact ⟨width, packs_of_encodeFrom done⟩

theorem encodeColumnAt_packs {cells : Row} {declared : DataType}
    (encodable : ∀ cell ∈ cells, CellEncodable (cell, declared)) (column : Nat) :
    ∃ encoded, encodeColumnAt column cells declared = .ok encoded ∧
      Packs (cells.map (·, declared)) encoded := by
  have all : ∀ cell ∈ cells.map (·, declared), CellEncodable cell := by
    intro cell member
    obtain ⟨cell, inside, rfl⟩ := List.mem_map.mp member
    exact encodable cell inside
  obtain ⟨encoded, written, packs⟩ := encodeFrom_empty all (.cell · column)
  rw [List.length_map] at written
  exact ⟨encoded, written, packs⟩

theorem packs_of_encodeColumnAt {column : Nat} {cells : Row} {declared : DataType}
    {encoded : Encoded} (done : encodeColumnAt column cells declared = .ok encoded) :
    Packs (cells.map (·, declared)) encoded := by
  rw [encodeColumnAt, ← List.length_map (·, declared)] at done
  exact packs_of_encodeFrom done

end SeriesClient.Wire
