import SeriesClient.Proofs.Wire.ReceivedRow

/-! One buffer for many rows. What it holds after a row comes from this row alone: all of its cells,
or those in front of the first column that holds none, which is also what the row is refused for. -/
namespace SeriesClient.Wire

/-- What a row is decoded from. -/
structure Parcel where
  values : Bytes
  mask : Mask
  types : List DataType

/-- Why a column holds no cell for a reader that stands before it: the mask has no room for its bit,
or lacks the byte, or the bit marks a value that cannot be read. -/
inductive Halts (mask : Mask) (column : Nat) (declared : DataType) (reader : Reader) :
    Error → Prop
  | outside (beyond : mask.capacity ≤ column) :
    Halts mask column declared reader (.range column mask.capacity)
  | missing (inside : column < mask.capacity) (gone : mask.bytes.length ≤ column / 8) :
    Halts mask column declared reader (.corrupted .bitmap (.missingBit column))
  | unreadable {damage : Damage} (marked : mask.test column = .ok true)
    (broken : Unreadable reader declared damage) :
    Halts mask column declared reader (.corrupted (.cell 0 column) damage)

theorem cell_eq_error_iff {mask : Mask} {column : Nat} {declared : DataType} {reader : Reader}
    {e : Error} : reader.cell mask column declared (.cell 0 column) = .error e ↔
      Halts mask column declared reader e := by
  by_cases inside : column < mask.capacity
  · rw [Reader.cell_error_iff inside]
    constructor
    · rintro (⟨gone, rfl⟩ | ⟨marked, damage, rfl, broken⟩)
      · exact .missing inside gone
      · exact .unreadable marked broken
    · rintro (beyond | ⟨-, gone⟩ | ⟨marked, broken⟩)
      · exact absurd inside (Nat.not_lt.mpr beyond)
      · exact .inl ⟨gone, rfl⟩
      · exact .inr ⟨marked, _, rfl, broken⟩
  · have beyond := Nat.le_of_not_lt inside
    rw [Reader.cell, Mask.test, if_pos beyond]
    constructor
    · rintro ⟨⟩
      exact .outside beyond
    · rintro (- | ⟨inside', -⟩ | ⟨marked, -⟩)
      · rfl
      · exact absurd inside' inside
      · exact absurd (Mask.test_eq_ok_iff.mp marked).1 inside

/-- What a row leaves in a buffer, beside the answer. -/
inductive Parcel.Leaves (parcel : Parcel) : Except Error Unit × Row → Prop
  | whole {taken : List Taken} {after : Reader}
    (walked : Walked parcel.mask 0 (.ofBytes parcel.values) parcel.types taken after) :
    Leaves parcel (.ok (), taken.map Taken.cell)
  | broken {column : Nat} {declared : DataType} {taken : List Taken} {after : Reader} {e : Error}
    (named : parcel.types[column]? = some declared)
    (before : Walked parcel.mask 0 (.ofBytes parcel.values) (parcel.types.take column) taken after)
    (halts : Halts parcel.mask column declared after e) :
    Leaves parcel (.error e, taken.map Taken.cell)

namespace RowBuffer

/-- Decodes each row over what the one before it has left. -/
def decodeEach (buffer : RowBuffer) : List Parcel → List (Except Error Unit × Row)
  | [] => []
  | parcel :: parcels =>
    let (answer, buffer) := buffer.decode parcel.values parcel.mask parcel.types
    (answer, buffer.cells.toList) :: buffer.decodeEach parcels

end RowBuffer

namespace Parcel

/-- The answer and the cells of a row in a buffer of its own. -/
def alone (parcel : Parcel) : Except Error Unit × Row :=
  let (answer, buffer) := (RowBuffer.mk #[]).decode parcel.values parcel.mask parcel.types
  (answer, buffer.cells.toList)

theorem alone_of_filled {parcel : Parcel} {answer : Except Error Unit} {cells : Row}
    (filled : RowBuffer.fillFrom (.ofBytes parcel.values) parcel.mask 0 ⟨#[]⟩ parcel.types =
      (answer, ⟨(#[] : Array Cell) ++ cells⟩)) : parcel.alone = (answer, cells) := by
  simp [alone, RowBuffer.decode, RowBuffer.clear, filled]

theorem alone_leaves (parcel : Parcel) : parcel.Leaves parcel.alone := by
  cases walked : walk (.cell 0) parcel.mask 0 (.ofBytes parcel.values) parcel.types with
  | ok result =>
    rw [alone_of_filled (RowBuffer.fillFrom_of_ok walked ⟨#[]⟩)]
    exact .whole (walk_eq_ok_iff.mp walked)
  | error e =>
    obtain ⟨column, declared, taken, after, named, before, stops, filled⟩ :=
      RowBuffer.fillFrom_of_error walked ⟨#[]⟩
    rw [Nat.zero_add] at stops
    rw [alone_of_filled filled]
    exact .broken named before (cell_eq_error_iff.mp stops)

theorem decodeRow_eq_ok_iff {parcel : Parcel} {row : Row} :
    decodeRow parcel.values parcel.mask parcel.types = .ok row ↔ parcel.alone = (.ok (), row) := by
  rw [decodeRow, alone]
  cases (RowBuffer.mk #[]).decode parcel.values parcel.mask parcel.types with
  | mk answer buffer => cases answer <;> simp

theorem decodeRow_eq_error_iff {parcel : Parcel} {e : Error} :
    decodeRow parcel.values parcel.mask parcel.types = .error e ↔ parcel.alone.1 = .error e := by
  rw [decodeRow, alone]
  cases (RowBuffer.mk #[]).decode parcel.values parcel.mask parcel.types with
  | mk answer buffer => cases answer <;> simp

end Parcel

/-- However many rows a buffer has held, and whether they were decoded or refused, each row finds it
like new. -/
theorem RowBuffer.decodeEach_eq (buffer : RowBuffer) (parcels : List Parcel) :
    buffer.decodeEach parcels = parcels.map Parcel.alone := by
  induction parcels generalizing buffer with
  | nil => rfl
  | cons parcel parcels ih => exact congrArg (parcel.alone :: ·) (ih _)

/-- Rows that are decoded one after the other into one buffer answer as they do on their own, and
leave what they leave on their own: the row, or, where it is refused, the cells in front of the
first column that holds none. -/
theorem rows_decoded_afresh :
    (∀ (buffer : RowBuffer) (parcels : List Parcel),
      buffer.decodeEach parcels = parcels.map Parcel.alone) ∧
    ∀ parcel : Parcel,
      (∀ row, decodeRow parcel.values parcel.mask parcel.types = .ok row ↔
        parcel.alone = (.ok (), row)) ∧
      (∀ e, decodeRow parcel.values parcel.mask parcel.types = .error e ↔
        parcel.alone.1 = .error e) ∧
      parcel.Leaves parcel.alone := by
  refine ⟨RowBuffer.decodeEach_eq, ?_⟩
  intro parcel
  exact ⟨fun _ => Parcel.decodeRow_eq_ok_iff, fun _ => Parcel.decodeRow_eq_error_iff,
    parcel.alone_leaves⟩

/-- Over one buffer: a row, a mask without room for the second column, a value cut short behind one
that is not, a mask without bytes, and a row again. -/
example : (RowBuffer.mk #[none, none]).decodeEach
    [⟨[7], .view 1 [1], [.boolean]⟩, ⟨[0], .view 1 [1], [.boolean, .long]⟩,
      ⟨[1, 0], .view 2 [3], [.boolean, .integer]⟩, ⟨[], .view 1 [], [.long]⟩,
      ⟨[], .view 1 [0], [.long]⟩] =
    [(.ok (), [some (.boolean true)]), (.error (.range 1 1), [some (.boolean false)]),
      (.error (.corrupted (.cell 0 1) (.shortRead 4 1 1)), [some (.boolean true)]),
      (.error (.corrupted .bitmap (.missingBit 0)), []), (.ok (), [none])] := rfl

end SeriesClient.Wire
