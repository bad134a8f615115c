import SeriesClient.Proofs.Wire.Walk

/-! A row as received, a value buffer and a mask buffer, and what it is refused for. A value cannot
be read exactly when its bytes run short or announce a text of negative length, and a row is refused
in the first of its columns where the mask has no bit or the value it marks cannot be read. -/
namespace SeriesClient.Wire

/-- Decodes a row as received, over columns of these types. -/
def readRow (types : List DataType) (row : Bytes × Bytes) : Except Error Row :=
  decodeRow row.1 (.view types.length row.2) types

/-- What a row is refused for: damage to a cell, by its column, or to the mask. -/
inductive RowDamage : Error → Prop
  | cell (column : Nat) (damage : Damage) : RowDamage (.corrupted (.cell 0 column) damage)
  | mask (damage : Damage) : RowDamage (.corrupted .bitmap damage)

namespace Reader

/-- The length that stands in front of a text. -/
def announced (reader : Reader) : Int := (int32OfBytes (reader.rest.take 4)).toInt

end Reader

/-- Why no value of a type begins where a reader stands. -/
inductive Unreadable (reader : Reader) : DataType → Damage → Prop
  | value {declared : DataType} {width : Nat} (fixed : declared.fixedWidth = some width)
    (short : reader.remaining < width) :
    Unreadable reader declared (.shortRead width reader.position reader.remaining)
  | length (short : reader.remaining < 4) :
    Unreadable reader .binary (.shortRead 4 reader.position reader.remaining)
  | negative (there : 4 ≤ reader.remaining) (below : reader.announced < 0) :
    Unreadable reader .binary (.negativeLength reader.announced)
  | text {bytes : Nat} (there : 4 ≤ reader.remaining) (counts : reader.announced = bytes)
    (short : reader.remaining - 4 < bytes) :
    Unreadable reader .binary (.shortRead bytes (reader.position + 4) (reader.remaining - 4))

namespace Reader

theorem fixed_error_iff {α : Type} {count : Nat} {meaning : Bytes → α} {reader : Reader}
    {e : Error} : (fixed count meaning reader).1 = .error e ↔
      reader.remaining < count ∧
        e = .corrupted .value (.shortRead count reader.position reader.remaining) := by
  by_cases short : reader.remaining < count
  · rw [fixed, take_of_lt reader count short]
    simp [Except.map, short, eq_comm]
  · rw [fixed, take_of_le reader count (Nat.le_of_not_lt short)]
    simp [Except.map, short]

theorem fixed_eq_error {α : Type} {count : Nat} {meaning : Bytes → α} {before after : Reader}
    {e : Error} (failed : fixed count meaning before = (.error e, after)) : after = before := by
  have short := (fixed_error_iff.mp (congrArg Prod.fst failed)).1
  rw [fixed_short short] at failed
  exact (congrArg Prod.snd failed).symm

theorem unreadable_iff_of_fixed {declared : DataType} {width : Nat}
    (fixed : declared.fixedWidth = some width) {reader : Reader} {damage : Damage} :
    Unreadable reader declared damage ↔ reader.remaining < width ∧
      damage = .shortRead width reader.position reader.remaining := by
  constructor
  · intro unreadable
    cases unreadable with
    | value fixed' short =>
      cases fixed.symm.trans fixed'
      exact ⟨short, rfl⟩
    | length => cases fixed
    | negative => cases fixed
    | text => cases fixed
  · rintro ⟨short, rfl⟩
    exact .value fixed short

theorem text_of_short {reader : Reader} (short : reader.remaining < 4) :
    reader.text.1 =
      .error (.corrupted .value (.shortRead 4 reader.position reader.remaining)) := by
  rw [Reader.text, int32, fixed_short short]

/-- With its length there, a text is what the length announces. -/
theorem text_of_there {reader : Reader} (there : 4 ≤ reader.remaining) :
    reader.text = if reader.announced < 0 then
      (.error (.corrupted .value (.negativeLength reader.announced)),
        ⟨reader.position + 4, reader.rest.drop 4⟩)
    else fixed reader.announced.toNat Utf8.decode ⟨reader.position + 4, reader.rest.drop 4⟩ := by
  rw [Reader.text, int32, fixed, take_of_le reader 4 there]
  simp only [Except.map, Int32.lt_iff_toInt_lt]
  rfl

theorem text_of_negative {reader : Reader} (there : 4 ≤ reader.remaining)
    (below : reader.announced < 0) :
    reader.text.1 = .error (.corrupted .value (.negativeLength reader.announced)) := by
  rw [text_of_there there, if_pos below]

theorem text_of_counted {reader : Reader} {bytes : Nat} (there : 4 ≤ reader.remaining)
    (counts : reader.announced = bytes) {e : Error} : reader.text.1 = .error e ↔
      reader.remaining - 4 < bytes ∧
        e = .corrupted .value (.shortRead bytes (reader.position + 4) (reader.remaining - 4)) := by
  have nonneg : ¬ reader.announced < 0 := by omega
  have left : (Reader.mk (reader.position + 4) (reader.rest.drop 4)).remaining =
      reader.remaining - 4 := List.length_drop
  rw [text_of_there there, if_neg nonneg, counts, Int.toNat_natCast, fixed_error_iff, left]

theorem text_error_iff {reader : Reader} {e : Error} : reader.text.1 = .error e ↔
    ∃ damage, e = .corrupted .value damage ∧ Unreadable reader .binary damage := by
  constructor
  · intro failed
    by_cases short : reader.remaining < 4
    · cases (text_of_short short).symm.trans failed
      exact ⟨_, rfl, .length short⟩
    · have there : 4 ≤ reader.remaining := Nat.le_of_not_lt short
      by_cases below : reader.announced < 0
      · cases (text_of_negative there below).symm.trans failed
        exact ⟨_, rfl, .negative there below⟩
      · obtain ⟨bytes, counts⟩ := Int.eq_ofNat_of_zero_le (Int.not_lt.mp below)
        obtain ⟨cut, rfl⟩ := (text_of_counted there counts).mp failed
        exact ⟨_, rfl, .text there counts cut⟩
  · rintro ⟨damage, rfl, unreadable⟩
    cases unreadable with
    | value fixed => cases fixed
    | length short => exact text_of_short short
    | negative there below => exact text_of_negative there below
    | text there counts short => exact (text_of_counted there counts).mpr ⟨short, rfl⟩

theorem value_error_iff {declared : DataType} {reader : Reader} {e : Error} :
    (reader.value declared).1 = .error e ↔
      ∃ damage, e = .corrupted .value damage ∧ Unreadable reader declared damage := by
  have short {α : Type} {width : Nat} {meaning : Bytes → α} {make : α → Value}
      (wide : declared.fixedWidth = some width) :
      (fixed width meaning reader).1.map make = .error e ↔
        ∃ damage, e = .corrupted .value damage ∧ Unreadable reader declared damage := by
    rw [map_eq_error_iff, fixed_error_iff]
    simp only [unreadable_iff_of_fixed wide]
    constructor
    · rintro ⟨few, rfl⟩
      exact ⟨_, rfl, few, rfl⟩
    · rintro ⟨damage, rfl, few, rfl⟩
      exact ⟨few, rfl⟩
  cases declared with
  | boolean => exact short rfl
  | integer => exact short rfl
  | long => exact short rfl
  | float => exact short rfl
  | double => exact short rfl
  | binary => exact map_eq_error_iff.trans text_error_iff

end Reader

theorem Mask.test_error_iff {mask : Mask} {index : Nat} (inside : index < mask.capacity)
    {e : Error} : mask.test index = .error e ↔
      mask.bytes.length ≤ index / 8 ∧ e = .corrupted .bitmap (.missingBit index) := by
  rw [test, if_neg (Nat.not_le.mpr inside)]
  by_cases gone : mask.bytes.length ≤ index / 8
  · simp [gone, eq_comm]
  · simp [gone, List.getElem?_eq_getElem (Nat.lt_of_not_le gone)]

theorem Reader.cell_of_marked {reader : Reader} {mask : Mask} {index : Nat} {declared : DataType}
    {place : Location} (marked : mask.test index = .ok true) {e : Error} :
    reader.cell mask index declared place = .error e ↔
      ∃ damage, e = .corrupted place damage ∧ Unreadable reader declared damage := by
  rw [cell, marked]
  constructor
  · intro failed
    cases read : reader.value declared with
    | mk answer behind =>
      rw [read] at failed
      cases answer with
      | ok value => cases failed
      | error fault =>
        cases failed
        obtain ⟨damage, rfl, unreadable⟩ := value_error_iff.mp (congrArg Prod.fst read)
        exact ⟨damage, rfl, unreadable⟩
  · rintro ⟨damage, rfl, unreadable⟩
    have refused := value_error_iff.mpr ⟨damage, rfl, unreadable⟩
    generalize reader.value declared = outcome at refused
    obtain ⟨answer, behind⟩ := outcome
    obtain rfl : answer = _ := refused
    rfl

theorem Reader.cell_error_iff {reader : Reader} {mask : Mask} {index : Nat} {declared : DataType}
    {place : Location} (inside : index < mask.capacity) {e : Error} :
    reader.cell mask index declared place = .error e ↔
      mask.bytes.length ≤ index / 8 ∧ e = .corrupted .bitmap (.missingBit index) ∨
      mask.test index = .ok true ∧
        ∃ damage, e = .corrupted place damage ∧ Unreadable reader declared damage := by
  cases tested : mask.test index with
  | error e' =>
    obtain ⟨gone, rfl⟩ := (Mask.test_error_iff inside).mp tested
    rw [cell, tested]
    simp [gone, eq_comm]
  | ok present =>
    have there : ¬ mask.bytes.length ≤ index / 8 := by
      intro gone
      cases tested.symm.trans ((Mask.test_error_iff inside).mpr ⟨gone, rfl⟩)
    cases present with
    | false =>
      rw [cell, tested]
      simp [there]
    | true =>
      rw [cell_of_marked tested]
      simp [there]

/-- The column in which a received row is refused. All columns before it hold cells. -/
inductive RefusedIn (types : List DataType) (row : Bytes × Bytes) (column : Nat) : Error → Prop
  | missing {taken : List Taken} {after : Reader} (inside : column < types.length)
    (before : Walked (.view types.length row.2) 0 (.ofBytes row.1) (types.take column) taken after)
    (gone : row.2.length ≤ column / 8) :
    RefusedIn types row column (.corrupted .bitmap (.missingBit column))
  | unreadable {taken : List Taken} {after : Reader} {declared : DataType} {damage : Damage}
    (named : types[column]? = some declared)
    (before : Walked (.view types.length row.2) 0 (.ofBytes row.1) (types.take column) taken after)
    (marked : (Mask.view types.length row.2).bit column)
    (broken : Unreadable after declared damage) :
    RefusedIn types row column (.corrupted (.cell 0 column) damage)

theorem Mask.test_eq_true_iff {mask : Mask} {index : Nat} (inside : index < mask.capacity) :
    mask.test index = .ok true ↔ mask.bit index := by
  rw [test_eq_ok_iff, and_iff_right inside, bit, Option.any_eq_true]

/-- A row is refused exactly in its first column that cannot be read. -/
theorem readRow_error_iff {types : List DataType} {row : Bytes × Bytes} {e : Error} :
    readRow types row = .error e ↔ ∃ column, RefusedIn types row column e := by
  rw [readRow, decodeRow_eq_walk, map_eq_error_iff, walk_eq_error_iff]
  constructor
  · rintro ⟨column, declared, taken, after, named, before, failed⟩
    have inside : column < types.length := (List.getElem?_eq_some_iff.mp named).1
    rw [Nat.zero_add] at failed
    rcases (Reader.cell_error_iff inside).mp failed with ⟨gone, rfl⟩ | ⟨marked, damage, rfl, broken⟩
    · exact ⟨column, .missing inside before gone⟩
    · exact ⟨column, .unreadable named before ((Mask.test_eq_true_iff inside).mp marked) broken⟩
  · rintro ⟨column, refused⟩
    cases refused with
    | missing inside before gone =>
      refine ⟨column, types[column], _, _, List.getElem?_eq_getElem inside, before, ?_⟩
      rw [Nat.zero_add]
      exact (Reader.cell_error_iff inside).mpr (.inl ⟨gone, rfl⟩)
    | unreadable named before marked broken =>
      have inside : column < types.length := (List.getElem?_eq_some_iff.mp named).1
      refine ⟨column, _, _, _, named, before, ?_⟩
      rw [Nat.zero_add]
      exact (Reader.cell_error_iff inside).mpr
        (.inr ⟨(Mask.test_eq_true_iff inside).mpr marked, _, rfl, broken⟩)

theorem readRow_error {types : List DataType} {row : Bytes × Bytes} {e : Error}
    (failed : readRow types row = .error e) : RowDamage e := by
  obtain ⟨column, refused⟩ := readRow_error_iff.mp failed
  cases refused with
  | missing => exact .mask _
  | unreadable => exact .cell column _

theorem length_of_decodeRow {values : Bytes} {mask : Mask} {types : List DataType} {cells : Row}
    (decoded : decodeRow values mask types = .ok cells) : cells.length = types.length := by
  obtain ⟨taken, after, walked, rfl⟩ := walked_of_decodeRow decoded
  exact (walk_eq_ok_iff.mp walked).width

theorem length_of_readRow {types : List DataType} {row : Bytes × Bytes} {cells : Row}
    (decoded : readRow types row = .ok cells) : cells.length = types.length :=
  length_of_decodeRow decoded

end SeriesClient.Wire
