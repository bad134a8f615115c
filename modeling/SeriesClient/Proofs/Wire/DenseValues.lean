import Mathlib.Data.List.Forall2
import SeriesClient.Proofs.Wire.DenseCells

/-! Values back to back, none of them absent. The bytes of each say where it ends, so a buffer that
is read as values of given types is cut into them in one way, and nothing shorter or longer is read
under the same types. -/
namespace SeriesClient.Wire

/-- A value with bytes that are read as it. -/
structure Spelling where
  value : Value
  bytes : Bytes
  reads : ReadAs bytes value

namespace Spelling

def declared (spelling : Spelling) : DataType := spelling.value.dataType

/-- The bytes of a run of values. -/
def joined (run : List Spelling) : Bytes := run.flatMap bytes

theorem joined_nil : joined [] = [] := rfl

theorem joined_cons (head : Spelling) (run : List Spelling) :
    joined (head :: run) = head.bytes ++ joined run := List.flatMap_cons

theorem joined_append (front back : List Spelling) :
    joined (front ++ back) = joined front ++ joined back := List.flatMap_append

end Spelling

open Spelling

namespace Reader

theorem values_cons (head : Spelling) (position column : Nat) (rest : Bytes)
    (types : List DataType) :
    values ⟨position, head.bytes ++ rest⟩ column (head.declared :: types) =
      (values ⟨position + head.bytes.length, rest⟩ (column + 1) types).map
        fun (read, after) => (head.value :: read, after) := by
  rw [values, declared, value_readAs head.reads]
  rfl

/-- Reading passes the values at the front and goes on behind them. -/
theorem values_run (run : List Spelling) (position column : Nat) (rest : Bytes)
    (types : List DataType) :
    values ⟨position, joined run ++ rest⟩ column (run.map declared ++ types) =
      (values ⟨position + (joined run).length, rest⟩ (column + run.length) types).map
        fun (read, after) => (run.map Spelling.value ++ read, after) := by
  induction run generalizing position column with
  | nil => exact (congrFun Except.map_id _).symm
  | cons head run ih =>
    have next : column + 1 + run.length = column + (run.length + 1) := by omega
    rw [joined_cons, List.append_assoc, List.map_cons, List.cons_append, values_cons, ih,
      List.length_append, List.length_cons, Nat.add_assoc, next]
    cases values ⟨position + (head.bytes.length + (joined run).length), rest⟩
      (column + (run.length + 1)) types <;> rfl

/-- What is read as values of these types is a run of them. -/
theorem values_eq_ok {types : List DataType} {before after : Reader} {column : Nat}
    {read : List Value} (done : before.values column types = .ok (read, after)) :
    ∃ run : List Spelling, run.map declared = types ∧ run.map Spelling.value = read ∧
      before.Passes (joined run) after := by
  induction types generalizing before column read with
  | nil =>
    cases done
    exact ⟨[], rfl, rfl, passes_nil _⟩
  | cons type types ih =>
    rw [values] at done
    cases met : before.value type with
    | mk answer behind =>
      rw [met] at done
      cases answer with
      | error e => cases done
      | ok value =>
        cases rest : behind.values (column + 1) types with
        | error e => simp [rest, bind, Except.bind] at done
        | ok further =>
          simp only [rest, bind, Except.bind] at done
          cases done
          obtain ⟨bytes, form, typed, passes⟩ := value_eq_ok met
          obtain ⟨run, listed, spelled, onward⟩ := ih rest
          refine ⟨⟨value, bytes, form⟩ :: run, ?_, ?_, passes.append onward⟩
          · rw [List.map_cons, listed, declared, typed]
          · rw [List.map_cons, spelled]

end Reader

theorem decodeValues_run (run : List Spelling) :
    decodeValues (joined run) (run.map declared) = .ok (run.map Spelling.value) := by
  have read := Reader.values_run run 0 0 [] []
  rw [List.append_nil, List.append_nil] at read
  rw [decodeValues, Reader.ofBytes, read]
  simp [Reader.values, Except.map, bind, Except.bind, Reader.isEmpty]

theorem decodeValues_eq_ok_iff {buffer : Bytes} {types : List DataType} {values : List Value} :
    decodeValues buffer types = .ok values ↔ ∃ run : List Spelling,
      run.map declared = types ∧ run.map Spelling.value = values ∧ joined run = buffer := by
  constructor
  · intro decoded
    rw [decodeValues] at decoded
    cases done : (Reader.ofBytes buffer).values 0 types with
    | error e => simp [done, bind, Except.bind] at decoded
    | ok result =>
      obtain ⟨read, after⟩ := result
      simp only [done, bind, Except.bind] at decoded
      split at decoded
      · rename_i ended
        cases decoded
        obtain ⟨run, listed, spelled, passes⟩ := Reader.values_eq_ok done
        have finished : after.rest = [] := List.isEmpty_iff.mp ended
        have whole : buffer = joined run ++ after.rest := passes.1
        rw [finished, List.append_nil] at whole
        exact ⟨run, listed, spelled, whole.symm⟩
      · cases decoded
  · rintro ⟨run, rfl, rfl, rfl⟩
    exact decodeValues_run run

theorem decodeValues_extended (run : List Spelling) {more : Bytes} (longer : more ≠ []) :
    decodeValues (joined run ++ more) (run.map declared) =
      .error (.corrupted .value (.trailingBytes more.length run.length)) := by
  have read := Reader.values_run run 0 0 more []
  rw [List.append_nil] at read
  rw [decodeValues, Reader.ofBytes, read]
  simp [Reader.values, Except.map, bind, Except.bind, Reader.isEmpty, longer, Reader.remaining]

/-- Every cut within the bytes of items lies within the bytes of one of them. -/
theorem exists_cut {α : Type} {bytes : α → Bytes} {items : List α} {cut : Nat}
    (short : cut < (items.flatMap bytes).length) : ∃ before item behind,
      items = before ++ item :: behind ∧ (before.flatMap bytes).length ≤ cut ∧
        cut < (before.flatMap bytes).length + (bytes item).length := by
  induction items generalizing cut with
  | nil => exact absurd short (Nat.not_lt_zero cut)
  | cons head tail ih =>
    rw [List.flatMap_cons, List.length_append] at short
    by_cases here : cut < (bytes head).length
    · exact ⟨[], head, tail, rfl, Nat.zero_le _, by simpa using here⟩
    · have later : cut - (bytes head).length < (tail.flatMap bytes).length := by omega
      obtain ⟨before, item, behind, rfl, reached, within⟩ := ih later
      refine ⟨head :: before, item, behind, rfl, ?_, ?_⟩
      · rw [List.flatMap_cons, List.length_append]
        omega
      · rw [List.flatMap_cons, List.length_append]
        omega

/-- The first value that a cut leaves incomplete. -/
def CutsAt (run : List Spelling) (cut column : Nat) : Prop :=
  (joined (run.take column)).length ≤ cut ∧ cut < (joined (run.take (column + 1))).length

theorem decodeValues_cut {run : List Spelling} {cut : Nat} (short : cut < (joined run).length) :
    ∃ column needed offset remaining, CutsAt run cut column ∧
      decodeValues ((joined run).take cut) (run.map declared) =
        .error (.corrupted (.cell 0 column) (.shortRead needed offset remaining)) := by
  obtain ⟨before, head, behind, rfl, reached, within⟩ := exists_cut short
  have reached : (joined before).length ≤ cut := reached
  have within : cut < (joined before).length + head.bytes.length := within
  obtain ⟨needed, offset, remaining, after, read⟩ := Reader.value_short head.reads
    (Nat.sub_lt_left_of_lt_add reached within) (joined before).length
  have kept : (joined (before ++ head :: behind)).take cut =
      joined before ++ head.bytes.take (cut - (joined before).length) := by
    rw [joined_append, List.take_append, List.take_of_length_le reached, joined_cons,
      List.take_append_of_le_length (by omega)]
  have through : (before ++ head :: behind).take (before.length + 1) = before ++ [head] := by
    rw [List.take_append, List.take_of_length_le (by omega), Nat.add_sub_cancel_left]
    rfl
  have stopped : Reader.values (.ofBytes ((joined (before ++ head :: behind)).take cut)) 0
      ((before ++ head :: behind).map declared) =
        .error (.corrupted (.cell 0 before.length) (.shortRead needed offset remaining)) := by
    rw [kept, List.map_append, List.map_cons, Reader.ofBytes, Reader.values_run, Reader.values,
      Nat.zero_add, Nat.zero_add, declared, read]
    rfl
  refine ⟨before.length, needed, offset, remaining, ⟨?_, ?_⟩, ?_⟩
  · rw [List.take_left]
    exact reached
  · rw [through, joined_append, List.length_append, joined_cons, joined_nil,
      List.append_nil]
    exact within
  · rw [decodeValues, stopped]
    rfl

/-- Values that fit their types are written, as bytes that are read as them. -/
theorem exists_spellings {types : List DataType} {values : List Value}
    (fits : List.Forall₂ Encodable types values) : ∃ run : List Spelling,
      run.map declared = types ∧ run.map Spelling.value = values ∧
        List.zipWith encodeValue types values = run.map fun spelling => .ok spelling.bytes := by
  induction fits with
  | nil => exact ⟨[], rfl, rfl, rfl⟩
  | @cons type value types values fit _ ih =>
    obtain ⟨run, listed, spelled, written⟩ := ih
    have bytes := encodeValue_eq_cellBytes fit
    refine ⟨⟨value, _, (readAs_of_encodeValue bytes).1⟩ :: run, ?_, ?_, ?_⟩
    · rw [List.map_cons, listed, declared, fit.1]
    · rw [List.map_cons, spelled]
    · rw [List.zipWith_cons_cons, List.map_cons, written, bytes]

/-- Values that fit their types are read back from their bytes. A buffer that is read at all stands
for values of which it holds every byte and no more: bytes behind it are refused as such, and where
it is cut short the value that lacks them is named. -/
theorem values_self_delimiting (types : List DataType) :
    (∀ values, List.Forall₂ Encodable types values →
      ∃ chunks : List Bytes, List.zipWith encodeValue types values = chunks.map .ok ∧
        decodeValues chunks.flatten types = .ok values) ∧
    ∀ buffer values, decodeValues buffer types = .ok values →
      (∀ more, more ≠ [] → decodeValues (buffer ++ more) types =
        .error (.corrupted .value (.trailingBytes more.length types.length))) ∧
      ∃ run : List Spelling, run.map Spelling.declared = types ∧
        run.map Spelling.value = values ∧ joined run = buffer ∧
        ∀ cut < buffer.length, ∃ column needed offset remaining, CutsAt run cut column ∧
          decodeValues (buffer.take cut) types =
            .error (.corrupted (.cell 0 column) (.shortRead needed offset remaining)) := by
  constructor
  · intro values fits
    obtain ⟨run, rfl, rfl, written⟩ := exists_spellings fits
    refine ⟨run.map Spelling.bytes, ?_, ?_⟩
    · rw [written, List.map_map]
      rfl
    · rw [← List.flatMap_def]
      exact decodeValues_run run
  · intro buffer values decoded
    obtain ⟨run, rfl, rfl, rfl⟩ := decodeValues_eq_ok_iff.mp decoded
    refine ⟨?_, run, rfl, rfl, rfl, fun cut => decodeValues_cut⟩
    intro more longer
    rw [decodeValues_extended run longer, List.length_map]

/-- A truth value of 2, a text that is not well-formed and a whole number, cut within the text. -/
def looseValues : Bytes := [2, 0, 0, 0, 2, 0xFF, 0x41, 0, 0, 0, 7]

theorem looseValues_self_delimiting :
    List.Forall₂ Encodable [.boolean, .binary] [.boolean true, .binary "é"] ∧
    (∃ chunks : List Bytes, List.zipWith encodeValue [.boolean, .binary]
        [.boolean true, .binary "é"] = chunks.map .ok ∧
      decodeValues chunks.flatten [.boolean, .binary] = .ok [.boolean true, .binary "é"]) ∧
    decodeValues looseValues [.boolean, .binary, .integer] =
      .ok [.boolean true, .binary "\uFFFDA", .integer 7] ∧
    decodeValues (looseValues ++ [0]) [.boolean, .binary, .integer] =
      .error (.corrupted .value (.trailingBytes 1 3)) ∧
    ∃ run : List Spelling, run.map Spelling.declared = [.boolean, .binary, .integer] ∧
      run.map Spelling.value = [.boolean true, .binary "\uFFFDA", .integer 7] ∧
      joined run = looseValues ∧ ∃ column needed offset remaining, CutsAt run 6 column ∧
        decodeValues (looseValues.take 6) [.boolean, .binary, .integer] =
          .error (.corrupted (.cell 0 column) (.shortRead needed offset remaining)) := by
  have fits : List.Forall₂ Encodable [.boolean, .binary] [.boolean true, .binary "é"] :=
    .cons (by decide) (.cons (by decide) .nil)
  have decoded : decodeValues looseValues [.boolean, .binary, .integer] =
      .ok [.boolean true, .binary "\uFFFDA", .integer 7] := by decide +kernel
  obtain ⟨extended, run, listed, spelled, whole, cut⟩ := (values_self_delimiting _).2 _ _ decoded
  exact ⟨fits, (values_self_delimiting _).1 _ fits, decoded, extended [0] (by decide), run, listed,
    spelled, whole, cut 6 (by decide)⟩

end SeriesClient.Wire
