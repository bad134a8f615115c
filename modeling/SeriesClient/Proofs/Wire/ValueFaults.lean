import SeriesClient.Proofs.Wire.DenseValues
import SeriesClient.Proofs.Wire.ReceivedRow

/-! What a buffer of values is refused for: the first value that cannot be read, behind those that
can, or the bytes behind the last one. -/
namespace SeriesClient.Wire
open Spelling

/-- Why a buffer does not hold one value of each type and nothing else. -/
inductive Faulty (buffer : Bytes) (types : List DataType) : Error → Prop
  | unreadable {run : List Spelling} {type : DataType} {others : List DataType} {after : Reader}
      {damage : Damage} (listed : run.map declared ++ type :: others = types)
      (passes : (Reader.ofBytes buffer).Passes (joined run) after)
      (refused : Unreadable after type damage) :
      Faulty buffer types (.corrupted (.cell 0 run.length) damage)
  | trailing {run : List Spelling} {more : Bytes} (listed : run.map declared = types)
      (whole : joined run ++ more = buffer) (longer : more ≠ []) :
      Faulty buffer types (.corrupted .value (.trailingBytes more.length types.length))

theorem Faulty.corrupted {buffer : Bytes} {types : List DataType} {e : Error}
    (faulty : Faulty buffer types e) : ∃ place damage, e = .corrupted place damage := by
  cases faulty with
  | unreadable => exact ⟨_, _, rfl⟩
  | trailing => exact ⟨_, _, rfl⟩

namespace Reader

theorem values_of_unreadable {before after : Reader} {run : List Spelling} {type : DataType}
    {others : List DataType} {damage : Damage} (passes : before.Passes (joined run) after)
    (refused : Unreadable after type damage) (column : Nat) :
    before.values column (run.map declared ++ type :: others) =
      .error (.corrupted (.cell 0 (column + run.length)) damage) := by
  obtain ⟨position, rest⟩ := before
  obtain ⟨whole, behind⟩ := passes
  have whole : rest = joined run ++ after.rest := whole
  have reached : (⟨position + (joined run).length, after.rest⟩ : Reader) = after :=
    congrArg (Reader.mk · after.rest) behind.symm
  have failed := value_error_iff.mpr ⟨damage, rfl, refused⟩
  cases met : after.value type with
  | mk answer stopped =>
    simp only [met] at failed
    cases failed
    simp only [whole, values_run, reached, values, met]
    rfl

theorem unreadable_of_values {before : Reader} {column : Nat} {types : List DataType} {e : Error}
    (failed : before.values column types = .error e) :
    ∃ run type others after damage, run.map declared ++ type :: others = types ∧
      before.Passes (joined run) after ∧ Unreadable after type damage ∧
        e = .corrupted (.cell 0 (column + run.length)) damage := by
  induction types generalizing before column with
  | nil => cases failed
  | cons type types ih =>
    rw [values] at failed
    cases met : before.value type with
    | mk answer behind =>
      rw [met] at failed
      cases answer with
      | error fault =>
        cases failed
        obtain ⟨damage, rfl, refused⟩ := value_error_iff.mp (congrArg Prod.fst met)
        exact ⟨[], type, types, before, damage, rfl, passes_nil before, refused, rfl⟩
      | ok value =>
        obtain ⟨bytes, form, rfl, passes⟩ := value_eq_ok met
        cases rest : behind.values (column + 1) types with
        | ok further =>
          simp only [rest, bind, Except.bind] at failed
          cases failed
        | error fault =>
          simp only [rest, bind, Except.bind] at failed
          cases failed
          obtain ⟨run, type', others, after, damage, rfl, onward, refused, rfl⟩ := ih rest
          have place : column + 1 + run.length = column + (run.length + 1) := by omega
          exact ⟨⟨value, bytes, form⟩ :: run, type', others, after, damage, rfl,
            passes.append onward, refused, by rw [place, List.length_cons]⟩

end Reader

/-- A buffer is refused for its first fault, and for nothing else. -/
theorem decodeValues_eq_error_iff {buffer : Bytes} {types : List DataType} {e : Error} :
    decodeValues buffer types = .error e ↔ Faulty buffer types e := by
  constructor
  · intro failed
    rw [decodeValues] at failed
    cases done : (Reader.ofBytes buffer).values 0 types with
    | error fault =>
      rw [done] at failed
      cases failed
      obtain ⟨run, type, others, after, damage, listed, passes, refused, rfl⟩ :=
        Reader.unreadable_of_values done
      rw [Nat.zero_add]
      exact .unreadable listed passes refused
    | ok result =>
      obtain ⟨read, after⟩ := result
      obtain ⟨run, listed, -, passes⟩ := Reader.values_eq_ok done
      simp only [done, bind, Except.bind] at failed
      split at failed
      · cases failed
      · next left =>
        cases failed
        exact .trailing listed passes.1.symm (mt List.isEmpty_iff.mpr left)
  · intro faulty
    cases faulty with
    | unreadable listed passes refused =>
      cases listed
      rw [decodeValues, Reader.values_of_unreadable passes refused, Nat.zero_add]
      rfl
    | trailing listed whole longer =>
      cases listed
      cases whole
      rw [decodeValues_extended _ longer, List.length_map]

end SeriesClient.Wire
