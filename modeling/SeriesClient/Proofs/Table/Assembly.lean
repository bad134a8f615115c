import SeriesClient.Proofs.Wire.ReceivedRow
import SeriesClient.Table

/-! Assembly of a table: once the lists of a response line up, its rows decide the rest. -/
namespace SeriesClient.Table
open Wire

theorem assemble_eq {paths : List String} {types : List DataType} {timestamps : Bytes}
    {values bitmaps : List Bytes} {times : List Int64} (declared : paths.length = types.length)
    (paired : values.length = bitmaps.length) (decoded : decodeTimestamps timestamps = .ok times)
    (fits : times = [] ∨ times.length = values.length) :
    assemble paths types timestamps values bitmaps =
      (decodeRows types 0 (values.zip bitmaps)).map fun rows => ⟨paths, types, times, rows⟩ := by
  have counted : (!times.isEmpty && times.length != values.length) = false := by
    rcases fits with rfl | same
    · rfl
    · simp [same]
  rw [assemble, checkTypes, if_neg (not_not_intro declared), if_neg (not_not_intro paired), decoded]
  simp only [bind, Except.bind, counted]
  cases decodeRows types 0 (values.zip bitmaps) <;> rfl

theorem decodeRows_cons (types : List DataType) (number : Nat) (row : Bytes × Bytes)
    (received : List (Bytes × Bytes)) :
    decodeRows types number (row :: received) = match readRow types row with
      | .ok first => (decodeRows types (number + 1) received).map (first :: ·)
      | .error e => .error (e.inRow number) := by
  rw [decodeRows, readRow]
  cases decodeRow row.1 (.view types.length row.2) types with
  | error e => rfl
  | ok first => cases decodeRows types (number + 1) received <;> rfl

/-- The rows of a table are its received rows, each decoded on its own. -/
theorem decodeRows_ok {types : List DataType} {number : Nat} {received : List (Bytes × Bytes)}
    {rows : List Row} (decoded : decodeRows types number received = .ok rows) :
    received.map (readRow types) = rows.map .ok := by
  induction received generalizing number rows with
  | nil =>
    cases decoded
    rfl
  | cons row received ih =>
    rw [decodeRows_cons] at decoded
    cases first : readRow types row with
    | error e =>
      rw [first] at decoded
      cases decoded
    | ok cells =>
      cases others : decodeRows types (number + 1) received with
      | error e =>
        rw [first, others] at decoded
        cases decoded
      | ok rest =>
        rw [first, others] at decoded
        cases decoded
        rw [List.map_cons, List.map_cons, first, ih others]

/-- `rows` decode, and the row behind them is the first that does not. -/
structure FailsBehind (types : List DataType) (received : List (Bytes × Bytes)) (rows : List Row)
    (fault : Error) : Prop where
  before : (received.take rows.length).map (readRow types) = rows.map .ok
  broken : received[rows.length]?.map (readRow types) = some (.error fault)

theorem FailsBehind.split {types : List DataType} {received : List (Bytes × Bytes)}
    {rows : List Row} {fault : Error} (fails : FailsBehind types received rows fault) :
    ∃ row rest, received = received.take rows.length ++ row :: rest ∧
      readRow types row = .error fault := by
  obtain ⟨row, found, refused⟩ := Option.map_eq_some_iff.mp fails.broken
  obtain ⟨there, rfl⟩ := List.getElem?_eq_some_iff.mp found
  refine ⟨_, received.drop (rows.length + 1), ?_, refused⟩
  rw [← List.drop_eq_getElem_cons there, List.take_append_drop]

/-- A table is refused for the first of its rows that does not decode, by its number. -/
theorem decodeRows_error {types : List DataType} {number : Nat} {received : List (Bytes × Bytes)}
    {e : Error} (failed : decodeRows types number received = .error e) :
    ∃ rows fault, FailsBehind types received rows fault ∧
      e = fault.inRow (number + rows.length) := by
  induction received generalizing number with
  | nil => cases failed
  | cons row received ih =>
    rw [decodeRows_cons] at failed
    cases first : readRow types row with
    | error fault =>
      rw [first] at failed
      cases failed
      exact ⟨[], fault, ⟨rfl, congrArg some first⟩, rfl⟩
    | ok cells =>
      cases others : decodeRows types (number + 1) received with
      | ok rest =>
        rw [first, others] at failed
        cases failed
      | error e' =>
        rw [first, others] at failed
        cases failed
        obtain ⟨rows, fault, fails, rfl⟩ := ih others
        refine ⟨cells :: rows, fault, ⟨?_, fails.broken⟩, ?_⟩
        · rw [List.length_cons, List.take_succ_cons, List.map_cons, List.map_cons, first,
            fails.before]
        · rw [List.length_cons, Nat.add_assoc, Nat.add_comm 1]

end SeriesClient.Table
