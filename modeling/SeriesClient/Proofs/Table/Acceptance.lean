import SeriesClient.Proofs.Table.Assembly

/-! Which responses are assembled into a table. Every other response is refused for the first fault
in a fixed order: the declared types, the lists of buffers, the timestamps, then the rows from the
first to the last. -/
namespace SeriesClient.Table
open Wire

/-- A row holds no cell in some column. -/
def Broken (types : List DataType) (row : Bytes × Bytes) : Prop :=
  ∃ column fault, RefusedIn types row column fault

/-- The faults of a response, each with what must be in order before it counts. -/
inductive Refused (paths : List String) (types : List DataType) (timestamps : Bytes)
    (values bitmaps : List Bytes) : Error → Prop
  | types (undeclared : paths.length ≠ types.length) :
    Refused paths types timestamps values bitmaps
      (.invalid (.typesForPaths types.length paths.length))
  | buffers (declared : paths.length = types.length) (unpaired : values.length ≠ bitmaps.length) :
    Refused paths types timestamps values bitmaps
      (.corrupted .bitmap (.unequalBuffers values.length bitmaps.length))
  | partialLong (declared : paths.length = types.length) (paired : values.length = bitmaps.length)
    (ragged : timestamps.length % 8 ≠ 0) :
    Refused paths types timestamps values bitmaps
      (.corrupted .timestamps (.partialLong timestamps.length))
  | count (declared : paths.length = types.length) (paired : values.length = bitmaps.length)
    (whole : timestamps.length % 8 = 0) (timed : timestamps.length / 8 ≠ 0)
    (uncounted : timestamps.length / 8 ≠ values.length) :
    Refused paths types timestamps values bitmaps
      (.corrupted .timestamps (.timestampsForRows (timestamps.length / 8) values.length))
  | row {number column : Nat} {row : Bytes × Bytes} {fault : Error}
    (declared : paths.length = types.length) (paired : values.length = bitmaps.length)
    (whole : timestamps.length % 8 = 0)
    (counted : timestamps.length / 8 = 0 ∨ timestamps.length / 8 = values.length)
    (here : (values.zip bitmaps)[number]? = some row) (refused : RefusedIn types row column fault)
    (first : ∀ earlier < number, ∀ row ∈ (values.zip bitmaps)[earlier]?, ¬ Broken types row) :
    Refused paths types timestamps values bitmaps (fault.inRow number)

/-- What a table owes to the response it was assembled of. Its rows stand one by one for the value
buffers, and a row is decoded of its own two buffers under the types, and of nothing else. -/
structure Assembled (paths : List String) (types : List DataType) (timestamps : Bytes)
    (values bitmaps : List Bytes) (table : Table) : Prop where
  named : table.paths = paths
  typed : table.types = types
  declared : paths.length = types.length
  timed : decodeTimestamps timestamps = .ok table.timestamps
  counted : table.timestamps = [] ∨ table.timestamps.length = table.rows.length
  count : table.rows.length = values.length ∧ table.rows.length = bitmaps.length
  decoded : ∀ (r : Nat) (cells : Row), table.rows[r]? = some cells →
    ∃ value bitmap, values[r]? = some value ∧ bitmaps[r]? = some bitmap ∧
      readRow types (value, bitmap) = .ok cells
  width : ∀ cells ∈ table.rows, cells.length = types.length

section Checks
variable {paths : List String} {types : List DataType} {timestamps : Bytes}
  {values bitmaps : List Bytes}

theorem assemble_of_undeclared (undeclared : paths.length ≠ types.length) :
    assemble paths types timestamps values bitmaps =
      .error (.invalid (.typesForPaths types.length paths.length)) := by
  rw [assemble, checkTypes, if_pos undeclared]
  rfl

theorem assemble_of_unpaired (declared : paths.length = types.length)
    (unpaired : values.length ≠ bitmaps.length) :
    assemble paths types timestamps values bitmaps =
      .error (.corrupted .bitmap (.unequalBuffers values.length bitmaps.length)) := by
  rw [assemble, checkTypes, if_neg (not_not_intro declared), if_pos unpaired]
  rfl

theorem assemble_of_ragged (declared : paths.length = types.length)
    (paired : values.length = bitmaps.length) (ragged : timestamps.length % 8 ≠ 0) :
    assemble paths types timestamps values bitmaps =
      .error (.corrupted .timestamps (.partialLong timestamps.length)) := by
  rw [assemble, checkTypes, if_neg (not_not_intro declared), if_neg (not_not_intro paired),
    decodeTimestamps, if_pos ragged]
  rfl

theorem assemble_of_uncounted (declared : paths.length = types.length)
    (paired : values.length = bitmaps.length) (whole : timestamps.length % 8 = 0)
    (timed : timestamps.length / 8 ≠ 0) (uncounted : timestamps.length / 8 ≠ values.length) :
    assemble paths types timestamps values bitmaps = .error (.corrupted .timestamps
      (.timestampsForRows (timestamps.length / 8) values.length)) := by
  have some : (longs timestamps).isEmpty = false := by
    rw [List.isEmpty_eq_false_iff, ← List.length_pos_iff, length_longs]
    omega
  rw [assemble, checkTypes, if_neg (not_not_intro declared), if_neg (not_not_intro paired),
    decodeTimestamps_of_whole whole]
  simp [bind, Except.bind, some, length_longs, uncounted]

theorem assemble_of_counted (declared : paths.length = types.length)
    (paired : values.length = bitmaps.length) (whole : timestamps.length % 8 = 0)
    (counted : timestamps.length / 8 = 0 ∨ timestamps.length / 8 = values.length) :
    assemble paths types timestamps values bitmaps =
      (decodeRows types 0 (values.zip bitmaps)).map fun rows =>
        ⟨paths, types, longs timestamps, rows⟩ := by
  refine assemble_eq declared paired (decodeTimestamps_of_whole whole) ?_
  rw [length_longs]
  exact counted.imp_left fun none => List.length_eq_zero_iff.mp ((length_longs _).trans none)

end Checks

/-- The first broken row, and its fault. -/
structure FirstBroken (types : List DataType) (received : List (Bytes × Bytes)) (number : Nat)
    (row : Bytes × Bytes) (column : Nat) (fault : Error) : Prop where
  here : received[number]? = some row
  refused : RefusedIn types row column fault
  first : ∀ earlier < number, ∀ row ∈ received[earlier]?, ¬ Broken types row

theorem FirstBroken.unique {types : List DataType} {received : List (Bytes × Bytes)}
    {number number' column column' : Nat} {row row' : Bytes × Bytes} {fault fault' : Error}
    (one : FirstBroken types received number row column fault)
    (other : FirstBroken types received number' row' column' fault') :
    number = number' ∧ fault = fault' := by
  rcases Nat.lt_trichotomy number number' with before | rfl | behind
  · exact absurd ⟨column, fault, one.refused⟩ (other.first number before row one.here)
  · cases one.here.symm.trans other.here
    have same := (readRow_error_iff.mpr ⟨column, one.refused⟩).symm.trans
      (readRow_error_iff.mpr ⟨column', other.refused⟩)
    exact ⟨rfl, Except.error.inj same⟩
  · exact absurd ⟨column', fault', other.refused⟩ (one.first number' behind row' other.here)

/-- What fails to decode has a first broken row. -/
theorem firstBroken_of_error {types : List DataType} {received : List (Bytes × Bytes)} {e : Error}
    (failed : decodeRows types 0 received = .error e) :
    ∃ number row column fault, FirstBroken types received number row column fault ∧
      e = fault.inRow number := by
  obtain ⟨rows, fault, ⟨before, broken⟩, rfl⟩ := decodeRows_error failed
  obtain ⟨row, here, refused⟩ := Option.map_eq_some_iff.mp broken
  obtain ⟨column, refused⟩ := readRow_error_iff.mp refused
  refine ⟨rows.length, row, column, fault, ⟨here, refused, ?_⟩, by rw [Nat.zero_add]⟩
  rintro earlier early row there ⟨column, fault, refused⟩
  have failed := readRow_error_iff.mpr ⟨column, refused⟩
  have decoded := congrArg (·[earlier]?) before
  rw [Option.mem_def] at there
  simp only [List.getElem?_map, List.getElem?_take_of_lt early, there, Option.map_some, failed,
    List.getElem?_eq_getElem early] at decoded
  cases decoded

/-- Rows are refused for the first broken one among them. -/
theorem decodeRows_error_iff {types : List DataType} {received : List (Bytes × Bytes)} {e : Error} :
    decodeRows types 0 received = .error e ↔ ∃ number row column fault,
      FirstBroken types received number row column fault ∧ e = fault.inRow number := by
  constructor
  · exact firstBroken_of_error
  · rintro ⟨number, row, column, fault, broken, rfl⟩
    cases outcome : decodeRows types 0 received with
    | ok rows =>
      have failed := readRow_error_iff.mpr ⟨column, broken.refused⟩
      have decoded := congrArg (·[number]?) (decodeRows_ok outcome)
      simp only [List.getElem?_map, broken.here, Option.map_some, failed] at decoded
      cases listed : rows[number]? <;> rw [listed] at decoded <;> cases decoded
    | error e' =>
      obtain ⟨number', row', column', fault', broken', rfl⟩ := firstBroken_of_error outcome
      obtain ⟨rfl, rfl⟩ := broken.unique broken'
      rfl

theorem assemble_error_iff {paths : List String} {types : List DataType} {timestamps : Bytes}
    {values bitmaps : List Bytes} {e : Error} :
    assemble paths types timestamps values bitmaps = .error e ↔
      Refused paths types timestamps values bitmaps e := by
  constructor
  · intro failed
    by_cases declared : paths.length = types.length
    case neg =>
      cases (assemble_of_undeclared declared).symm.trans failed
      exact .types declared
    by_cases paired : values.length = bitmaps.length
    case neg =>
      cases (assemble_of_unpaired declared paired).symm.trans failed
      exact .buffers declared paired
    by_cases whole : timestamps.length % 8 = 0
    case neg =>
      cases (assemble_of_ragged declared paired whole).symm.trans failed
      exact .partialLong declared paired whole
    by_cases counted : timestamps.length / 8 = 0 ∨ timestamps.length / 8 = values.length
    case neg =>
      obtain ⟨timed, uncounted⟩ := not_or.mp counted
      cases (assemble_of_uncounted declared paired whole timed uncounted).symm.trans failed
      exact .count declared paired whole timed uncounted
    rw [assemble_of_counted declared paired whole counted, map_eq_error_iff,
      decodeRows_error_iff] at failed
    obtain ⟨number, row, column, fault, ⟨here, refused, first⟩, rfl⟩ := failed
    exact .row declared paired whole counted here refused first
  · intro refused
    cases refused with
    | types undeclared => exact assemble_of_undeclared undeclared
    | buffers declared unpaired => exact assemble_of_unpaired declared unpaired
    | partialLong declared paired ragged => exact assemble_of_ragged declared paired ragged
    | count declared paired whole timed uncounted =>
      exact assemble_of_uncounted declared paired whole timed uncounted
    | row declared paired whole counted here refused first =>
      rw [assemble_of_counted declared paired whole counted, map_eq_error_iff,
        decodeRows_error_iff]
      exact ⟨_, _, _, _, ⟨here, refused, first⟩, rfl⟩

theorem Refused.corrupted {paths : List String} {types : List DataType} {timestamps : Bytes}
    {values bitmaps : List Bytes} {e : Error}
    (refused : Refused paths types timestamps values bitmaps e)
    (declared : paths.length = types.length) : ∃ place damage, e = .corrupted place damage := by
  cases refused with
  | types undeclared => exact absurd declared undeclared
  | buffers => exact ⟨_, _, rfl⟩
  | partialLong => exact ⟨_, _, rfl⟩
  | count => exact ⟨_, _, rfl⟩
  | row _ _ _ _ _ refused =>
    cases refused with
    | missing => exact ⟨_, _, rfl⟩
    | unreadable => exact ⟨_, _, rfl⟩

/-- All checks passed, and the rows decoded. -/
theorem assemble_eq_ok {paths : List String} {types : List DataType} {timestamps : Bytes}
    {values bitmaps : List Bytes} {table : Table}
    (done : assemble paths types timestamps values bitmaps = .ok table) :
    paths.length = types.length ∧ values.length = bitmaps.length ∧
      timestamps.length % 8 = 0 ∧
      (timestamps.length / 8 = 0 ∨ timestamps.length / 8 = values.length) ∧
      ∃ rows, (values.zip bitmaps).map (readRow types) = rows.map .ok ∧
        table = ⟨paths, types, longs timestamps, rows⟩ := by
  have sound {e : Error} (refused : Refused paths types timestamps values bitmaps e) : False := by
    cases (assemble_error_iff.mpr refused).symm.trans done
  have declared : paths.length = types.length := by
    apply Decidable.byContradiction
    intro undeclared
    exact sound (.types undeclared)
  have paired : values.length = bitmaps.length := by
    apply Decidable.byContradiction
    intro unpaired
    exact sound (.buffers declared unpaired)
  have whole : timestamps.length % 8 = 0 := by
    apply Decidable.byContradiction
    intro ragged
    exact sound (.partialLong declared paired ragged)
  have counted : timestamps.length / 8 = 0 ∨ timestamps.length / 8 = values.length := by
    apply Decidable.byContradiction
    intro uncounted
    obtain ⟨timed, uncounted⟩ := not_or.mp uncounted
    exact sound (.count declared paired whole timed uncounted)
  rw [assemble_of_counted declared paired whole counted] at done
  cases decoded : decodeRows types 0 (values.zip bitmaps) with
  | error e =>
    rw [decoded] at done
    cases done
  | ok rows =>
    rw [decoded] at done
    cases done
    exact ⟨declared, paired, whole, counted, rows, decodeRows_ok decoded, rfl⟩

theorem assembled_of_assemble {paths : List String} {types : List DataType} {timestamps : Bytes}
    {values bitmaps : List Bytes} {table : Table}
    (done : assemble paths types timestamps values bitmaps = .ok table) :
    Assembled paths types timestamps values bitmaps table := by
  obtain ⟨declared, paired, whole, counted, rows, read, rfl⟩ := assemble_eq_ok done
  have count := congrArg List.length read
  rw [List.length_map, List.length_map, List.length_zip, ← paired, Nat.min_self] at count
  have each (r : Nat) (cells : Row) (listed : rows[r]? = some cells) :
      ∃ value bitmap, values[r]? = some value ∧ bitmaps[r]? = some bitmap ∧
        readRow types (value, bitmap) = .ok cells := by
    have here := congrArg (·[r]?) read
    simp only [List.getElem?_map, listed, Option.map_some, Option.map_eq_some_iff] at here
    obtain ⟨⟨value, bitmap⟩, received, decoded⟩ := here
    obtain ⟨valued, masked⟩ := List.getElem?_zip_eq_some.mp received
    exact ⟨value, bitmap, valued, masked, decoded⟩
  constructor
  case named => rfl
  case typed => rfl
  case declared => exact declared
  case timed => exact decodeTimestamps_of_whole whole
  case counted =>
    rcases counted with none | same
    · exact .inl (List.length_eq_zero_iff.mp ((length_longs _).trans none))
    · exact .inr ((length_longs _).trans (same.trans count))
  case count => exact ⟨count.symm, count.symm.trans paired⟩
  case decoded => exact each
  case width =>
    intro cells member
    obtain ⟨r, listed⟩ := List.mem_iff_getElem?.mp member
    obtain ⟨_, _, _, _, decoded⟩ := each r cells listed
    exact length_of_readRow decoded

/-- Types that do not match the paths are an invalid request; every other fault is damage, named by
the first of the faults in order. A response without fault becomes a table of its rows. -/
theorem assemble_exact (paths : List String) (types : List DataType) (timestamps : Bytes)
    (values bitmaps : List Bytes) :
    ((∃ fault, assemble paths types timestamps values bitmaps = .error (.invalid fault)) ↔
      paths.length ≠ types.length) ∧
    (∀ e, assemble paths types timestamps values bitmaps = .error e ↔
      Refused paths types timestamps values bitmaps e) ∧
    (∀ e, Refused paths types timestamps values bitmaps e → paths.length = types.length →
      ∃ place damage, e = .corrupted place damage) ∧
    ∀ table, assemble paths types timestamps values bitmaps = .ok table →
      Assembled paths types timestamps values bitmaps table := by
  refine ⟨⟨?_, ?_⟩, fun e => assemble_error_iff, fun e refused => refused.corrupted,
    fun table => assembled_of_assemble⟩
  · rintro ⟨fault, failed⟩ declared
    obtain ⟨_, _, same⟩ := (assemble_error_iff.mp failed).corrupted declared
    cases same
  · intro undeclared
    exact ⟨_, assemble_of_undeclared undeclared⟩

/-- Two sound rows, and the same response with its second text cut off before its length. -/
theorem assemble_cut_text :
    Assembled ["on", "note"] [.boolean, .binary] [] [[1], []] [[1], [0]]
      ⟨["on", "note"], [.boolean, .binary], [], [[some (.boolean true), none], [none, none]]⟩ ∧
    Refused ["on", "note"] [.boolean, .binary] [] [[1], [0, 0]] [[1], [3]]
      (.corrupted (.cell 1 1) (.shortRead 4 1 1)) ∧
    ∃ place damage, Error.corrupted (.cell 1 1) (.shortRead 4 1 1) = .corrupted place damage := by
  obtain ⟨-, -, -, assembles⟩ := assemble_exact ["on", "note"] [.boolean, .binary] [] [[1], []]
    [[1], [0]]
  obtain ⟨-, refuses, damaged, -⟩ := assemble_exact ["on", "note"] [.boolean, .binary] []
    [[1], [0, 0]] [[1], [3]]
  have refused := (refuses (.corrupted (.cell 1 1) (.shortRead 4 1 1))).mp rfl
  exact ⟨assembles _ rfl, refused, damaged _ refused rfl⟩

end SeriesClient.Table
