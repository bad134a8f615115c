import SeriesClient.Proofs.Summary.TypeLists
import SeriesClient.Proofs.Wire.DenseValues

/-! From the buffers of a response to its summary and back. The values of a path stand together, one
for each window, and a type per path stands for a type per value. -/
namespace SeriesClient.Summary
open Wire Wire.Spelling

/-- A word can hold the number of values, and so the place of each. -/
def Addressed (paths : List String) (stamps : Option (List Int64)) : Prop :=
  paths.length * windowsOf stamps < wordSize 8

instance (paths : List String) (stamps : Option (List Int64)) :
    Decidable (Addressed paths stamps) := inferInstanceAs (Decidable (_ < _))

theorem map_declared (run : List Spelling) :
    run.map declared = (run.map Spelling.value).map Value.dataType := List.map_map.symm

section Assembly
variable {paths : List String} {types : List DataType} {reduction : Reduction}
  {timestamps : Option Bytes} {stamps : Option (List Int64)} {buffer : Bytes}

theorem assemble_eq (timed : timestamps.mapM decodeTimestamps = .ok stamps) :
    assemble paths types reduction timestamps buffer =
      (valueTypes paths.length (stamps.map List.length) types).bind fun declared =>
        (decodeValues buffer declared).map fun values => ⟨paths, reduction, stamps, values⟩ := by
  rw [assemble, timed]
  simp only [bind, Except.bind]
  cases valueTypes paths.length (stamps.map List.length) types with
  | error e => rfl
  | ok declared => cases decodeValues buffer declared <;> rfl

theorem assemble_eq_ok {summary : Summary}
    (assembled : assemble paths types reduction timestamps buffer = .ok summary) :
    summary.paths = paths ∧ summary.reduction = reduction ∧
      timestamps.mapM decodeTimestamps = .ok summary.timestamps ∧
      ∃ declared, valueTypes paths.length (summary.timestamps.map List.length) types =
        .ok declared ∧ decodeValues buffer declared = .ok summary.values := by
  cases timed : timestamps.mapM decodeTimestamps with
  | error e =>
    rw [assemble, timed] at assembled
    cases assembled
  | ok stamps =>
    rw [assemble_eq timed] at assembled
    cases typed : valueTypes paths.length (stamps.map List.length) types with
    | error e =>
      rw [typed] at assembled
      cases assembled
    | ok declared =>
      cases decoded : decodeValues buffer declared with
      | error e => simp [typed, decoded, Except.bind, Except.map] at assembled
      | ok values =>
        simp only [typed, decoded, Except.bind, Except.map] at assembled
        cases assembled
        exact ⟨rfl, rfl, rfl, declared, typed, decoded⟩

/-- One type per path is taken for that type at each of its windows. -/
theorem assemble_spread (timed : timestamps.mapM decodeTimestamps = .ok stamps)
    (addressed : Addressed paths stamps) (perPath : types.length = paths.length) :
    assemble paths types reduction timestamps buffer =
      assemble paths (spread (windowsOf stamps) types) reduction timestamps buffer := by
  have each : (spread (windowsOf stamps) types).length =
      paths.length * (stamps.map List.length).getD 1 := by
    rw [length_spread, perPath, windowsOf]
  rw [assemble_eq timed, assemble_eq timed, valueTypes_of_paths addressed perPath,
    valueTypes_of_each addressed each, windowsOf]

theorem assemble_misfit (timed : timestamps.mapM decodeTimestamps = .ok stamps)
    (addressed : Addressed paths stamps)
    (each : types.length ≠ paths.length * windowsOf stamps)
    (perPath : stamps = none ∨ types.length ≠ paths.length) :
    assemble paths types reduction timestamps buffer =
      .error (.invalid (.typesForWindows types.length paths.length (windowsOf stamps))) := by
  have untimed : stamps.map List.length = none ∨ types.length ≠ paths.length :=
    perPath.imp_left Option.map_eq_none_iff.mpr
  rw [assemble_eq timed, valueTypes_misfit addressed each untimed]
  rfl

end Assembly

/-- What a summary has of the response it is assembled from. -/
structure StandsFor (summary : Summary) (paths : List String) (types : List DataType)
    (reduction : Reduction) (timestamps : Option Bytes) (buffer : Bytes) : Prop where
  named : summary.paths = paths
  reduced : summary.reduction = reduction
  timed : timestamps.mapM decodeTimestamps = .ok summary.timestamps
  fits : types.length = paths.length * summary.windowCount ∨
    summary.timestamps.isSome ∧ types.length = paths.length
  counted : summary.values.length = paths.length * summary.windowCount
  /-- The values are those of the buffer, and nothing of it is left over. -/
  filled : ∃ run : List Spelling, run.map Spelling.value = summary.values ∧ joined run = buffer
  inside : ∀ path window, (summary.value? path window).isSome ↔
    path < paths.length ∧ window < summary.windowCount
  placed : ∀ path < paths.length, ∀ window < summary.windowCount, ∃ value,
    summary.value? path window = some value ∧
    summary.values[path * summary.windowCount + window]? = some value ∧
    (types.length = paths.length * summary.windowCount →
      types[path * summary.windowCount + window]? = some value.dataType) ∧
    (types.length = paths.length → types[path]? = some value.dataType)
  /-- No value that a line shows is absent. -/
  present : ∀ window < summary.windowCount, (summary.windowValues window).map some =
    (List.range paths.length).map (summary.value? · window)
  /-- Whatever floats are written by, as long as it obeys the laws of texts for people. -/
  shown : ∀ texts : FloatTexts, texts.Plain → summary.display = summary.text texts

theorem standsFor_of_assemble {paths : List String} {types : List DataType} {reduction : Reduction}
    {timestamps : Option Bytes} {buffer : Bytes} {summary : Summary}
    (assembled : assemble paths types reduction timestamps buffer = .ok summary)
    (addressed : Addressed paths summary.timestamps) :
    summary.StandsFor paths types reduction timestamps buffer := by
  obtain ⟨rfl, reduced, timed, declared, typed, decoded⟩ := assemble_eq_ok assembled
  obtain ⟨run, rfl, spelled, filled⟩ := decodeValues_eq_ok_iff.mp decoded
  have windows : (summary.timestamps.map List.length).getD 1 = summary.windowCount :=
    summary.windowCount_eq.symm
  have fits := fits_of_valueTypes addressed typed
  obtain ⟨counted, each, perPath⟩ := valueTypes_eq_ok addressed typed
  rw [windows] at fits counted each perPath
  have full : summary.Full := by
    constructor
    · rw [← spelled, List.length_map, ← counted, List.length_map]
    · exact windows ▸ addressed
  have typedAt {place : Nat} {value : Value} (found : summary.values[place]? = some value) :
      (run.map declared)[place]? = some value.dataType := by
    rw [map_declared, spelled, List.getElem?_map, found]
    rfl
  constructor
  case named => rfl
  case reduced => exact reduced
  case timed => exact timed
  case fits => simpa only [Option.isSome_map] using fits
  case counted => exact full.counted
  case filled => exact ⟨run, spelled, filled⟩
  case inside => exact fun path window => full.isSome_value?_iff
  case placed =>
    intro path inside window within
    obtain ⟨value, listed, found⟩ := full.exists_value inside within
    have type := typedAt listed
    refine ⟨value, found, listed, fun fit => ?_, fun fit => ?_⟩
    · rwa [each fit] at type
    · rwa [perPath fit, getElem?_spread within] at type
  case present => exact fun window => full.map_some_windowValues
  case shown => exact fun texts => full.display_eq

/-- Lists of types under which the values of a grid, a row of them per path, are read: a type for
each value, or one for each path that all values of its row have. -/
inductive Declares (grid : List (List Value)) : List DataType → Prop
  | each : Declares grid (grid.flatten.map Value.dataType)
  | perPath {types : List DataType} (same : List.Forall₂
      (fun type row => ∀ value ∈ row, Value.dataType value = type) types grid) : Declares grid types

theorem spread_of_perPath {types : List DataType} {grid : List (List Value)} {windows : Nat}
    (same : List.Forall₂ (fun type row => ∀ value ∈ row, Value.dataType value = type) types grid)
    (uniform : ∀ row ∈ grid, row.length = windows) :
    spread windows types = grid.flatten.map Value.dataType := by
  induction same with
  | nil => rfl
  | @cons type row types grid alike _ ih =>
    obtain ⟨head, tail⟩ := List.forall_mem_cons.mp uniform
    have block : row.map Value.dataType = List.replicate windows type := by
      rw [List.eq_replicate_iff, List.length_map, List.forall_mem_map]
      exact ⟨head, alike⟩
    rw [List.flatten_cons, List.map_append, ← ih tail, block]
    rfl

theorem valueTypes_of_declares {grid : List (List Value)} {types : List DataType}
    (declares : Declares grid types) {windows : Option Nat}
    (uniform : ∀ row ∈ grid, row.length = windows.getD 1)
    (addressed : grid.length * windows.getD 1 < wordSize 8) :
    valueTypes grid.length windows types = .ok (grid.flatten.map Value.dataType) := by
  cases declares with
  | each =>
    apply valueTypes_of_each addressed
    rw [List.length_map, length_flatten_of_uniform uniform]
  | perPath same =>
    rw [valueTypes_of_paths addressed same.length_eq, spread_of_perPath same uniform]

/-- What is written for values, each under its own type. -/
def encodings (values : List Value) : List (Except Error Bytes) :=
  values.map fun value => encodeValue value.dataType value

theorem run_of_encodings {values : List Value} {chunks : List Bytes}
    (written : encodings values = chunks.map .ok) : ∃ run : List Spelling,
      run.map Spelling.value = values ∧ run.map Spelling.bytes = chunks := by
  induction values generalizing chunks with
  | nil =>
    cases chunks with
    | nil => exact ⟨[], rfl, rfl⟩
    | cons chunk chunks => cases written
  | cons value values ih =>
    cases chunks with
    | nil => cases written
    | cons chunk chunks =>
      obtain ⟨head, tail⟩ := List.cons.inj written
      obtain ⟨run, rfl, rfl⟩ := ih tail
      exact ⟨⟨value, chunk, (readAs_of_encodeValue head).1⟩ :: run, rfl, rfl⟩

theorem encodings_ok_iff {values : List Value} :
    (∃ chunks : List Bytes, encodings values = chunks.map .ok) ↔
      ∀ value ∈ values, textSize value ≤ maxTextBytes := by
  constructor
  · rintro ⟨chunks, written⟩ value listed
    have among : encodeValue value.dataType value ∈ chunks.map Except.ok :=
      written ▸ List.mem_map_of_mem listed
    obtain ⟨chunk, -, encoded⟩ := List.mem_map.mp among
    exact (encodable_of_encodeValue encoded.symm).2
  · intro small
    refine ⟨values.map fun value => cellBytes (some value, value.dataType), ?_⟩
    rw [encodings, List.map_map]
    apply List.map_congr_left
    intro value listed
    exact encodeValue_eq_cellBytes ⟨rfl, small value listed⟩

/-- A grid of values, written row by row, is the summary that is read from its bytes. -/
theorem assemble_encodings {paths : List String} {types : List DataType} {reduction : Reduction}
    {stamps : Option (List Int64)} {grid : List (List Value)} {chunks : List Bytes}
    (addressed : Addressed paths stamps) (rowed : grid.length = paths.length)
    (uniform : ∀ row ∈ grid, row.length = windowsOf stamps) (declares : Declares grid types)
    (written : encodings grid.flatten = chunks.map .ok) :
    assemble paths types reduction (stamps.map encodeTimestamps) chunks.flatten =
      .ok ⟨paths, reduction, stamps, grid.flatten⟩ := by
  have timed : (stamps.map encodeTimestamps).mapM decodeTimestamps = .ok stamps := by
    cases stamps with
    | none => rfl
    | some stamps =>
      rw [Option.map_some, Option.mapM_some, decodeTimestamps_encodeTimestamps]
      rfl
  obtain ⟨run, spelled, rfl⟩ := run_of_encodings written
  have declared : grid.flatten.map Value.dataType = run.map Spelling.declared := by
    rw [map_declared, spelled]
  have whole : (run.map Spelling.bytes).flatten = joined run := List.flatMap_def.symm
  rw [Addressed, ← rowed, windowsOf] at addressed
  rw [assemble_eq timed, ← rowed, valueTypes_of_declares declares uniform addressed, declared,
    whole, Except.bind, decodeValues_run, spelled]
  rfl

theorem full_of_grid {paths : List String} (reduction : Reduction) {stamps : Option (List Int64)}
    {grid : List (List Value)} (addressed : Addressed paths stamps)
    (rowed : grid.length = paths.length) (uniform : ∀ row ∈ grid, row.length = windowsOf stamps) :
    Full ⟨paths, reduction, stamps, grid.flatten⟩ := by
  have count := windowCount_eq ⟨paths, reduction, stamps, grid.flatten⟩
  constructor
  · rw [count, length_flatten_of_uniform uniform, rowed]
  · rwa [count]

theorem value?_of_grid {paths : List String} {reduction : Reduction} {stamps : Option (List Int64)}
    {grid : List (List Value)} (addressed : Addressed paths stamps)
    (rowed : grid.length = paths.length) (uniform : ∀ row ∈ grid, row.length = windowsOf stamps)
    (path window : Nat) :
    value? ⟨paths, reduction, stamps, grid.flatten⟩ path window =
      grid[path]?.bind (·[window]?) := by
  have count := windowCount_eq ⟨paths, reduction, stamps, grid.flatten⟩
  by_cases inside : path < paths.length ∧ window < windowsOf stamps
  · have full := full_of_grid reduction addressed rowed uniform
    rw [full.value?_eq inside.1 (count ▸ inside.2), count,
      getElem?_flatten_of_uniform uniform inside.2]
  · have outside : paths.length ≤ path ∨ windowsOf stamps ≤ window := by omega
    have none : grid[path]?.bind (·[window]?) = none := by
      rw [Option.bind_eq_none_iff]
      intro row listed
      obtain ⟨there, rfl⟩ := List.getElem?_eq_some_iff.mp listed
      have width := uniform _ (List.getElem_mem there)
      exact List.getElem?_eq_none (by omega)
    rw [none, value?, count]
    exact if_pos (by simpa using outside)

/-- Two windows of two paths, one of texts and one of a tenth and ten to the twentieth. -/
def twoByTwo : List (List Value) := [[.binary "é", .binary "no"],
  [.double ⟨0x3fb999999999999a⟩, .double ⟨0x4415af1d78b58c40⟩]]

def twoByTwoSummary : Summary := ⟨["a", "b"], .max, some [0, 5], twoByTwo.flatten⟩

end SeriesClient.Summary
