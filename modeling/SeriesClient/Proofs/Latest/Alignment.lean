import SeriesClient.Latest
import SeriesClient.Proofs.Wire.ValueFaults

/-! The latest samples put together of four lists. They are put side by side as far as all of them
go, and all of them go equally far: what is not of one length is refused before. -/
namespace SeriesClient.Latest
open Wire Spelling

/-- The four lists go side by side: a type, eight bytes and a value for each path, and no more. -/
structure Parallel (paths : List String) (types : List DataType) (timestamps values : Bytes) :
    Prop where
  typed : paths.length = types.length
  timed : timestamps.length = 8 * paths.length
  valued : ∃ run : List Spelling, run.map declared = types ∧ joined run = values

/-- Why lists are refused, each fault with what must be in order before it counts. -/
inductive Refused (paths : List String) (types : List DataType) (timestamps values : Bytes) :
    Error → Prop
  | types (undeclared : paths.length ≠ types.length) :
    Refused paths types timestamps values (.invalid (.typesForPaths types.length paths.length))
  | partialLong (declared : paths.length = types.length) (ragged : timestamps.length % 8 ≠ 0) :
    Refused paths types timestamps values
      (.corrupted .timestamps (.partialLong timestamps.length))
  | count (declared : paths.length = types.length) (whole : timestamps.length % 8 = 0)
      (uncounted : timestamps.length / 8 ≠ paths.length) :
    Refused paths types timestamps values
      (.corrupted .timestamps (.timestampsForPaths (timestamps.length / 8) paths.length))
  | values {fault : Error} (declared : paths.length = types.length)
      (timed : timestamps.length = 8 * paths.length) (faulty : Faulty values types fault) :
    Refused paths types timestamps values fault

/-- What a result owes to the lists it was assembled of. An entry is made of what stands in its
place in each of them, and a path is looked up as the first among the paths. -/
structure Aligned (paths : List String) (types : List DataType) (timestamps values : Bytes)
    (latest : Latest) : Prop where
  size : latest.size = paths.length
  entry : ∀ (i : Nat) (sample : Sample), latest.samples[i]? = some sample →
    paths[i]? = some sample.path ∧ types[i]? = some sample.dataType ∧
      sample.timestamp = int64OfBytes ((timestamps.drop (8 * i)).take 8) ∧
      sample.value.dataType = sample.dataType
  values : ∃ run : List Spelling, run.map declared = types ∧
    run.map Spelling.value = latest.samples.map Sample.value ∧ joined run = values
  found : ∀ path sample, latest.find? path = some sample ↔ ∃ i : Nat,
    latest.samples[i]? = some sample ∧ paths[i]? = some path ∧
      ∀ earlier < i, paths[earlier]? ≠ some path
  missing : ∀ path, latest.find? path = none ↔ path ∉ paths

theorem samplesOf_map (samples : List Sample) :
    samplesOf (samples.map Sample.path) (samples.map Sample.dataType)
      (samples.map Sample.timestamp) (samples.map Sample.value) = samples := by
  induction samples with
  | nil => rfl
  | cons sample samples ih => exact congrArg (sample :: ·) ih

/-- Lists of one length are the columns of a list of samples. -/
theorem exists_samples {paths : List String} {types : List DataType} {timestamps : List Int64}
    {values : List Value} (typed : types.length = paths.length)
    (timed : timestamps.length = paths.length) (valued : values.length = paths.length) :
    ∃ samples : List Sample, samples.map Sample.path = paths ∧
      samples.map Sample.dataType = types ∧ samples.map Sample.timestamp = timestamps ∧
      samples.map Sample.value = values := by
  induction paths generalizing types timestamps values with
  | nil =>
    cases List.length_eq_zero_iff.mp typed
    cases List.length_eq_zero_iff.mp timed
    cases List.length_eq_zero_iff.mp valued
    exact ⟨[], rfl, rfl, rfl, rfl⟩
  | cons path paths ih =>
    obtain ⟨type, types, rfl⟩ := List.exists_cons_of_length_eq_add_one typed
    obtain ⟨timestamp, timestamps, rfl⟩ := List.exists_cons_of_length_eq_add_one timed
    obtain ⟨value, values, rfl⟩ := List.exists_cons_of_length_eq_add_one valued
    obtain ⟨samples, rfl, rfl, rfl, rfl⟩ := ih (Nat.succ.inj typed) (Nat.succ.inj timed)
      (Nat.succ.inj valued)
    exact ⟨⟨path, type, timestamp, value⟩ :: samples, rfl, rfl, rfl, rfl⟩

theorem find?_eq_some_iff {latest : Latest} {path : String} {sample : Sample} :
    latest.find? path = some sample ↔ ∃ i : Nat, latest.samples[i]? = some sample ∧
      (latest.samples.map Sample.path)[i]? = some path ∧
      ∀ earlier < i, (latest.samples.map Sample.path)[earlier]? ≠ some path := by
  rw [find?, List.find?_eq_some_iff_getElem]
  constructor
  · rintro ⟨named, i, inside, rfl, first⟩
    refine ⟨i, List.getElem?_eq_getElem inside, ?_, ?_⟩
    · rw [List.getElem?_map, List.getElem?_eq_getElem inside, Option.map_some, eq_of_beq named]
    · intro earlier early
      have there := first earlier early
      simpa [List.getElem?_eq_getElem (Nat.lt_trans early inside)] using there
  · rintro ⟨i, here, named, first⟩
    obtain ⟨inside, rfl⟩ := List.getElem?_eq_some_iff.mp here
    rw [List.getElem?_map, here, Option.map_some, Option.some.injEq] at named
    refine ⟨beq_iff_eq.mpr named, i, inside, rfl, ?_⟩
    intro earlier early
    have there := first earlier early
    simpa [List.getElem?_eq_getElem (Nat.lt_trans early inside)] using there

theorem find?_eq_none_iff {latest : Latest} {path : String} :
    latest.find? path = none ↔ path ∉ latest.samples.map Sample.path := by
  rw [find?, List.find?_eq_none]
  simp

section Checks
variable {paths : List String} {types : List DataType} {timestamps values : Bytes}

theorem assemble_of_undeclared (undeclared : paths.length ≠ types.length) :
    assemble paths types timestamps values =
      .error (.invalid (.typesForPaths types.length paths.length)) := by
  rw [assemble, checkTypes, if_pos undeclared]
  rfl

theorem assemble_of_ragged (declared : paths.length = types.length)
    (ragged : timestamps.length % 8 ≠ 0) :
    assemble paths types timestamps values =
      .error (.corrupted .timestamps (.partialLong timestamps.length)) := by
  rw [assemble, checkTypes, if_neg (not_not_intro declared), decodeTimestamps, if_pos ragged]
  rfl

theorem assemble_of_uncounted (declared : paths.length = types.length)
    (whole : timestamps.length % 8 = 0) (uncounted : timestamps.length / 8 ≠ paths.length) :
    assemble paths types timestamps values = .error (.corrupted .timestamps
      (.timestampsForPaths (timestamps.length / 8) paths.length)) := by
  rw [assemble, checkTypes, if_neg (not_not_intro declared), decodeTimestamps_of_whole whole]
  simp [bind, Except.bind, length_longs, uncounted]

theorem assemble_of_timed (declared : paths.length = types.length)
    (timed : timestamps.length = 8 * paths.length) :
    assemble paths types timestamps values = (decodeValues values types).map fun read =>
      ⟨samplesOf paths types (longs timestamps) read⟩ := by
  have whole : timestamps.length % 8 = 0 := timed ▸ Nat.mul_mod_right 8 _
  have counted : timestamps.length / 8 = paths.length := by omega
  rw [assemble, checkTypes, if_neg (not_not_intro declared), decodeTimestamps_of_whole whole]
  simp only [bind, Except.bind, length_longs, counted, ne_eq, not_true_eq_false, if_false]
  cases decodeValues values types <;> rfl

theorem Refused.assemble_eq {e : Error} (refused : Refused paths types timestamps values e) :
    assemble paths types timestamps values = .error e := by
  cases refused with
  | types undeclared => exact assemble_of_undeclared undeclared
  | partialLong declared ragged => exact assemble_of_ragged declared ragged
  | count declared whole uncounted => exact assemble_of_uncounted declared whole uncounted
  | values declared timed faulty =>
    rw [assemble_of_timed declared timed, decodeValues_eq_error_iff.mpr faulty]
    rfl

theorem Refused.corrupted {e : Error} (refused : Refused paths types timestamps values e)
    (declared : paths.length = types.length) : ∃ place damage, e = .corrupted place damage := by
  cases refused with
  | types undeclared => exact absurd declared undeclared
  | partialLong => exact ⟨_, _, rfl⟩
  | count => exact ⟨_, _, rfl⟩
  | values _ _ faulty => exact faulty.corrupted

/-- Lists that do not go side by side have a first fault. -/
theorem parallel_or_refused (paths : List String) (types : List DataType)
    (timestamps values : Bytes) :
    Parallel paths types timestamps values ∨ ∃ e, Refused paths types timestamps values e := by
  by_cases declared : paths.length = types.length
  case neg => exact .inr ⟨_, .types declared⟩
  by_cases whole : timestamps.length % 8 = 0
  case neg => exact .inr ⟨_, .partialLong declared whole⟩
  by_cases counted : timestamps.length / 8 = paths.length
  case neg => exact .inr ⟨_, .count declared whole counted⟩
  have timed : timestamps.length = 8 * paths.length := by omega
  cases decoded : decodeValues values types with
  | error fault => exact .inr ⟨fault, .values declared timed (decodeValues_eq_error_iff.mp decoded)⟩
  | ok read =>
    obtain ⟨run, listed, -, joined⟩ := decodeValues_eq_ok_iff.mp decoded
    exact .inl ⟨declared, timed, run, listed, joined⟩

end Checks

/-- Timestamps and values that go with samples, one for each. -/
structure Columns (samples : List Sample) (timestamps : Bytes) (run : List Spelling) : Prop where
  long : timestamps.length = 8 * samples.length
  timed : longs timestamps = samples.map Sample.timestamp
  listed : run.map declared = samples.map Sample.dataType
  spelled : run.map Spelling.value = samples.map Sample.value

namespace Columns
variable {samples : List Sample} {timestamps : Bytes} {run : List Spelling}
  (columns : Columns samples timestamps run)
include columns

/-- The columns of samples are put together to the samples. -/
theorem assembles : assemble (samples.map Sample.path) (samples.map Sample.dataType) timestamps
    (joined run) = .ok ⟨samples⟩ := by
  have declared : (samples.map Sample.path).length = (samples.map Sample.dataType).length := by
    rw [List.length_map, List.length_map]
  have counted : timestamps.length = 8 * (samples.map Sample.path).length := by
    rw [List.length_map, columns.long]
  have decoded := decodeValues_run run
  rw [columns.listed, columns.spelled] at decoded
  rw [assemble_of_timed declared counted, decoded, columns.timed, Except.map, samplesOf_map]

theorem typed : samples.map (Value.dataType ∘ Sample.value) = samples.map Sample.dataType :=
  calc samples.map (Value.dataType ∘ Sample.value)
    _ = (samples.map Sample.value).map Value.dataType := List.map_map.symm
    _ = (run.map Spelling.value).map Value.dataType := by rw [columns.spelled]
    _ = run.map declared := List.map_map
    _ = samples.map Sample.dataType := columns.listed

theorem aligned : Aligned (samples.map Sample.path) (samples.map Sample.dataType) timestamps
    (joined run) ⟨samples⟩ := by
  constructor
  case size => exact (List.length_map _).symm
  case entry =>
    intro i sample here
    have long := columns.long
    have inside : i < samples.length := (List.getElem?_eq_some_iff.mp here).1
    have within : i < timestamps.length / 8 := by omega
    have time := getElem?_longs timestamps i within
    rw [columns.timed, List.getElem?_map, here, Option.map_some, Option.some.injEq] at time
    refine ⟨?_, ?_, time, List.map_inj_left.mp columns.typed sample (List.mem_of_getElem? here)⟩
    · rw [List.getElem?_map, here, Option.map_some]
    · rw [List.getElem?_map, here, Option.map_some]
  case values => exact ⟨run, columns.listed, columns.spelled, rfl⟩
  case found => exact fun path sample => find?_eq_some_iff
  case missing => exact fun path => find?_eq_none_iff

end Columns

/-- Lists that go side by side are the columns of samples. -/
theorem Parallel.assembles {paths : List String} {types : List DataType} {timestamps values : Bytes}
    (parallel : Parallel paths types timestamps values) : ∃ latest,
      assemble paths types timestamps values = .ok latest ∧
        Aligned paths types timestamps values latest := by
  obtain ⟨typed, timed, run, rfl, rfl⟩ := parallel
  have long : (longs timestamps).length = paths.length := by
    rw [length_longs]
    omega
  have valued : (run.map Spelling.value).length = paths.length := by
    rw [typed, List.length_map, List.length_map]
  obtain ⟨samples, rfl, listed, times, spelled⟩ := exists_samples typed.symm long valued
  rw [List.length_map] at timed
  have columns : Columns samples timestamps run := ⟨timed, times.symm, listed.symm, spelled.symm⟩
  rw [← listed]
  exact ⟨⟨samples⟩, columns.assembles, columns.aligned⟩

section Outcomes
variable {paths : List String} {types : List DataType} {timestamps values : Bytes}

theorem parallel_of_assemble {latest : Latest}
    (done : assemble paths types timestamps values = .ok latest) :
    Parallel paths types timestamps values := by
  rcases parallel_or_refused paths types timestamps values with parallel | ⟨e, refused⟩
  · exact parallel
  · cases refused.assemble_eq.symm.trans done

theorem assemble_error_iff {e : Error} :
    assemble paths types timestamps values = .error e ↔
      Refused paths types timestamps values e := by
  refine ⟨?_, Refused.assemble_eq⟩
  intro failed
  rcases parallel_or_refused paths types timestamps values with parallel | ⟨e', refused⟩
  · obtain ⟨latest, done, -⟩ := parallel.assembles
    cases done.symm.trans failed
  · cases refused.assemble_eq.symm.trans failed
    exact refused

end Outcomes

/-- Samples whose values fit their types are written, and put together again of what was written. -/
theorem assemble_written {samples : List Sample}
    (fits : ∀ sample ∈ samples, Encodable sample.dataType sample.value) :
    ∃ chunks : List Bytes,
      samples.map (fun sample => encodeValue sample.dataType sample.value) = chunks.map .ok ∧
      assemble (samples.map Sample.path) (samples.map Sample.dataType)
        (encodeTimestamps (samples.map Sample.timestamp)) chunks.flatten = .ok ⟨samples⟩ := by
  have pairs : List.Forall₂ Encodable (samples.map Sample.dataType) (samples.map Sample.value) := by
    rw [List.forall₂_map_left_iff, List.forall₂_map_right_iff, List.forall₂_same]
    exact fits
  obtain ⟨run, listed, spelled, written⟩ := exists_spellings pairs
  rw [List.zipWith_map, List.zipWith_self] at written
  refine ⟨run.map Spelling.bytes, ?_, ?_⟩
  · rw [written, List.map_map]
    rfl
  · rw [← List.flatMap_def]
    refine Columns.assembles ⟨?_, longs_encodeTimestamps _, listed, spelled⟩
    rw [length_encodeTimestamps, List.length_map]

/-- The latest samples are assembled exactly of lists that go side by side, each sample of what
stands in its place. Types that do not match the paths are an invalid request, and every other fault
is damage. Samples that were written are assembled again as they were. -/
theorem assemble_aligns :
    (∀ (paths : List String) (types : List DataType) (timestamps values : Bytes),
      ((∃ latest, assemble paths types timestamps values = .ok latest) ↔
        Parallel paths types timestamps values) ∧
      ((∃ fault, assemble paths types timestamps values = .error (.invalid fault)) ↔
        paths.length ≠ types.length) ∧
      (∀ e, assemble paths types timestamps values = .error e ↔
        Refused paths types timestamps values e) ∧
      (∀ e, assemble paths types timestamps values = .error e → paths.length = types.length →
        ∃ place damage, e = .corrupted place damage) ∧
      ∀ latest, assemble paths types timestamps values = .ok latest →
        Aligned paths types timestamps values latest) ∧
    ∀ samples : List Sample,
      (∀ sample ∈ samples, Encodable sample.dataType sample.value) → ∃ chunks : List Bytes,
        samples.map (fun sample => encodeValue sample.dataType sample.value) = chunks.map .ok ∧
        assemble (samples.map Sample.path) (samples.map Sample.dataType)
          (encodeTimestamps (samples.map Sample.timestamp)) chunks.flatten = .ok ⟨samples⟩ := by
  refine ⟨?_, fun samples fits => assemble_written fits⟩
  intro paths types timestamps values
  refine ⟨⟨?_, ?_⟩, ⟨?_, ?_⟩, fun e => assemble_error_iff, ?_, ?_⟩
  · rintro ⟨latest, done⟩
    exact parallel_of_assemble done
  · intro parallel
    obtain ⟨latest, done, -⟩ := parallel.assembles
    exact ⟨latest, done⟩
  · rintro ⟨fault, failed⟩ declared
    obtain ⟨_, _, same⟩ := (assemble_error_iff.mp failed).corrupted declared
    cases same
  · intro undeclared
    exact ⟨_, assemble_of_undeclared undeclared⟩
  · intro e failed declared
    exact (assemble_error_iff.mp failed).corrupted declared
  · intro latest done
    obtain ⟨latest', done', aligned⟩ := (parallel_of_assemble done).assembles
    cases done'.symm.trans done
    exact aligned

/-- A path given twice, a number that is not one, and a text. -/
def mixedSamples : List Sample :=
  [⟨"a", .double, 7, .double ⟨0x7ff0000000000001⟩⟩, ⟨"b", .binary, -1, .binary "é"⟩,
    ⟨"a", .boolean, 9, .boolean true⟩]

theorem mixedSamples_align :
    (∀ sample ∈ mixedSamples, Encodable sample.dataType sample.value) ∧
    (∃ chunks : List Bytes,
      mixedSamples.map (fun sample => encodeValue sample.dataType sample.value) = chunks.map .ok ∧
      assemble ["a", "b", "a"] [.double, .binary, .boolean] (encodeTimestamps [7, -1, 9])
        chunks.flatten = .ok ⟨mixedSamples⟩) ∧
    Aligned ["a", "a"] [.boolean, .integer] (encodeTimestamps [5, 6]) [2, 0, 0, 0, 7]
      ⟨[⟨"a", .boolean, 5, .boolean true⟩, ⟨"a", .integer, 6, .integer 7⟩]⟩ ∧
    Refused ["a", "a"] [.boolean, .integer] (encodeTimestamps [5, 6]) [2, 0, 0, 0, 7, 8]
      (.corrupted .value (.trailingBytes 1 2)) ∧
    ¬ Parallel ["a", "a"] [.boolean, .integer] (encodeTimestamps [5, 6]) [2, 0, 0, 0] := by
  have fits : ∀ sample ∈ mixedSamples, Encodable sample.dataType sample.value := by decide
  obtain ⟨outcomes, written⟩ := assemble_aligns
  obtain ⟨-, -, -, -, aligned⟩ := outcomes ["a", "a"] [.boolean, .integer] (encodeTimestamps [5, 6])
    [2, 0, 0, 0, 7]
  obtain ⟨-, -, refused, -, -⟩ := outcomes ["a", "a"] [.boolean, .integer] (encodeTimestamps [5, 6])
    [2, 0, 0, 0, 7, 8]
  obtain ⟨parallel, -⟩ := outcomes ["a", "a"] [.boolean, .integer] (encodeTimestamps [5, 6])
    [2, 0, 0, 0]
  refine ⟨fits, written _ fits, aligned _ (by decide), (refused _).mp (by decide), ?_⟩
  intro complete
  obtain ⟨latest, done⟩ := parallel.mpr complete
  cases done

end SeriesClient.Latest
