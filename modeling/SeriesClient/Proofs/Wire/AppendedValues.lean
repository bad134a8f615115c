import SeriesClient.Proofs.Wire.DenseValues

/-! Values put behind what a buffer holds, one after the other and some of them refused. A refused
value leaves no byte, so that what stands behind the first bytes is a run of the accepted values,
whatever was refused between them. -/
namespace SeriesClient.Wire
open Spelling

/-- A value that is to be written under a type. -/
structure Attempt where
  declared : DataType
  value : Value

/-- Bytes that a value of the type takes up; those of a text stand behind four of its length. -/
def packedSize (declared : DataType) (value : Value) : Nat :=
  declared.fixedWidth.getD (4 + textSize value)

theorem length_of_encodeValue {declared : DataType} {value : Value} {bytes : Bytes}
    (written : encodeValue declared value = .ok bytes) :
    bytes.length = packedSize declared value := by
  obtain ⟨rfl, short⟩ := encodable_of_encodeValue written
  cases value with
  | boolean b =>
    cases written
    rfl
  | binary text =>
    cases (if_pos short).symm.trans written
    rw [List.length_append, length_bigEndian]
    rfl
  | integer n | long n | float x | double x =>
    cases written
    exact length_bigEndian ..

/-- What an attempt does to the buffer: its bytes are added, or nothing is. -/
inductive AppendEffect (buffer : Bytes) (declared : DataType) (value : Value) :
    Except Error Unit × Bytes → Prop
  | written {bytes : Bytes} (form : encodeValue declared value = .ok bytes) :
    AppendEffect buffer declared value (.ok (), buffer ++ bytes)
  | refused {e : Error} (refusal : Refusal declared value e) :
    AppendEffect buffer declared value (.error e, buffer)

theorem append_effect (buffer : Bytes) (declared : DataType) (value : Value) :
    AppendEffect buffer declared value (appendValue buffer declared value) := by
  rw [appendValue_eq]
  cases form : encodeValue declared value with
  | ok bytes => exact .written form
  | error e => exact .refused (encodeValue_eq_error_iff.mp form)

theorem append_fails_iff {buffer : Bytes} {declared : DataType} {value : Value} {e : Error} :
    (appendValue buffer declared value).1 = .error e ↔ Refusal declared value e := by
  rw [← encodeValue_eq_error_iff, appendValue_eq]
  cases encodeValue declared value <;> simp

theorem unharmed_of_append {buffer : Bytes} {declared : DataType} {value : Value} {e : Error}
    (failed : (appendValue buffer declared value).1 = .error e) :
    (appendValue buffer declared value).2 = buffer := by
  have effect := append_effect buffer declared value
  generalize appendValue buffer declared value = outcome at effect failed
  cases effect with
  | written => cases failed
  | refused => rfl

theorem added_of_append {buffer : Bytes} {declared : DataType} {value : Value}
    (done : (appendValue buffer declared value).1 = .ok ()) : ∃ bytes,
      (appendValue buffer declared value).2 = buffer ++ bytes ∧
      bytes.length = packedSize declared value := by
  have effect := append_effect buffer declared value
  generalize appendValue buffer declared value = outcome at effect done
  cases effect with
  | written form => exact ⟨_, rfl, length_of_encodeValue form⟩
  | refused => cases done

/-- The buffer after all attempts. -/
def appendAll (buffer : Bytes) : List Attempt → Bytes
  | [] => buffer
  | attempt :: attempts =>
    appendAll (appendValue buffer attempt.declared attempt.value).2 attempts

/-- The attempts that succeed. -/
def accepted (buffer : Bytes) : List Attempt → List Attempt
  | [] => []
  | attempt :: attempts => match appendValue buffer attempt.declared attempt.value with
    | (.ok (), buffer) => attempt :: accepted buffer attempts
    | (.error _, buffer) => accepted buffer attempts

theorem Refusal.not_encodable {declared : DataType} {value : Value} {e : Error}
    (refusal : Refusal declared value e) : ¬ Encodable declared value := by
  rintro ⟨typed, short⟩
  cases refusal with
  | mismatch differs => exact differs typed
  | tooLong _ long => exact Nat.not_le.mpr long short

/-- Nothing that came before decides whether a value is accepted. -/
theorem accepted_eq_filter (initial : Bytes) (attempts : List Attempt) :
    accepted initial attempts =
      attempts.filter fun attempt => Encodable attempt.declared attempt.value := by
  induction attempts generalizing initial with
  | nil => rfl
  | cons attempt attempts ih =>
    have effect := append_effect initial attempt.declared attempt.value
    rw [accepted]
    generalize appendValue initial attempt.declared attempt.value = outcome at effect
    cases effect with
    | written form =>
      have fits := encodable_of_encodeValue form
      simp [ih, fits]
    | refused refusal =>
      have unfit := refusal.not_encodable
      simp [ih, unfit]

/-- Behind the first bytes stands a run of the accepted values and nothing else. -/
theorem exists_run_appendAll (initial : Bytes) (attempts : List Attempt) :
    ∃ run : List Spelling,
      run.map declared = (accepted initial attempts).map Attempt.declared ∧
      run.map Spelling.value = (accepted initial attempts).map Attempt.value ∧
      appendAll initial attempts = initial ++ joined run := by
  induction attempts generalizing initial with
  | nil => exact ⟨[], rfl, rfl, (List.append_nil initial).symm⟩
  | cons attempt attempts ih =>
    have effect := append_effect initial attempt.declared attempt.value
    rw [accepted, appendAll]
    generalize appendValue initial attempt.declared attempt.value = outcome at effect
    cases effect with
    | refused => exact ih initial
    | @written bytes form =>
      obtain ⟨run, listed, spelled, whole⟩ := ih (initial ++ bytes)
      obtain ⟨reads, typed⟩ := readAs_of_encodeValue form
      refine ⟨⟨attempt.value, bytes, reads⟩ :: run, ?_, ?_, ?_⟩
      · simp only [List.map_cons, listed, declared, typed]
      · simp only [List.map_cons, spelled]
      · simp only [whole, joined_cons, List.append_assoc]

/-- A value is refused for its type or for the length of its text and for nothing else, and then the
buffer stays as it was; an accepted value is added behind it in as many bytes as its type takes up.
After any attempts the first bytes stand where they stood, and what has come behind them is read as
the accepted values, in all their bits. -/
theorem attempts_leave_accepted :
    (∀ (buffer : Bytes) (declared : DataType) (value : Value),
      (∀ e, (appendValue buffer declared value).1 = .error e ↔ Refusal declared value e) ∧
      (∀ e, (appendValue buffer declared value).1 = .error e →
        (appendValue buffer declared value).2 = buffer) ∧
      ((appendValue buffer declared value).1 = .ok () → ∃ bytes,
        (appendValue buffer declared value).2 = buffer ++ bytes ∧
        bytes.length = packedSize declared value)) ∧
    ∀ (initial : Bytes) (attempts : List Attempt),
      accepted initial attempts =
        attempts.filter (fun attempt => Encodable attempt.declared attempt.value) ∧
      ∃ bytes, appendAll initial attempts = initial ++ bytes ∧
        decodeValues bytes ((accepted initial attempts).map Attempt.declared) =
          .ok ((accepted initial attempts).map Attempt.value) := by
  constructor
  · intro buffer declared value
    exact ⟨fun _ => append_fails_iff, fun _ => unharmed_of_append, added_of_append⟩
  · intro initial attempts
    refine ⟨accepted_eq_filter initial attempts, ?_⟩
    obtain ⟨run, listed, spelled, whole⟩ := exists_run_appendAll initial attempts
    refine ⟨joined run, whole, ?_⟩
    rw [← listed, ← spelled]
    exact decodeValues_run run

/-- Two refused values among three accepted ones, one of these a float that is no number. -/
def faltering : List Attempt :=
  [⟨.long, .boolean true⟩, ⟨.binary, .binary "é"⟩, ⟨.integer, .long 1⟩,
    ⟨.double, .double ⟨0x7ff8000000000001⟩⟩, ⟨.boolean, .boolean true⟩]

theorem faltering_leave_accepted :
    (appendValue [0xAB] .long (.boolean true)).1 =
      .error (.typeMismatch .value .long .boolean) ∧
    (appendValue [0xAB] .long (.boolean true)).2 = [0xAB] ∧
    (∃ bytes, (appendValue [0xAB] .binary (.binary "é")).2 = [0xAB] ++ bytes ∧
      bytes.length = 6) ∧
    ∃ bytes, appendAll [0xAB] faltering = [0xAB] ++ bytes ∧
      decodeValues bytes [.binary, .double, .boolean] =
        .ok [.binary "é", .double ⟨0x7ff8000000000001⟩, .boolean true] := by
  obtain ⟨single, sequence⟩ := attempts_leave_accepted
  obtain ⟨refused, unharmed, -⟩ := single [0xAB] .long (.boolean true)
  obtain ⟨-, -, added⟩ := single [0xAB] .binary (.binary "é")
  obtain ⟨-, whole⟩ := sequence [0xAB] faltering
  have mismatch := (refused _).mpr (.mismatch (by decide))
  exact ⟨mismatch, unharmed _ mismatch, added rfl, whole⟩

end SeriesClient.Wire
