import SeriesClient.Proofs.Wire.ReceivedRow

/-! What a read does to a reader, for reads of all kinds. It passes the bytes of its answer or it
fails on the spot; only a text can fail behind its length. -/
namespace SeriesClient.Wire.Reader

/-- What may be read. -/
inductive Request where
  | take (count : Nat)
  | byte
  | int32
  | int64
  | float
  | double
  | value (declared : DataType)

/-- What is answered. -/
inductive Item where
  | bytes (bytes : Bytes)
  | byte (b : UInt8)
  | int32 (n : Int32)
  | int64 (n : Int64)
  | float (x : Binary32)
  | double (x : Binary64)
  | value (value : Value)

def read (reader : Reader) : Request → Except Error Item × Reader
  | .take count => ((reader.take count).1.map .bytes, (reader.take count).2)
  | .byte => (reader.byte.1.map .byte, reader.byte.2)
  | .int32 => (reader.int32.1.map .int32, reader.int32.2)
  | .int64 => (reader.int64.1.map .int64, reader.int64.2)
  | .float => (reader.float.1.map .float, reader.float.2)
  | .double => (reader.double.1.map .double, reader.double.2)
  | .value declared => ((reader.value declared).1.map .value, (reader.value declared).2)

/-- The bytes that an item stands for as the answer to a request. -/
inductive Stands : Request → Item → Bytes → Prop
  | bytes (bytes : Bytes) : Stands (.take bytes.length) (.bytes bytes) bytes
  | byte (b : UInt8) : Stands .byte (.byte b) [b]
  | int32 (n : Int32) : Stands .int32 (.int32 n) (int32Bytes n)
  | int64 (n : Int64) : Stands .int64 (.int64 n) (int64Bytes n)
  | float (x : Binary32) : Stands .float (.float x) (bigEndian 4 x.bits.toNat)
  | double (x : Binary64) : Stands .double (.double x) (bigEndian 8 x.bits.toNat)
  | value {value : Value} {bytes : Bytes} (form : ReadAs bytes value) :
    Stands (.value value.dataType) (.value value) bytes

/-- The reader stands at a length that no text can follow: it is negative, or more than what is left
behind it. -/
def Misled (reader : Reader) : Prop :=
  4 ≤ reader.remaining ∧
    (reader.announced < 0 ∨ ((reader.remaining - 4 : Nat) : Int) < reader.announced)

/-- What a read does: it passes the bytes that its item stands for, or it fails on the spot, or, for
a text, behind a length that misleads. -/
inductive ReadEffect (reader : Reader) : Request → Except Error Item × Reader → Prop
  | passed {request : Request} {item : Item} {bytes : Bytes} {after : Reader}
      (stands : Stands request item bytes) (passes : reader.Passes bytes after) :
      ReadEffect reader request (.ok item, after)
  | stopped {request : Request} {e : Error}
      (sound : ¬ (request = .value .binary ∧ reader.Misled)) :
      ReadEffect reader request (.error e, reader)
  | misled {e : Error} {after : Reader} (unfit : reader.Misled)
      (passes : reader.Passes (reader.rest.take 4) after) :
      ReadEffect reader (.value .binary) (.error e, after)

theorem take_effect {reader : Reader} {count : Nat} {request : Request} {make : Bytes → Item}
    (other : request ≠ .value .binary)
    (stands : ∀ bytes, bytes.length = count → Stands request (make bytes) bytes) :
    ReadEffect reader request ((reader.take count).1.map make, (reader.take count).2) := by
  by_cases short : reader.remaining < count
  · rw [take_of_lt reader count short]
    exact .stopped fun text => other text.1
  · have enough : count ≤ reader.remaining := Nat.le_of_not_lt short
    rw [take_of_le reader count enough]
    exact .passed (stands _ (List.length_take_of_le enough)) (passes_take enough)

theorem fixed_effect {α : Type} {count : Nat} {meaning : Bytes → α} {reader : Reader}
    {request : Request} {make : α → Item} (other : request ≠ .value .binary)
    (stands : ∀ bytes, bytes.length = count → Stands request (make (meaning bytes)) bytes) :
    ReadEffect reader request
      ((fixed count meaning reader).1.map make, (fixed count meaning reader).2) := by
  have effect : ReadEffect reader request
      ((reader.take count).1.map fun bytes => make (meaning bytes), (reader.take count).2) :=
    take_effect other stands
  rw [fixed]
  cases taken : reader.take count with
  | mk answer after =>
    rw [taken] at effect
    cases answer <;> exact effect

theorem text_of_misled {reader : Reader} (misled : reader.Misled) :
    ∃ e, reader.text = (.error e, ⟨reader.position + 4, reader.rest.drop 4⟩) := by
  obtain ⟨there, unfit⟩ := misled
  rw [text_of_there there]
  by_cases below : reader.announced < 0
  · rw [if_pos below]
    exact ⟨_, rfl⟩
  · have short : remaining ⟨reader.position + 4, reader.rest.drop 4⟩ < reader.announced.toNat := by
      have beyond := unfit.resolve_left below
      simp only [remaining, List.length_drop] at beyond ⊢
      omega
    rw [if_neg below, fixed_short short]
    exact ⟨_, rfl⟩

theorem text_eq_error {before after : Reader} {e : Error}
    (failed : before.text = (.error e, after)) :
    ¬ before.Misled ∧ after = before ∨
      before.Misled ∧ before.Passes (before.rest.take 4) after := by
  by_cases there : 4 ≤ before.remaining
  · rw [text_of_there there] at failed
    split at failed
    · next below =>
      cases failed
      exact .inr ⟨⟨there, .inl below⟩, passes_take there⟩
    · next nonneg =>
      have cut := (fixed_error_iff.mp (congrArg Prod.fst failed)).1
      obtain rfl := fixed_eq_error failed
      have beyond : ((before.remaining - 4 : Nat) : Int) < before.announced := by
        simp only [remaining, List.length_drop] at cut ⊢
        omega
      exact .inr ⟨⟨there, .inr beyond⟩, passes_take there⟩
  · have short : before.remaining < 4 := Nat.lt_of_not_le there
    rw [Reader.text, int32, fixed_short short] at failed
    cases failed
    exact .inl ⟨fun misled => there misled.1, rfl⟩

theorem value_effect (reader : Reader) (declared : DataType) :
    ReadEffect reader (.value declared) (reader.read (.value declared)) := by
  rw [read]
  cases outcome : reader.value declared with
  | mk answer after =>
    cases answer with
    | ok value =>
      obtain ⟨bytes, form, rfl, passes⟩ := value_eq_ok outcome
      exact .passed (.value form) passes
    | error e =>
      by_cases text : declared = .binary
      · subst text
        rcases text_eq_error (map_eq_error outcome) with ⟨sound, rfl⟩ | ⟨unfit, passes⟩
        · exact .stopped fun both => sound both.2
        · exact .misled unfit passes
      · have still : after = reader := by
          cases declared with
          | binary => exact absurd rfl text
          | _ => exact fixed_eq_error (map_eq_error outcome)
        subst still
        exact .stopped fun both => text (Request.value.inj both.1)

theorem read_effect (reader : Reader) (request : Request) :
    ReadEffect reader request (reader.read request) := by
  cases request with
  | take count =>
    refine take_effect Request.noConfusion fun bytes width => ?_
    exact width ▸ .bytes bytes
  | byte =>
    refine fixed_effect Request.noConfusion fun bytes width => ?_
    obtain ⟨b, rfl⟩ := List.length_eq_one_iff.mp width
    simpa [ofBigEndian] using Stands.byte b
  | int32 =>
    refine fixed_effect Request.noConfusion fun bytes width => ?_
    simpa only [int32Bytes_int32OfBytes width] using Stands.int32 (int32OfBytes bytes)
  | int64 =>
    refine fixed_effect Request.noConfusion fun bytes width => ?_
    simpa only [int64Bytes_int64OfBytes width] using Stands.int64 (int64OfBytes bytes)
  | float =>
    refine fixed_effect Request.noConfusion fun bytes width => ?_
    have back := Except.ok.inj ((encodeValue_readAs_iff (.float width)).mpr trivial)
    simpa only [back] using Stands.float ⟨UInt32.ofNat (ofBigEndian bytes)⟩
  | double =>
    refine fixed_effect Request.noConfusion fun bytes width => ?_
    have back := Except.ok.inj ((encodeValue_readAs_iff (.double width)).mpr trivial)
    simpa only [back] using Stands.double ⟨UInt64.ofNat (ofBigEndian bytes)⟩
  | value declared => exact value_effect reader declared

theorem read_of_misled {reader : Reader} (misled : reader.Misled) :
    (∃ e, (reader.read (.value .binary)).1 = .error e) ∧
      (reader.read (.value .binary)).2.position = reader.position + 4 := by
  obtain ⟨e, stopped⟩ := text_of_misled misled
  rw [read, value, stopped]
  exact ⟨⟨e, rfl⟩, rfl⟩

theorem read_unmoved {reader : Reader} {request : Request} {e : Error}
    (failed : (reader.read request).1 = .error e)
    (sound : ¬ (request = .value .binary ∧ reader.Misled)) : (reader.read request).2 = reader := by
  have effect := reader.read_effect request
  generalize reader.read request = outcome at effect failed
  cases effect with
  | passed => cases failed
  | stopped => rfl
  | misled unfit => exact absurd ⟨rfl, unfit⟩ sound

end SeriesClient.Wire.Reader
