import Mathlib.Data.List.Forall2
import SeriesClient.Proofs.Overrun
import SeriesClient.Proofs.Wire.ReadEffects

/-! A reader in use: any reads in any order, some of them failing, and returns to where it has been.
It never leaves its buffer, and what its reads use up is the buffer itself, piece by piece. -/
namespace SeriesClient.Wire.Reader

/-- What remains for the reader is what the buffer holds from its position on. -/
structure StandsIn (reader : Reader) (buffer : Bytes) : Prop where
  within : reader.position ≤ buffer.length
  rest : reader.rest = buffer.drop reader.position

theorem ofBytes_standsIn (buffer : Bytes) : (ofBytes buffer).StandsIn buffer :=
  ⟨Nat.zero_le _, rfl⟩

section Standing
variable {buffer : Bytes} {reader : Reader}

theorem StandsIn.position_add_remaining (stands : reader.StandsIn buffer) :
    reader.position + reader.remaining = buffer.length := by
  rw [remaining, stands.rest, List.length_drop]
  exact Nat.add_sub_of_le stands.within

theorem StandsIn.passes {bytes : Bytes} {after : Reader} (stands : reader.StandsIn buffer)
    (passes : reader.Passes bytes after) : after.StandsIn buffer := by
  obtain ⟨rest, position⟩ := passes
  have whole := stands.position_add_remaining
  rw [remaining, rest, List.length_append] at whole
  constructor
  · omega
  · rw [position, ← List.drop_drop, ← stands.rest, rest, List.drop_left]

/-- What a reader passes is cut out of its buffer. -/
theorem StandsIn.slice_eq {bytes : Bytes} {after : Reader} (stands : reader.StandsIn buffer)
    (passes : reader.Passes bytes after) :
    slice buffer reader.position after.position = .ok bytes := by
  obtain ⟨rest, position⟩ := passes
  refine slice_eq_ok_iff.mpr ⟨buffer.take reader.position, after.rest, ?_, ?_, position.symm⟩
  · rw [List.append_assoc, ← rest, stands.rest, List.take_append_drop]
  · exact List.length_take_of_le stands.within

/-- A take from the buffer and the position alone: what is left is a difference, what is taken is a
slice, and each of them may overrun. A read of a fixed width is one take. -/
def takeFrom (buffer : Bytes) (position count : Nat) :
    Except Overrun (Except Error Bytes × Nat) := do
  let left ← leftBehind buffer.length position
  if left < count then
    .ok (.error (.corrupted .value (.shortRead count position left)), position)
  else
    let bytes ← slice buffer position (position + count)
    .ok (.ok bytes, position + count)

/-- A text is two takes, the second as long as the first says. -/
def textFrom (buffer : Bytes) (position : Nat) :
    Except Overrun (Except Error String × Nat) := do
  let (length, behind) ← takeFrom buffer position 4
  match length.map int32OfBytes with
  | .error e => .ok (.error e, behind)
  | .ok length =>
    if length < 0 then .ok (.error (.corrupted .value (.negativeLength length.toInt)), behind)
    else
      let (bytes, after) ← takeFrom buffer behind length.toInt.toNat
      .ok (bytes.map Utf8.decode, after)

theorem StandsIn.leftBehind_eq (stands : reader.StandsIn buffer) :
    leftBehind buffer.length reader.position = .ok reader.remaining :=
  leftBehind_eq_ok_iff.mpr stands.position_add_remaining

theorem StandsIn.takeFrom_eq (stands : reader.StandsIn buffer) (count : Nat) :
    takeFrom buffer reader.position count =
      .ok ((reader.take count).1, (reader.take count).2.position) := by
  rw [takeFrom, stands.leftBehind_eq]
  by_cases short : reader.remaining < count
  · rw [take_of_lt reader count short]
    simp only [bind, Except.bind, if_pos short]
  · have enough : count ≤ reader.remaining := Nat.le_of_not_lt short
    have taken := stands.slice_eq (passes_take enough)
    rw [take_of_le reader count enough]
    simp only [bind, Except.bind, if_neg short, taken]

theorem StandsIn.textFrom_eq (stands : reader.StandsIn buffer) :
    textFrom buffer reader.position = .ok (reader.text.1, reader.text.2.position) := by
  rw [textFrom, stands.takeFrom_eq, Reader.text, int32, fixed]
  by_cases short : reader.remaining < 4
  · rw [take_of_lt reader 4 short]
    rfl
  · have there : 4 ≤ reader.remaining := Nat.le_of_not_lt short
    have onward := stands.passes (passes_take there)
    rw [take_of_le reader 4 there]
    by_cases below : int32OfBytes (reader.rest.take 4) < 0
    · simp only [bind, Except.bind, Except.map, if_pos below]
    · have second := onward.takeFrom_eq (int32OfBytes (reader.rest.take 4)).toInt.toNat
      simp only [bind, Except.bind, Except.map, if_neg below, second]
      rfl

theorem take_succeeds_iff {count : Nat} :
    (∃ bytes, (reader.take count).1 = .ok bytes) ↔ count ≤ reader.remaining := by
  rw [take]
  split
  · next short => simp [Nat.not_le.mpr short]
  · next enough => simp [Nat.le_of_not_lt enough]

theorem StandsIn.take_eq_ok_iff (stands : reader.StandsIn buffer) {count : Nat} {bytes : Bytes} :
    (reader.take count).1 = .ok bytes ↔
      slice buffer reader.position (reader.position + count) = .ok bytes := by
  by_cases short : reader.remaining < count
  · have whole := stands.position_add_remaining
    have beyond : ¬ reader.position + count ≤ buffer.length := by omega
    rw [take_of_lt reader count short, slice, if_neg (by omega), if_pos (Nat.lt_of_not_le beyond)]
    simp
  · have enough : count ≤ reader.remaining := Nat.le_of_not_lt short
    rw [take_of_le reader count enough, stands.slice_eq (passes_take enough)]
    simp

/-- A read that was made, and the stretch of the buffer it went over. -/
structure Stretch where
  request : Request
  answer : Except Error Item
  start : Nat
  stop : Nat

/-- Reads one after the other. A failed one does not keep the next from being made. -/
def stretches (reader : Reader) : List Request → List Stretch
  | [] => []
  | request :: requests =>
    ⟨request, (reader.read request).1, reader.position, (reader.read request).2.position⟩ ::
      (reader.read request).2.stretches requests

def reads (reader : Reader) : List Request → Reader
  | [] => reader
  | request :: requests => (reader.read request).2.reads requests

/-- What a read has used up in a buffer of this size: the bytes of its item, or nothing, or the
length of a text that is negative or goes beyond the buffer. -/
inductive Uses (size : Nat) : Stretch → Bytes → Prop
  | item {request : Request} {item : Item} {start stop : Nat} {bytes : Bytes}
      (stands : Stands request item bytes) : Uses size ⟨request, .ok item, start, stop⟩ bytes
  | nothing {request : Request} {e : Error} {place : Nat} :
      Uses size ⟨request, .error e, place, place⟩ []
  | length {e : Error} {start stop : Nat} {length : Bytes} (width : length.length = 4)
      (unfit : (int32OfBytes length).toInt < 0 ∨
        ((size - stop : Nat) : Int) < (int32OfBytes length).toInt) :
      Uses size ⟨.value .binary, .error e, start, stop⟩ length

/-- The bytes of a buffer along a stretch, which the read there has used up. -/
def Along (buffer : Bytes) (stretch : Stretch) (bytes : Bytes) : Prop :=
  slice buffer stretch.start stretch.stop = .ok bytes ∧ Uses buffer.length stretch bytes

theorem StandsIn.read_uses (stands : reader.StandsIn buffer) (request : Request) :
    ∃ bytes, reader.Passes bytes (reader.read request).2 ∧ Uses buffer.length
      ⟨request, (reader.read request).1, reader.position, (reader.read request).2.position⟩
        bytes := by
  have effect := reader.read_effect request
  generalize reader.read request = outcome at effect
  cases effect with
  | passed spelled passes => exact ⟨_, passes, .item spelled⟩
  | stopped sound => exact ⟨[], reader.passes_nil, .nothing⟩
  | @misled e after unfit passes =>
    obtain ⟨there, unfit⟩ := unfit
    have width : (reader.rest.take 4).length = 4 := List.length_take_of_le there
    have whole := stands.position_add_remaining
    have behind := passes.2
    have left : buffer.length - after.position = reader.remaining - 4 := by omega
    exact ⟨_, passes, .length width (left ▸ unfit)⟩

theorem StandsIn.read (stands : reader.StandsIn buffer) (request : Request) :
    (reader.read request).2.StandsIn buffer := by
  obtain ⟨bytes, passes, -⟩ := stands.read_uses request
  exact stands.passes passes

theorem StandsIn.reads_use (stands : reader.StandsIn buffer) (requests : List Request) :
    ∃ chunks, List.Forall₂ (Along buffer) (reader.stretches requests) chunks ∧
      reader.Passes chunks.flatten (reader.reads requests) := by
  induction requests generalizing reader with
  | nil => exact ⟨[], .nil, reader.passes_nil⟩
  | cons request requests ih =>
    obtain ⟨bytes, passes, uses⟩ := stands.read_uses request
    obtain ⟨chunks, used, onward⟩ := ih (stands.read request)
    exact ⟨bytes :: chunks, .cons ⟨stands.slice_eq passes, uses⟩ used, passes.append onward⟩

end Standing

/-- A reader, and every reader it has been before: of each of them a copy may have been kept. -/
structure Course where
  reader : Reader
  past : List Reader := []

inductive Act where
  | read (request : Request)
  | restore (moment : Nat)

namespace Course

def ofBytes (buffer : Bytes) : Course := { reader := .ofBytes buffer }

def act (course : Course) : Act → Course
  | .read request => ⟨(course.reader.read request).2, course.past ++ [course.reader]⟩
  | .restore moment =>
    ⟨course.past[moment]?.getD course.reader, course.past ++ [course.reader]⟩

def after (course : Course) : List Act → Course
  | [] => course
  | act :: acts => (course.act act).after acts

def StandsIn (course : Course) (buffer : Bytes) : Prop :=
  course.reader.StandsIn buffer ∧ ∀ earlier ∈ course.past, earlier.StandsIn buffer

theorem StandsIn.act {course : Course} {buffer : Bytes} (stands : course.StandsIn buffer)
    (act : Act) : (course.act act).StandsIn buffer := by
  obtain ⟨now, before⟩ := stands
  have kept : ∀ earlier ∈ course.past ++ [course.reader], earlier.StandsIn buffer := by
    intro earlier member
    rcases List.mem_append.mp member with old | new
    · exact before earlier old
    · exact List.mem_singleton.mp new ▸ now
  refine ⟨?_, ?_⟩
  · cases act with
    | read request => exact now.read request
    | restore moment =>
      show (course.past[moment]?.getD course.reader).StandsIn buffer
      cases found : course.past[moment]? with
      | none => exact now
      | some earlier => exact before earlier (List.mem_of_getElem? found)
  · cases act <;> exact kept

theorem StandsIn.after {course : Course} {buffer : Bytes} (stands : course.StandsIn buffer)
    (acts : List Act) : (course.after acts).StandsIn buffer := by
  induction acts generalizing course with
  | nil => exact stands
  | cons act acts ih => exact ih (stands.act act)

theorem after_standsIn (buffer : Bytes) (acts : List Act) :
    ((ofBytes buffer).after acts).reader.StandsIn buffer := by
  have start : (ofBytes buffer).StandsIn buffer :=
    ⟨ofBytes_standsIn buffer, fun _ none => absurd none List.not_mem_nil⟩
  exact (start.after acts).1

end Course

/-- Whatever was read of a buffer and wherever reading has gone back to, the reader stands within
the buffer: what remains is a true difference, and takes, alone or for a text, cut true slices. A
take succeeds exactly when that many bytes remain. A failed read leaves the reader where it is, but
for a text whose length is there and misleads: the length stays used up. And any reads from there
on, failed ones among them, use up the buffer from where they begin to where they end, in order. -/
theorem reads_within_buffer (buffer : Bytes) (acts : List Act) :
    let reader := ((Course.ofBytes buffer).after acts).reader
    reader.position ≤ buffer.length ∧ reader.rest = buffer.drop reader.position ∧
    leftBehind buffer.length reader.position = .ok reader.remaining ∧
    (∀ count,
      takeFrom buffer reader.position count =
        .ok ((reader.take count).1, (reader.take count).2.position) ∧
      ((∃ bytes, (reader.take count).1 = .ok bytes) ↔ count ≤ reader.remaining) ∧
      ∀ bytes, (reader.take count).1 = .ok bytes ↔
        slice buffer reader.position (reader.position + count) = .ok bytes) ∧
    textFrom buffer reader.position = .ok (reader.text.1, reader.text.2.position) ∧
    (∀ request e, (reader.read request).1 = .error e →
      ¬ (request = .value .binary ∧ reader.Misled) → (reader.read request).2 = reader) ∧
    (reader.Misled → (∃ e, (reader.read (.value .binary)).1 = .error e) ∧
      (reader.read (.value .binary)).2.position = reader.position + 4) ∧
    ∀ requests, ∃ chunks, List.Forall₂ (Along buffer) (reader.stretches requests) chunks ∧
      slice buffer reader.position (reader.reads requests).position = .ok chunks.flatten := by
  intro reader
  have stands : reader.StandsIn buffer := Course.after_standsIn buffer acts
  refine ⟨stands.within, stands.rest, stands.leftBehind_eq, ?_, stands.textFrom_eq, ?_,
    read_of_misled, ?_⟩
  · intro count
    exact ⟨stands.takeFrom_eq count, take_succeeds_iff, fun bytes => stands.take_eq_ok_iff⟩
  · intro request e failed sound
    exact read_unmoved failed sound
  · intro requests
    obtain ⟨chunks, used, passes⟩ := stands.reads_use requests
    exact ⟨chunks, used, stands.slice_eq passes⟩

/-- A byte, a text of nine bytes of which six are there, and in these a negative length. -/
def straying : Bytes := [7, 0, 0, 0, 9, 0x41, 0x42, 0xFF, 0xFF, 0xFF, 0xFE]

/-- The byte, the text, a long for which too little is left, and back behind the byte. -/
def strayed : List Act :=
  [.read (.take 1), .read (.value .binary), .read .int64, .restore 1]

theorem straying_within_buffer :
    let reader := ((Course.ofBytes straying).after strayed).reader
    reader.position = 1 ∧ leftBehind 11 1 = .ok reader.remaining ∧
    (reader.read (.take 18446744073709551615)).1 =
      .error (.corrupted .value (.shortRead 18446744073709551615 1 10)) ∧
    (reader.read (.take 18446744073709551615)).2 = reader ∧
    reader.Misled ∧ (reader.read (.value .binary)).2.position = 5 ∧
    ∃ chunks, List.Forall₂ (Along straying)
        (reader.stretches [.int32, .take 2, .value .binary, .byte]) chunks ∧
      slice straying 1 11 = .ok chunks.flatten := by
  intro reader
  obtain ⟨-, -, left, -, -, unmoved, misled, used⟩ := reads_within_buffer straying strayed
  have failed : (reader.read (.take 18446744073709551615)).1 =
      .error (.corrupted .value (.shortRead 18446744073709551615 1 10)) := by rfl
  have unfit : reader.Misled := ⟨by decide, .inr (by decide)⟩
  exact ⟨rfl, left, failed, unmoved _ _ failed fun text => Request.noConfusion text.1, unfit,
    (misled unfit).2, used [.int32, .take 2, .value .binary, .byte]⟩

end SeriesClient.Wire.Reader
