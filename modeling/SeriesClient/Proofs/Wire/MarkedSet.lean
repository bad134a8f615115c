import Mathlib.Order.Bounds.Defs
import SeriesClient.Proofs.Wire.MaskHistory

/-! A mask of its own bytes is a finite set of places below its capacity, under any calls. What it
answers, what it stores and when it equals another are those of the set. -/
namespace SeriesClient.Wire.Mask

/-- The answer of a set about a place below its capacity; only places outside are refused. -/
def aboutPlace (capacity index : Nat) (answer : Answer) : Except Error Answer :=
  if index < capacity then .ok answer else .error (.range index capacity)

/-- What a set of places below a capacity answers. -/
def setAnswer (capacity : Nat) (marks : Finset Nat) : Call → Except Error Answer
  | .mark index => aboutPlace capacity index .marked
  | .test index => aboutPlace capacity index (.bit (index ∈ marks))
  | .count => .ok (.number marks.card)

/-- A mask that stores a set of places: each byte has the bits of its places that are in the set,
and no others, so there are none in the padding. -/
structure Holds (mask : Mask) (capacity : Nat) (marks : Finset Nat) : Prop where
  room : mask.capacity = capacity
  within : ∀ i ∈ marks, i < capacity
  owned : mask.storage = .owned mask.bytes
  size : mask.bytes.length = storageLength capacity
  bits : ∀ k j (there : k < mask.bytes.length), j < 8 →
    mask.bytes[k].toNat.testBit j = decide (8 * k + j ∈ marks)

theorem storageLength_isLeast (capacity : Nat) :
    IsLeast {size | capacity ≤ 8 * size} (storageLength capacity) := by
  constructor
  · rw [Set.mem_ofPred_eq, storageLength]
    omega
  · intro size room
    rw [Set.mem_ofPred_eq] at room
    rw [storageLength]
    omega

theorem holds_after (capacity : Nat) (history : List Call) :
    ((empty capacity).after history).Holds capacity ((empty capacity).landed history) := by
  have keeps := (empty capacity).after_keeps history
  have owned : (empty capacity).Owned := rfl
  constructor
  case room => exact keeps.capacity
  case within => exact fun i landed => (mem_landed_iff.mp landed).1
  case owned => exact owned.after history
  case size => exact keeps.size.trans (empty_sized capacity)
  case bits =>
    intro k j there small
    rw [testBit_bytes there small, keeps.bits, bit_empty, Bool.or_false]

namespace Holds
variable {mask other : Mask} {capacity : Nat} {marks others : Finset Nat}

theorem byte (holds : mask.Holds capacity marks) {index : Nat} (inside : index < capacity) :
    index / 8 < mask.bytes.length := by
  rw [holds.size]
  exact div_lt_storageLength capacity index inside

theorem bit (holds : mask.Holds capacity marks) (i : Nat) : mask.bit i = decide (i ∈ marks) := by
  have place : 8 * (i / 8) + i % 8 = i := Nat.div_add_mod i 8
  by_cases there : i / 8 < mask.bytes.length
  · have stored := holds.bits (i / 8) (i % 8) there (Nat.mod_lt i (by decide))
    rwa [testBit_bytes there (Nat.mod_lt i (by decide)), place] at stored
  · have outside : i ∉ marks := fun inside => there (holds.byte (holds.within i inside))
    have none := List.getElem?_eq_none (Nat.le_of_not_lt there)
    rw [Mask.bit, none, decide_eq_false outside]
    rfl

theorem about_eq (holds : mask.Holds capacity marks) (index : Nat) (answer : Answer) :
    about capacity mask.bytes.length index answer = aboutPlace capacity index answer := by
  rw [about, aboutPlace]
  by_cases inside : index < capacity
  · rw [if_neg (Nat.not_le.mpr inside), if_neg (Nat.not_le.mpr (holds.byte inside)), if_pos inside]
  · rw [if_pos (Nat.le_of_not_lt inside), if_neg inside]

theorem answers (holds : mask.Holds capacity marks) (call : Call) :
    (mask.call call).1 = setAnswer capacity marks call := by
  rw [call_answers, holds.room, funext holds.bit]
  cases call with
  | mark index => exact holds.about_eq index .marked
  | test index => exact holds.about_eq index _
  | count =>
    have whole : ¬ mask.bytes.length < storageLength capacity := Nat.not_lt.mpr holds.size.ge
    have all : (Finset.range capacity).filter (fun i => decide (i ∈ marks)) = marks := by
      ext i
      simpa using holds.within i
    rw [told, if_neg whole, all, setAnswer]

theorem unharmed (holds : mask.Holds capacity marks) {call : Call} {e : Error}
    (failed : (mask.call call).1 = .error e) : (mask.call call).2 = mask := by
  have effect := mask.call_effect call
  generalize mask.call call = outcome at effect failed
  cases effect with
  | set => cases failed
  | missing inside gone =>
    exact absurd (holds.byte (holds.room ▸ inside)) (Nat.not_lt.mpr gone)
  | outside => rfl
  | tested => rfl
  | counted => rfl

theorem marks_eq (holds : mask.Holds capacity marks) {another : Nat}
    (also : other.Holds another others) (same : mask.bytes = other.bytes) : marks = others := by
  ext i
  have bits : mask.bit i = other.bit i := by rw [Mask.bit, same, Mask.bit]
  rwa [holds.bit, also.bit, decide_eq_decide] at bits

/-- The set is all there is to know of such a mask. -/
theorem eq (holds : mask.Holds capacity marks) (also : other.Holds capacity marks) :
    mask = other := by
  have bytes : mask.bytes = other.bytes := by
    refine bytes_eq_of_bit (holds.size.trans also.size.symm) ?_
    intro i
    rw [holds.bit, also.bit]
  calc mask
    _ = ⟨mask.capacity, mask.storage⟩ := rfl
    _ = ⟨other.capacity, other.storage⟩ := by
      rw [holds.room, also.room, holds.owned, also.owned, bytes]
    _ = other := rfl

end Holds

theorem beq_iff {mask other : Mask} :
    (mask == other) = true ↔ mask.capacity = other.capacity ∧ mask.bytes = other.bytes := by
  have same : (mask == other) =
      (mask.capacity == other.capacity && mask.bytes == other.bytes) := rfl
  rw [same, Bool.and_eq_true, beq_iff_eq, beq_iff_eq]

/-- A new mask is at all times the set of the places that were marked in it: it answers as the set,
refuses nothing but places outside, stays as it was where it refuses, and stores the bits of the set
in as few bytes as hold its capacity. So the order of the marks and their number are lost, and two
masks are equal when their capacities and their sets are. -/
theorem new_mask_is_set :
    (∀ (capacity : Nat) (history : List Call),
      let mask := (empty capacity).after history
      let marks := (empty capacity).landed history
      (∀ i, i ∈ marks ↔ i < capacity ∧ .mark i ∈ history) ∧
      mask.Holds capacity marks ∧ IsLeast {size | capacity ≤ 8 * size} mask.bytes.length ∧
      ∀ call, (mask.call call).1 = setAnswer capacity marks call ∧
        ∀ e, (mask.call call).1 = .error e → (mask.call call).2 = mask) ∧
    (∀ (capacity : Nat) (history other : List Call),
      (∀ i, .mark i ∈ history ↔ .mark i ∈ other) →
        (empty capacity).after history = (empty capacity).after other) ∧
    ∀ (capacity another : Nat) (history other : List Call),
      ((empty capacity).after history == (empty another).after other) = true ↔
        capacity = another ∧ (empty capacity).landed history = (empty another).landed other := by
  have landed (capacity : Nat) (history : List Call) (i : Nat) :
      i ∈ (empty capacity).landed history ↔ i < capacity ∧ .mark i ∈ history := by
    rw [mem_landed_iff]
    constructor
    · exact fun ⟨inside, _, made⟩ => ⟨inside, made⟩
    · exact fun ⟨inside, made⟩ => ⟨inside, (empty_sized capacity).byte inside, made⟩
  refine ⟨?_, ?_, ?_⟩
  · intro capacity history
    have holds := holds_after capacity history
    refine ⟨landed capacity history, holds, ?_, ?_⟩
    · rw [holds.size]
      exact storageLength_isLeast capacity
    · intro call
      exact ⟨holds.answers call, fun e failed => holds.unharmed failed⟩
  · intro capacity history other same
    have marks : (empty capacity).landed history = (empty capacity).landed other := by
      ext i
      rw [landed, landed, same]
    exact (holds_after capacity history).eq (marks ▸ holds_after capacity other)
  · intro capacity another history other
    have holds := holds_after capacity history
    have also := holds_after another other
    rw [beq_iff, holds.room, also.room]
    constructor
    · rintro ⟨rfl, bytes⟩
      exact ⟨rfl, holds.marks_eq also bytes⟩
    · rintro ⟨rfl, marks⟩
      exact ⟨rfl, congrArg bytes (holds.eq (marks ▸ also))⟩

/-- Marks across a byte boundary, twice and out of range, in two orders. -/
theorem repeated_marks_form_set :
    let mask := (empty 11).after [.mark 10, .mark 11, .test 3, .mark 3, .mark 10]
    mask = ⟨11, .owned [0x08, 0x04]⟩ ∧
    (mask.call (.mark 11)).1 = .error (.range 11 11) ∧ (mask.call (.mark 11)).2 = mask ∧
    (∀ i, .mark i ∈ [Call.mark 10, .mark 11, .test 3, .mark 3, .mark 10] ↔
      .mark i ∈ [Call.count, .mark 3, .mark 11, .mark 10]) ∧
    mask = (empty 11).after [.count, .mark 3, .mark 11, .mark 10] := by
  intro mask
  obtain ⟨-, -, -, answers⟩ :=
    new_mask_is_set.1 11 [.mark 10, .mark 11, .test 3, .mark 3, .mark 10]
  obtain ⟨refused, unharmed⟩ := answers (.mark 11)
  have same : ∀ i, .mark i ∈ [Call.mark 10, .mark 11, .test 3, .mark 3, .mark 10] ↔
      .mark i ∈ [Call.count, .mark 3, .mark 11, .mark 10] := by
    intro i
    simp only [List.mem_cons, Call.mark.injEq, reduceCtorEq, List.not_mem_nil]
    tauto
  exact ⟨by decide, refused, unharmed _ refused, same, new_mask_is_set.2.1 11 _ _ same⟩

end SeriesClient.Wire.Mask
