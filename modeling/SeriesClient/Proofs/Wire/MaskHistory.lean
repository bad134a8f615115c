import Mathlib.Data.Nat.Count
import SeriesClient.Proofs.Wire.Presence

/-! A mask in use, by any calls in any order. It keeps its capacity and the number of its bytes, its
bits are those it began with and those whose marks were accepted, and what it answers is told by
these alone. -/
namespace SeriesClient.Wire.Mask

/-- What a mask may be asked for. -/
inductive Call where
  | mark (index : Nat)
  | test (index : Nat)
  | count
deriving DecidableEq

/-- What it answers where it does not fail. -/
inductive Answer where
  | marked
  | bit (set : Bool)
  | number (marks : Nat)
deriving DecidableEq

def call (mask : Mask) : Call → Except Error Answer × Mask
  | .mark index => ((mask.mark index).1.map fun _ => .marked, (mask.mark index).2)
  | .test index => ((mask.test index).map .bit, mask)
  | .count => (mask.countMarked.map .number, mask)

/-- What a call does. Nothing but a mark in range leaves a trace. -/
inductive CallEffect (mask : Mask) : Call → Except Error Answer × Mask → Prop
  | outside {index : Nat} (beyond : mask.capacity ≤ index) :
    CallEffect mask (.mark index) (.error (.range index mask.capacity), mask)
  | missing {index : Nat} (inside : index < mask.capacity)
    (gone : mask.bytes.length ≤ index / 8) : CallEffect mask (.mark index)
      (.error (.corrupted .bitmap (.missingBit index)), ⟨mask.capacity, .owned mask.bytes⟩)
  | set {index : Nat} (inside : index < mask.capacity) (there : index / 8 < mask.bytes.length) :
    CallEffect mask (.mark index) (.ok .marked, ⟨mask.capacity,
      .owned (mask.bytes.set (index / 8) (withBit mask.bytes[index / 8] index))⟩)
  | tested (index : Nat) : CallEffect mask (.test index) ((mask.test index).map .bit, mask)
  | counted : CallEffect mask .count (mask.countMarked.map .number, mask)

theorem call_effect (mask : Mask) (call : Call) : CallEffect mask call (mask.call call) := by
  cases call with
  | test index => exact .tested index
  | count => exact .counted
  | mark index =>
    have effect := mask.mark_effect index
    rw [Mask.call]
    generalize mask.mark index = outcome at effect
    cases effect with
    | outside beyond => exact .outside beyond
    | missing inside gone => exact .missing inside gone
    | set inside there => exact .set inside there

def after (mask : Mask) : List Call → Mask
  | [] => mask
  | call :: calls => (mask.call call).2.after calls

/-- The place that a call has marked, if it was answered. -/
def Call.placed : Call → Except Error Answer → Finset Nat
  | .mark index, .ok _ => {index}
  | _, _ => ∅

/-- The places whose marks were accepted. -/
def landed (mask : Mask) : List Call → Finset Nat
  | [] => ∅
  | call :: calls => call.placed (mask.call call).1 ∪ (mask.call call).2.landed calls

/-- A mask as it has become by marks at these places. -/
structure Keeps (before : Mask) (marks : Finset Nat) (after : Mask) : Prop where
  capacity : after.capacity = before.capacity
  size : after.bytes.length = before.bytes.length
  bits : ∀ i, after.bit i = (decide (i ∈ marks) || before.bit i)

theorem keeps_of_bytes {before after : Mask} (capacity : after.capacity = before.capacity)
    (same : after.bytes = before.bytes) : before.Keeps ∅ after := by
  refine ⟨capacity, congrArg _ same, ?_⟩
  intro i
  simp [bit, same]

theorem Keeps.trans {first second third : Mask} {marks more : Finset Nat}
    (keeps : first.Keeps marks second) (onward : second.Keeps more third) :
    first.Keeps (marks ∪ more) third := by
  refine ⟨onward.capacity.trans keeps.capacity, onward.size.trans keeps.size, ?_⟩
  intro i
  rw [onward.bits, keeps.bits, ← Bool.or_assoc, Bool.or_comm (decide (i ∈ more))]
  simp only [Finset.mem_union, Bool.decide_or]

theorem call_keeps (mask : Mask) (call : Call) :
    mask.Keeps (call.placed (mask.call call).1) (mask.call call).2 := by
  have effect := mask.call_effect call
  generalize mask.call call = outcome at effect
  cases effect with
  | outside => exact keeps_of_bytes rfl rfl
  | missing => exact keeps_of_bytes rfl rfl
  | tested => exact keeps_of_bytes rfl rfl
  | counted => exact keeps_of_bytes rfl rfl
  | @set index inside there =>
    refine ⟨rfl, List.length_set, ?_⟩
    intro i
    have placed : decide (i ∈ ({index} : Finset Nat)) = (index == i) := by
      simp [beq_eq_decide, eq_comm]
    rw [bit_set there, Call.placed, placed]
    rfl

theorem after_keeps (mask : Mask) (history : List Call) :
    mask.Keeps (mask.landed history) (mask.after history) := by
  induction history generalizing mask with
  | nil => exact keeps_of_bytes rfl rfl
  | cons call history ih => exact (mask.call_keeps call).trans (ih _)

theorem mem_placed_iff {mask : Mask} {call : Call} {i : Nat} :
    i ∈ call.placed (mask.call call).1 ↔
      i < mask.capacity ∧ i / 8 < mask.bytes.length ∧ .mark i = call := by
  have effect := mask.call_effect call
  generalize mask.call call = outcome at effect
  cases effect with
  | tested => simp [Call.placed]
  | counted => simp [Call.placed]
  | outside beyond =>
    simp only [Call.placed, Finset.notMem_empty, Call.mark.injEq, false_iff]
    omega
  | missing inside gone =>
    simp only [Call.placed, Finset.notMem_empty, Call.mark.injEq, false_iff]
    omega
  | set inside there =>
    simp only [Call.placed, Finset.mem_singleton, Call.mark.injEq]
    omega

/-- A mark is accepted where the mask has both room and a byte, however often it is made. -/
theorem mem_landed_iff {mask : Mask} {history : List Call} {i : Nat} :
    i ∈ mask.landed history ↔
      i < mask.capacity ∧ i / 8 < mask.bytes.length ∧ .mark i ∈ history := by
  induction history generalizing mask with
  | nil => simp [landed]
  | cons call history ih =>
    have keeps := mask.call_keeps call
    rw [landed, Finset.mem_union, mem_placed_iff, ih, keeps.capacity, keeps.size, List.mem_cons]
    tauto

/-- No byte of the mask is shared. -/
def Owned (mask : Mask) : Prop := mask.storage = .owned mask.bytes

theorem owned_of_mark {mask : Mask} {index : Nat} (inside : index < mask.capacity) :
    (mask.call (.mark index)).2.Owned := by
  have effect := mask.call_effect (.mark index)
  generalize mask.call (.mark index) = outcome at effect
  cases effect with
  | outside beyond => exact absurd inside (Nat.not_lt.mpr beyond)
  | missing => rfl
  | set => rfl

theorem Owned.call {mask : Mask} (owned : mask.Owned) (call : Call) :
    (mask.call call).2.Owned := by
  have effect := mask.call_effect call
  generalize mask.call call = outcome at effect
  cases effect with
  | missing => rfl
  | set => rfl
  | outside => exact owned
  | tested => exact owned
  | counted => exact owned

theorem Owned.after {mask : Mask} (owned : mask.Owned) (history : List Call) :
    (mask.after history).Owned := by
  induction history generalizing mask with
  | nil => exact owned
  | cons call history ih => exact ih (owned.call call)

theorem owned_after_mark {mask : Mask} {history : List Call} {index : Nat}
    (inside : index < mask.capacity) (made : .mark index ∈ history) :
    (mask.after history).Owned := by
  induction history generalizing mask with
  | nil => cases made
  | cons call history ih =>
    rcases List.mem_cons.mp made with rfl | later
    · exact (owned_of_mark inside).after history
    · exact ih ((mask.call_keeps call).capacity ▸ inside) later

/-- Without a mark in range a mask stays as it is. -/
theorem after_unmarked {mask : Mask} {history : List Call}
    (outside : ∀ i, .mark i ∈ history → mask.capacity ≤ i) : mask.after history = mask := by
  induction history with
  | nil => rfl
  | cons call history ih =>
    have same : (mask.call call).2 = mask := by
      cases call with
      | test => rfl
      | count => rfl
      | mark index =>
        have beyond := outside index List.mem_cons_self
        rw [Mask.call, mark, if_pos beyond]
    rw [after, same]
    exact ih fun i made => outside i (List.mem_cons_of_mem _ made)

theorem bytes_of_failed {mask : Mask} {call : Call} {e : Error}
    (failed : (mask.call call).1 = .error e) : (mask.call call).2.bytes = mask.bytes := by
  have effect := mask.call_effect call
  generalize mask.call call = outcome at effect failed
  cases effect with
  | set => cases failed
  | outside => rfl
  | missing => rfl
  | tested => rfl
  | counted => rfl

/-- The answer about a place, which needs room in the mask and a byte that holds its bit. -/
def about (capacity size index : Nat) (answer : Answer) : Except Error Answer :=
  if capacity ≤ index then .error (.range index capacity)
  else if size ≤ index / 8 then .error (.corrupted .bitmap (.missingBit index))
  else .ok answer

/-- What a mask answers, by its capacity, the number of its bytes and its bits. -/
def told (capacity size : Nat) (bit : Nat → Bool) : Call → Except Error Answer
  | .mark index => about capacity size index .marked
  | .test index => about capacity size index (.bit (bit index))
  | .count =>
    if size < storageLength capacity then .error (.corrupted .bitmap (.missingBit (8 * size)))
    else .ok (.number ((Finset.range capacity).filter (bit ·)).card)

theorem test_eq (mask : Mask) (index : Nat) : mask.test index =
    if mask.capacity ≤ index then .error (.range index mask.capacity)
    else if mask.bytes.length ≤ index / 8 then .error (.corrupted .bitmap (.missingBit index))
    else .ok (mask.bit index) := by
  rw [test]
  split
  · rfl
  · split
    · rename_i none
      rw [if_pos (List.getElem?_eq_none_iff.mp none)]
    · rename_i b byte
      have there := (List.getElem?_eq_some_iff.mp byte).1
      rw [if_neg (Nat.not_le.mpr there), bit, byte, Option.any_some]

/-- The count so far is that of the bits before the place. -/
theorem countFrom_eq {mask : Mask} {index more : Nat} (inside : index + more ≤ mask.capacity)
    (there : index + more ≤ 8 * mask.bytes.length) :
    mask.countFrom index (Nat.count (mask.bit ·) index) more =
      .ok (Nat.count (mask.bit ·) (index + more)) := by
  induction more generalizing index with
  | zero => rfl
  | succ more ih =>
    have tested : mask.test index = .ok (mask.bit index) := by
      rw [test_eq, if_neg (by omega), if_neg (by omega)]
    have marks : (if mask.bit index then Nat.count (mask.bit ·) index + 1
        else Nat.count (mask.bit ·) index) = Nat.count (mask.bit ·) (index + 1) := by
      rw [Nat.count_succ]
      split <;> rfl
    have next : index + (more + 1) = index + 1 + more := by omega
    rw [next] at inside there ⊢
    simp only [countFrom, tested, marks]
    exact ih inside there

theorem countFrom_missing {mask : Mask} {index more : Nat} (inside : index + more ≤ mask.capacity)
    (before : index ≤ 8 * mask.bytes.length) (short : 8 * mask.bytes.length < index + more)
    (marks : Nat) : mask.countFrom index marks more =
      .error (.corrupted .bitmap (.missingBit (8 * mask.bytes.length))) := by
  induction more generalizing index marks with
  | zero => exact absurd before (Nat.not_le.mpr short)
  | succ more ih =>
    rw [countFrom, test_eq, if_neg (by omega)]
    by_cases here : index = 8 * mask.bytes.length
    · rw [if_pos (by omega), here]
    · rw [if_neg (by omega)]
      exact ih (by omega) (by omega) (by omega) _

theorem countMarked_eq (mask : Mask) : mask.countMarked =
    if mask.bytes.length < storageLength mask.capacity then
      .error (.corrupted .bitmap (.missingBit (8 * mask.bytes.length)))
    else .ok ((Finset.range mask.capacity).filter (mask.bit ·)).card := by
  have whole : 0 + mask.capacity ≤ mask.capacity := by omega
  rw [countMarked, storageLength]
  split
  · exact countFrom_missing whole (Nat.zero_le _) (by omega) 0
  · have counted := countFrom_eq whole (by omega)
    rwa [Nat.count_zero, Nat.zero_add, Nat.count_eq_card_filter_range] at counted

/-- Its bits decide what a mask answers, neither who owns the bytes nor how they came to be set. -/
theorem call_answers (mask : Mask) (call : Call) :
    (mask.call call).1 = told mask.capacity mask.bytes.length mask.bit call := by
  have effect := mask.call_effect call
  generalize mask.call call = outcome at effect
  cases effect with
  | outside beyond => rw [told, about, if_pos beyond]
  | missing inside gone => rw [told, about, if_neg (Nat.not_le.mpr inside), if_pos gone]
  | set inside there =>
    rw [told, about, if_neg (Nat.not_le.mpr inside), if_neg (Nat.not_le.mpr there)]
  | tested index =>
    rw [test_eq, told, about]
    split
    · rfl
    · split <;> rfl
  | counted =>
    rw [countMarked_eq, told]
    split <;> rfl

theorem after_answers (mask : Mask) (history : List Call) (call : Call) :
    ((mask.after history).call call).1 = told mask.capacity mask.bytes.length
      (fun i => decide (i ∈ mask.landed history) || mask.bit i) call := by
  have keeps := mask.after_keeps history
  rw [call_answers, keeps.capacity, keeps.size, funext keeps.bits]

end SeriesClient.Wire.Mask
