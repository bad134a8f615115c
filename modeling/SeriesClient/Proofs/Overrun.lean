/-! Differences, lookups and slices that make nothing up. What is out of range is an overrun here,
where other arithmetic answers zero or nothing. -/
namespace SeriesClient
variable {α : Type}

/-- A place beyond the end of what it should be a place of. -/
structure Overrun where
  place : Nat
  size : Nat
deriving DecidableEq, Repr

/-- How much of a size there is behind a place. -/
def leftBehind (size place : Nat) : Except Overrun Nat :=
  if place ≤ size then .ok (size - place) else .error ⟨place, size⟩

def lookUp (items : List α) (place : Nat) : Except Overrun α :=
  match items[place]? with
  | some item => .ok item
  | none => .error ⟨place, items.length⟩

/-- The items from one place up to another. -/
def slice (items : List α) (start stop : Nat) : Except Overrun (List α) :=
  if stop < start then .error ⟨start, stop⟩
  else if items.length < stop then .error ⟨stop, items.length⟩
  else .ok ((items.drop start).take (stop - start))

theorem leftBehind_eq_ok_iff {size place left : Nat} :
    leftBehind size place = .ok left ↔ place + left = size := by
  rw [leftBehind]
  split
  · rw [Except.ok.injEq]
    omega
  · next beyond =>
    simp only [reduceCtorEq, false_iff]
    omega

theorem lookUp_eq_ok_iff {items : List α} {place : Nat} {item : α} :
    lookUp items place = .ok item ↔ items[place]? = some item := by
  rw [lookUp]
  cases items[place]? <;> simp

theorem slice_eq_ok_iff {items part : List α} {start stop : Nat} :
    slice items start stop = .ok part ↔
      ∃ front back, items = front ++ part ++ back ∧ front.length = start ∧
        start + part.length = stop := by
  rw [slice]
  constructor
  · intro sliced
    split at sliced
    · cases sliced
    · next forward =>
      split at sliced
      · cases sliced
      · next within =>
        cases sliced
        refine ⟨items.take start, items.drop stop, ?_, ?_, ?_⟩
        · have onward : items.drop stop = (items.drop start).drop (stop - start) := by
            rw [List.drop_drop, Nat.add_sub_cancel' (Nat.le_of_not_lt forward)]
          rw [onward, List.append_assoc, List.take_append_drop, List.take_append_drop]
        · rw [List.length_take]
          omega
        · rw [List.length_take, List.length_drop]
          omega
  · rintro ⟨front, back, rfl, rfl, rfl⟩
    rw [if_neg (by omega), if_neg (by simp only [List.length_append]; omega), List.append_assoc,
      List.drop_left, Nat.add_sub_cancel_left, List.take_left]

end SeriesClient
