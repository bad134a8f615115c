import Mathlib.Tactic.ByContra
import SeriesClient.Proofs.Summary.Lines

/-! Lists of types for the values of paths over windows. A list has a type for each value, path by
path, or one for each path; a list that can be taken either way says the same both ways. -/
namespace SeriesClient.Summary

/-- Windows that these starts make. Without starts the whole range is one window. -/
def windowsOf (timestamps : Option (List Int64)) : Nat := (timestamps.map List.length).getD 1

theorem windowCount_eq (summary : Summary) :
    summary.windowCount = windowsOf summary.timestamps := by
  rw [windowCount, windowsOf]
  cases summary.timestamps <;> rfl

section Blocks
variable {α : Type} {rows : List (List α)} {width : Nat}

theorem length_flatten_of_uniform (uniform : ∀ row ∈ rows, row.length = width) :
    rows.flatten.length = rows.length * width := by
  induction rows with
  | nil => exact (Nat.zero_mul width).symm
  | cons row rows ih =>
    obtain ⟨head, tail⟩ := List.forall_mem_cons.mp uniform
    rw [List.flatten_cons, List.length_append, head, ih tail, List.length_cons, Nat.succ_mul,
      Nat.add_comm]

/-- In rows of one width that are put together, each item is where its row and its place say. -/
theorem getElem?_flatten_of_uniform (uniform : ∀ row ∈ rows, row.length = width)
    {place offset : Nat} (within : offset < width) :
    rows.flatten[place * width + offset]? = rows[place]?.bind (·[offset]?) := by
  induction rows generalizing place with
  | nil => rfl
  | cons row rows ih =>
    obtain ⟨head, tail⟩ := List.forall_mem_cons.mp uniform
    cases place with
    | zero =>
      rw [Nat.zero_mul, Nat.zero_add, List.flatten_cons, List.getElem?_append_left (head ▸ within)]
      rfl
    | succ place =>
      have behind : (place + 1) * width + offset = row.length + (place * width + offset) := by
        rw [head, Nat.succ_mul]
        omega
      rw [behind, List.flatten_cons, List.getElem?_append_right (Nat.le_add_right ..),
        Nat.add_sub_cancel_left, ih tail, List.getElem?_cons_succ]

end Blocks

/-- Each of the types for as many values as there are windows. -/
def spread (windows : Nat) (types : List DataType) : List DataType :=
  types.flatMap fun type => List.replicate windows type

theorem spread_rows (windows : Nat) (types : List DataType) :
    ∀ row ∈ types.map (List.replicate windows ·), row.length = windows := by
  intro row listed
  obtain ⟨type, -, rfl⟩ := List.mem_map.mp listed
  exact List.length_replicate

theorem length_spread (windows : Nat) (types : List DataType) :
    (spread windows types).length = types.length * windows := by
  rw [spread, List.flatMap_def, length_flatten_of_uniform (spread_rows windows types),
    List.length_map]

theorem getElem?_spread {windows window : Nat} (within : window < windows) (types : List DataType)
    (path : Nat) : (spread windows types)[path * windows + window]? = types[path]? := by
  rw [spread, List.flatMap_def, getElem?_flatten_of_uniform (spread_rows windows types) within,
    List.getElem?_map]
  cases types[path]? with
  | none => rfl
  | some type => exact (List.getElem?_replicate ..).trans (if_pos within)

/-- A list that has a type per path as well as a type per value says the same as either. -/
theorem spread_eq_self {windows : Nat} {types : List DataType}
    (both : types.length = types.length * windows) : spread windows types = types := by
  apply List.ext_getElem?
  intro place
  cases types with
  | nil => rfl
  | cons type types =>
    have one : windows = 1 :=
      (Nat.mul_left_cancel (Nat.succ_pos types.length) ((Nat.mul_one _).trans both)).symm
    have same := getElem?_spread (one ▸ Nat.one_pos : 0 < windows) (type :: types) place
    rwa [one, Nat.mul_one, Nat.add_zero, ← one] at same

section ValueTypes
variable {paths : Nat} {windows : Option Nat} {types : List DataType}
  (addressed : paths * windows.getD 1 < Wire.wordSize 8)
include addressed

theorem valueTypes_of_each (each : types.length = paths * windows.getD 1) :
    valueTypes paths windows types = .ok types := by
  rw [valueTypes, wrapped_of_lt addressed, if_pos each]

theorem valueTypes_of_paths (perPath : types.length = paths) :
    valueTypes paths windows types = .ok (spread (windows.getD 1) types) := by
  by_cases each : types.length = paths * windows.getD 1
  · rw [valueTypes_of_each addressed each, spread_eq_self (perPath.symm ▸ each)]
  · cases windows with
    | none => exact absurd (perPath.trans (Nat.mul_one paths).symm) each
    | some count =>
      rw [valueTypes, wrapped_of_lt addressed, if_neg each, if_pos (by simp [perPath])]
      rfl

theorem valueTypes_misfit (each : types.length ≠ paths * windows.getD 1)
    (perPath : windows = none ∨ types.length ≠ paths) : valueTypes paths windows types =
      .error (.invalid (.typesForWindows types.length paths (windows.getD 1))) := by
  have neither : ¬(windows.isSome && types.length == paths) = true := by
    rcases perPath with rfl | other
    · simp
    · simp [other]
  rw [valueTypes, wrapped_of_lt addressed, if_neg each, if_neg neither]

theorem fits_of_valueTypes {declared : List DataType}
    (typed : valueTypes paths windows types = .ok declared) :
    types.length = paths * windows.getD 1 ∨ windows.isSome ∧ types.length = paths := by
  by_contra misfit
  obtain ⟨each, perPath⟩ := not_or.mp misfit
  have neither : windows = none ∨ types.length ≠ paths := by
    cases windows with
    | none => exact .inl rfl
    | some count => exact .inr fun same => perPath ⟨rfl, same⟩
  rw [valueTypes_misfit addressed each neither] at typed
  cases typed

/-- The types of all values, from either kind of list. -/
theorem valueTypes_eq_ok {declared : List DataType}
    (typed : valueTypes paths windows types = .ok declared) :
    declared.length = paths * windows.getD 1 ∧
      (types.length = paths * windows.getD 1 → declared = types) ∧
      (types.length = paths → declared = spread (windows.getD 1) types) := by
  have each (fits : types.length = paths * windows.getD 1) : declared = types :=
    Except.ok.inj (typed.symm.trans (valueTypes_of_each addressed fits))
  have perPath (fits : types.length = paths) : declared = spread (windows.getD 1) types :=
    Except.ok.inj (typed.symm.trans (valueTypes_of_paths addressed fits))
  refine ⟨?_, each, perPath⟩
  rcases fits_of_valueTypes addressed typed with fits | ⟨-, fits⟩
  · rw [each fits, fits]
  · rw [perPath fits, length_spread, fits]

end ValueTypes

/-- Beyond the words that count them, so many values may be taken for none. -/
example : valueTypes (2 ^ 32) (some (2 ^ 32)) [] = .ok [] := by
  decide

end SeriesClient.Summary
