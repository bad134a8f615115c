import SeriesClient.Insert
import SeriesClient.Proofs.Batch.Sorted

/-! An encoded batch does not show in which order its timestamps and paths were given. Sorting finds
the same batch from all of them, and what is encoded or refused is found after sorting. -/
namespace SeriesClient
open Permutation

namespace Batch

theorem select_select_grid {outer inner : List Nat} {lists : List Row}
    (outerBounded : ∀ i ∈ outer, i < lists.length)
    (innerBounded : ∀ cells ∈ lists, ∀ j ∈ inner, j < cells.length) (rows columns : List Nat) :
    (select rows ((select outer lists).map (select inner))).map (select columns) =
      (select (select rows outer) lists).map (select (select columns inner)) := by
  rw [select_map, List.map_map, select_select outerBounded]
  apply List.map_congr_left
  intro cells member
  exact select_select (innerBounded cells (mem_of_mem_select member)) columns

section Rearranged
variable {batch : Batch} {times paths : List Nat}

theorem rearranged_rearranged (shaped : batch.WellShaped)
    (early : ∀ t ∈ times, t < batch.timestamps.length)
    (left : ∀ p ∈ paths, p < batch.paths.length) (times' paths' : List Nat) :
    (batch.rearranged times paths).rearranged times' paths' =
      batch.rearranged (select times' times) (select paths' paths) := by
  have outer := shaped.outer
  have inner := shaped.inner
  have typed : ∀ p ∈ paths, p < batch.types.length := shaped.declared ▸ left
  cases oriented : batch.orientation with
  | row =>
    simp only [oriented, Orientation.outer, Orientation.inner, extent] at outer inner
    have values := select_select_grid (outer ▸ early)
      (fun cells member => inner cells member ▸ left) times' paths'
    simp only [rearranged, oriented, select_select early, select_select left, select_select typed,
      values]
  | column =>
    simp only [oriented, Orientation.outer, Orientation.inner, extent] at outer inner
    have values := select_select_grid (outer ▸ left)
      (fun cells member => inner cells member ▸ early) paths' times'
    simp only [rearranged, oriented, select_select early, select_select left, select_select typed,
      values]

/-- All orders in which a batch can be given sort into one. -/
theorem sorted_rearranged (shaped : batch.WellShaped) (timesMoved : Reorders batch.timestamps times)
    (pathsMoved : Reorders batch.paths paths) :
    (batch.rearranged times paths).sorted = batch.sorted := by
  have again := rearranged_wellShaped shaped timesMoved.bounded pathsMoved.bounded
    timesMoved.length pathsMoved.length
  have antisymm (a b : Int64) (first : decide (a ≤ b)) (second : decide (b ≤ a)) : a = b :=
    Int64.le_antisymm (of_decide_eq_true first) (of_decide_eq_true second)
  have byTime : select (batch.rearranged times paths).byTime.order times = batch.byTime.order :=
    ((byTime_sorts (batch.rearranged times paths)).of_reordered antisymm timesMoved).unique
      (byTime_sorts batch)
  have byPath : select (batch.rearranged times paths).byPath.order paths = batch.byPath.order :=
    ((byPath_sorts (batch.rearranged times paths)).of_reordered Path.le_antisymm pathsMoved).unique
      (byPath_sorts batch)
  rw [sorted_eq_rearranged again, sorted_eq_rearranged shaped,
    rearranged_rearranged shaped timesMoved.bounded pathsMoved.bounded, byTime, byPath]

/-- Timestamps and paths may be given in every order that leaves equal ones as they stood, their
types and cells with them: the request or the failure is the same. -/
theorem encode_rearranged (shaped : batch.WellShaped) (timesMoved : Reorders batch.timestamps times)
    (pathsMoved : Reorders batch.paths paths) (options : WriteOptions) :
    (batch.rearranged times paths).encode options = batch.encode options := by
  rw [encode, encode, sorted_rearranged shaped timesMoved pathsMoved]

end Rearranged

theorem tied_encode_rearranged :
    tied.WellShaped ∧ Reorders tied.timestamps [2, 0, 1] ∧ Reorders tied.paths [0, 2, 1] ∧
    (tied.rearranged [2, 0, 1] [0, 2, 1]).paths = ["b", "b", "a"] ∧
    (tied.rearranged [2, 0, 1] [0, 2, 1]).encode ⟨false⟩ = tied.encode ⟨false⟩ := by
  have shaped : tied.WellShaped :=
    ⟨by decide, by decide, by decide, by decide, rfl, rfl, by decide⟩
  have timesMoved : Reorders tied.timestamps [2, 0, 1] := ⟨by decide, by decide⟩
  have pathsMoved : Reorders tied.paths [0, 2, 1] := ⟨by decide, by decide⟩
  exact ⟨shaped, timesMoved, pathsMoved, by decide,
    encode_rearranged shaped timesMoved pathsMoved ⟨false⟩⟩

end Batch
end SeriesClient
