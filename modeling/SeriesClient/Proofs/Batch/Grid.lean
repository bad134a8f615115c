import Mathlib.Data.List.Perm.Basic
import Mathlib.Data.List.ProdSigma
import SeriesClient.Batch
import SeriesClient.Proofs.StableOrder

/-! A batch as a grid of cells over its timestamps and paths, whichever way its lists are nested. -/
namespace SeriesClient.Batch
open Permutation

/-- Nothing is empty, every path has a type, and the values are a full rectangle. -/
structure WellShaped (batch : Batch) : Prop where
  paths : batch.paths ≠ []
  types : batch.types ≠ []
  timestamps : batch.timestamps ≠ []
  values : batch.values ≠ []
  declared : batch.paths.length = batch.types.length
  outer : batch.values.length = batch.extent batch.orientation.outer
  inner : ∀ cells ∈ batch.values, cells.length = batch.extent batch.orientation.inner

/-- The cell of a timestamp and a path, both given by their places. -/
def cell? (batch : Batch) (time path : Nat) : Option Cell :=
  match batch.orientation with
  | .row => batch.values[time]?.bind (·[path]?)
  | .column => batch.values[path]?.bind (·[time]?)

/-- A cell with everything it belongs to. -/
structure Entry where
  timestamp : Int64
  path : String
  dataType : DataType
  cell : Cell
deriving DecidableEq, Repr

def entryAt? (batch : Batch) (place : Nat × Nat) : Option Entry :=
  batch.timestamps[place.1]?.bind fun timestamp =>
    batch.paths[place.2]?.bind fun path =>
      batch.types[place.2]?.bind fun dataType =>
        (batch.cell? place.1 place.2).map fun cell => ⟨timestamp, path, dataType, cell⟩

def places (batch : Batch) : List (Nat × Nat) :=
  List.range batch.timestamps.length ×ˢ List.range batch.paths.length

def entries (batch : Batch) : List Entry := batch.places.filterMap batch.entryAt?

/-- `after` takes its timestamps and its paths from the named places of `batch`, a path with its
type and a cell with its timestamp and path. -/
structure Rearranges (times paths : List Nat) (batch after : Batch) : Prop where
  orientation : after.orientation = batch.orientation
  timestamp : ∀ i : Nat, after.timestamps[i]? = times[i]?.bind (batch.timestamps[·]?)
  path : ∀ j : Nat, after.paths[j]? = paths[j]?.bind (batch.paths[·]?)
  type : ∀ j : Nat, after.types[j]? = paths[j]?.bind (batch.types[·]?)
  cell : ∀ i j : Nat, after.cell? i j =
    times[i]?.bind fun t => paths[j]?.bind fun p => batch.cell? t p

theorem raggedFrom_eq_none_iff (expected index : Nat) (lists : List Row) :
    raggedFrom expected index lists = none ↔ ∀ cells ∈ lists, cells.length = expected := by
  induction lists generalizing index with
  | nil => simp [raggedFrom]
  | cons cells lists ih =>
    rw [raggedFrom, List.forall_mem_cons]
    split
    · rename_i wide
      simp [wide]
    · rename_i fits
      rw [ih, and_iff_right (not_not.mp fits)]

theorem fault?_eq_none_iff (batch : Batch) : batch.fault? = none ↔ batch.WellShaped := by
  constructor
  · intro sound
    simp only [fault?] at sound
    split at sound
    · contradiction
    · rename_i nonempty
      split at sound
      · contradiction
      · rename_i declared
        split at sound
        · contradiction
        · rename_i outer
          split at sound
          · contradiction
          · rename_i straight
            simp only [Bool.or_eq_true, List.isEmpty_iff, not_or] at nonempty
            obtain ⟨⟨⟨paths, types⟩, timestamps⟩, values⟩ := nonempty
            exact ⟨paths, types, timestamps, values, not_not.mp declared, not_not.mp outer,
              (raggedFrom_eq_none_iff _ _ _).mp straight⟩
  · rintro ⟨paths, types, timestamps, values, declared, outer, inner⟩
    simp [fault?, paths, types, timestamps, values, declared, outer,
      (raggedFrom_eq_none_iff _ _ _).mpr inner]

/-- A shape is never blamed on a permutation. -/
theorem fault?_ne_permutationSize {batch : Batch} {fault : RequestFault}
    (found : batch.fault? = some fault) (items size : Nat) :
    fault ≠ .permutationSize items size := by
  rintro rfl
  simp only [fault?] at found
  repeat' split at found
  all_goals simp at found

namespace WellShaped
variable {batch : Batch}

theorem isSome_cell? (shaped : batch.WellShaped) {time path : Nat}
    (early : time < batch.timestamps.length) (left : path < batch.paths.length) :
    (batch.cell? time path).isSome := by
  have outer := shaped.outer
  have inner := shaped.inner
  rw [cell?]
  cases oriented : batch.orientation with
  | row =>
    simp only [oriented, Orientation.outer, Orientation.inner, extent] at outer inner
    have here : time < batch.values.length := by omega
    have width := inner _ (List.getElem_mem here)
    simp [here, width, left]
  | column =>
    simp only [oriented, Orientation.outer, Orientation.inner, extent] at outer inner
    have here : path < batch.values.length := by omega
    have width := inner _ (List.getElem_mem here)
    simp [here, width, early]

/-- There is an entry for every timestamp and path. -/
theorem length_entries (shaped : batch.WellShaped) :
    batch.entries.length = batch.timestamps.length * batch.paths.length := by
  have all : ∀ place ∈ batch.places, (batch.entryAt? place).isSome := by
    intro place inside
    obtain ⟨early, left⟩ := List.mem_product.mp inside
    rw [List.mem_range] at early left
    obtain ⟨cell, found⟩ := Option.isSome_iff_exists.mp (shaped.isSome_cell? early left)
    simp [entryAt?, early, left, shaped.declared ▸ left, found]
  rw [entries, List.filterMap_length_eq_length.mpr all, places, List.length_product,
    List.length_range, List.length_range]

end WellShaped

theorem product_map {α β γ δ : Type} (f : α → γ) (g : β → δ) (first : List α) (second : List β) :
    first.map f ×ˢ second.map g = (first ×ˢ second).map (Prod.map f g) := by
  induction first with
  | nil => rfl
  | cons a first ih =>
    rw [List.map_cons, List.product_cons, List.product_cons, List.map_append, ih]
    simp [Function.comp_def]

theorem map_getElem!_range (order : List Nat) :
    (List.range order.length).map (order[·]!) = order := by
  apply List.ext_getElem
  · simp
  · intro i before after
    simp [after]

/-- The entry at a place after the move is the entry at the places it was taken from. -/
theorem Rearranges.entryAt?_eq {times paths : List Nat} {batch after : Batch}
    (moved : Rearranges times paths batch after)
    (timestamps : after.timestamps.length = times.length)
    (width : after.paths.length = paths.length) {place : Nat × Nat}
    (inside : place ∈ after.places) :
    after.entryAt? place = batch.entryAt? (Prod.map (times[·]!) (paths[·]!) place) := by
  obtain ⟨i, j⟩ := place
  obtain ⟨early, left⟩ := List.mem_product.mp inside
  rw [List.mem_range] at early left
  have time : times[i]? = some times[i]! := by simp [timestamps ▸ early]
  have path : paths[j]? = some paths[j]! := by simp [width ▸ left]
  simp only [entryAt?, moved.timestamp, moved.path, moved.type, moved.cell, time, path,
    Option.bind_some, Prod.map]

/-- Naming every place once loses and repeats no entry. -/
theorem Rearranges.entries_perm {times paths : List Nat} {batch after : Batch}
    (moved : Rearranges times paths batch after)
    (allTimes : times.Perm (List.range batch.timestamps.length))
    (allPaths : paths.Perm (List.range batch.paths.length))
    (timestamps : after.timestamps.length = times.length)
    (width : after.paths.length = paths.length) : after.entries.Perm batch.entries := by
  rw [entries, List.filterMap_congr fun _ inside => moved.entryAt?_eq timestamps width inside,
    ← Function.comp_def, ← List.filterMap_map, places, ← product_map, timestamps, width,
    map_getElem!_range, map_getElem!_range]
  exact (allTimes.product allPaths).filterMap _

end SeriesClient.Batch
