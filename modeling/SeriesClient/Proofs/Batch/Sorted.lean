import SeriesClient.Proofs.Batch.Grid

/-! Sorting a batch succeeds on every well-shaped batch and on no other. Timestamps and paths are
moved by one stable permutation each, and types and cells move with them. -/
namespace SeriesClient.Batch
open Permutation

theorem byTime_sorts (batch : Batch) :
    Sorts (fun a b => decide (a ≤ b)) batch.timestamps batch.byTime.order := by
  refine sortingBy_sorts ?_ ?_ batch.timestamps
  · intro a b c first second
    exact decide_eq_true (Int64.le_trans (of_decide_eq_true first) (of_decide_eq_true second))
  · intro a b
    simpa using Int64.le_total a b

theorem byPath_sorts (batch : Batch) : Sorts Path.le batch.paths batch.byPath.order :=
  sortingBy_sorts Path.le_trans Path.le_total batch.paths

theorem size_byTime (batch : Batch) : batch.byTime.size = batch.timestamps.length :=
  size_sortingBy _ _

theorem size_byPath (batch : Batch) : batch.byPath.size = batch.paths.length :=
  size_sortingBy _ _

/-- The batch with its timestamps and paths taken from the named places. -/
def rearranged (times paths : List Nat) (batch : Batch) : Batch where
  orientation := batch.orientation
  paths := select paths batch.paths
  types := select paths batch.types
  timestamps := select times batch.timestamps
  values := match batch.orientation with
    | .row => (select times batch.values).map (select paths)
    | .column => (select paths batch.values).map (select times)

theorem moved_eq_select {outer inner : Permutation} {values : List Row}
    (outerFits : values.length = outer.size)
    (innerFits : ∀ cells ∈ values, cells.length = inner.size) :
    moved outer inner values = .ok ((select outer.order values).map (select inner.order)) := by
  have lists : ∀ cells ∈ select outer.order values, cells.length = inner.size :=
    fun cells member => innerFits cells (mem_of_mem_select member)
  rw [moved, apply_eq_select outerFits]
  exact applyEach_eq_select lists

/-- Every length check of the two permutations passes on a well-shaped batch. -/
theorem sorted_eq_rearranged {batch : Batch} (shaped : batch.WellShaped) :
    batch.sorted = .ok (batch.rearranged batch.byTime.order batch.byPath.order) := by
  have noFault := (fault?_eq_none_iff batch).mpr shaped
  have outer := shaped.outer
  have inner := shaped.inner
  have paths := apply_eq_select (size_byPath batch).symm
  have types := apply_eq_select (shaped.declared.symm.trans (size_byPath batch).symm)
  have timestamps := apply_eq_select (size_byTime batch).symm
  rw [sorted, noFault, rearranged]
  cases oriented : batch.orientation with
  | row =>
    simp only [oriented, Orientation.outer, Orientation.inner, extent, ← size_byTime,
      ← size_byPath] at outer inner
    simp only [moved_eq_select outer inner, paths, types, timestamps]
    rfl
  | column =>
    simp only [oriented, Orientation.outer, Orientation.inner, extent, ← size_byTime,
      ← size_byPath] at outer inner
    simp only [moved_eq_select outer inner, paths, types, timestamps]
    rfl

theorem sorted_of_fault {batch : Batch} {fault : RequestFault} (found : batch.fault? = some fault) :
    batch.sorted = .error (.invalid fault) := by
  rw [sorted, found]
  rfl

theorem wellShaped_of_sorted {batch after : Batch} (done : batch.sorted = .ok after) :
    batch.WellShaped := by
  refine (fault?_eq_none_iff batch).mp ?_
  cases found : batch.fault? with
  | none => rfl
  | some fault =>
    rw [sorted_of_fault found] at done
    contradiction

/-- A grid whose lists and whose cells in every list are taken from named places. -/
theorem getElem?_select_grid {outer inner : List Nat} {lists : List Row}
    (outerBounded : ∀ i ∈ outer, i < lists.length)
    (innerBounded : ∀ cells ∈ lists, ∀ j ∈ inner, j < cells.length) (i j : Nat) :
    ((select outer lists).map (select inner))[i]?.bind (·[j]?) =
      outer[i]?.bind fun t => inner[j]?.bind fun p => lists[t]?.bind (·[p]?) := by
  rw [List.getElem?_map, getElem?_select outerBounded]
  cases named : outer[i]? with
  | none => rfl
  | some t =>
    have here := List.getElem?_eq_getElem (outerBounded t (List.mem_of_getElem? named))
    simp only [Option.bind_some, here, Option.map_some]
    exact getElem?_select (innerBounded _ (List.getElem_mem _)) j

theorem select_grid_full {outer inner : List Nat} {lists : List Row}
    (outerBounded : ∀ i ∈ outer, i < lists.length)
    (innerBounded : ∀ cells ∈ lists, ∀ j ∈ inner, j < cells.length) :
    ((select outer lists).map (select inner)).length = outer.length ∧
      ∀ cells ∈ (select outer lists).map (select inner), cells.length = inner.length := by
  refine ⟨by rw [List.length_map, length_select outerBounded], ?_⟩
  intro cells member
  obtain ⟨source, inside, rfl⟩ := List.mem_map.mp member
  exact length_select (innerBounded source (mem_of_mem_select inside))

section Rearranged
variable {batch : Batch} {times paths : List Nat}

theorem rearranged_rearranges (shaped : batch.WellShaped)
    (early : ∀ t ∈ times, t < batch.timestamps.length)
    (left : ∀ p ∈ paths, p < batch.paths.length) :
    Rearranges times paths batch (batch.rearranged times paths) := by
  refine ⟨rfl, getElem?_select early, getElem?_select left,
    getElem?_select (shaped.declared ▸ left), ?_⟩
  intro i j
  have outer := shaped.outer
  have inner := shaped.inner
  simp only [cell?, rearranged]
  cases oriented : batch.orientation with
  | row =>
    simp only [oriented, Orientation.outer, Orientation.inner, extent] at outer inner ⊢
    exact getElem?_select_grid (outer ▸ early) (fun cells member => inner cells member ▸ left) i j
  | column =>
    simp only [oriented, Orientation.outer, Orientation.inner, extent] at outer inner ⊢
    rw [Option.bind_comm]
    exact getElem?_select_grid (outer ▸ left) (fun cells member => inner cells member ▸ early) j i

/-- Naming as many places as there are keeps the rectangle full. -/
theorem rearranged_grid (shaped : batch.WellShaped)
    (early : ∀ t ∈ times, t < batch.timestamps.length)
    (left : ∀ p ∈ paths, p < batch.paths.length)
    (timeCount : times.length = batch.timestamps.length)
    (pathCount : paths.length = batch.paths.length) :
    (batch.rearranged times paths).values.length = batch.values.length ∧
      ∀ cells ∈ (batch.rearranged times paths).values,
        cells.length = batch.extent batch.orientation.inner := by
  have outer := shaped.outer
  have inner := shaped.inner
  simp only [rearranged]
  cases oriented : batch.orientation with
  | row =>
    simp only [oriented, Orientation.outer, Orientation.inner, extent] at outer inner ⊢
    rw [outer, ← timeCount, ← pathCount]
    exact select_grid_full (outer ▸ early) fun cells member => inner cells member ▸ left
  | column =>
    simp only [oriented, Orientation.outer, Orientation.inner, extent] at outer inner ⊢
    rw [outer, ← timeCount, ← pathCount]
    exact select_grid_full (outer ▸ left) fun cells member => inner cells member ▸ early

theorem ne_nil_of_length_eq {α : Type} {items moved : List α} (same : moved.length = items.length)
    (nonempty : items ≠ []) : moved ≠ [] :=
  List.ne_nil_of_length_pos (same ▸ List.length_pos_iff.mpr nonempty)

theorem rearranged_wellShaped (shaped : batch.WellShaped)
    (early : ∀ t ∈ times, t < batch.timestamps.length)
    (left : ∀ p ∈ paths, p < batch.paths.length)
    (timeCount : times.length = batch.timestamps.length)
    (pathCount : paths.length = batch.paths.length) :
    (batch.rearranged times paths).WellShaped := by
  have timestamps := (length_select early).trans timeCount
  have names := (length_select left).trans pathCount
  have types := (length_select (shaped.declared ▸ left)).trans (pathCount.trans shaped.declared)
  have extent (axis : Axis) : (batch.rearranged times paths).extent axis = batch.extent axis := by
    cases axis with
    | timestamps => exact timestamps
    | paths => exact names
  obtain ⟨outer, inner⟩ := rearranged_grid shaped early left timeCount pathCount
  refine ⟨ne_nil_of_length_eq names shaped.paths, ne_nil_of_length_eq types shaped.types,
    ne_nil_of_length_eq timestamps shaped.timestamps, ne_nil_of_length_eq outer shaped.values,
    names.trans (shaped.declared.trans types.symm), ?_, ?_⟩
  · exact outer.trans (shaped.outer.trans (extent _).symm)
  · intro cells member
    exact (inner cells member).trans (extent _).symm

/-- Taking every place in its turn changes nothing. -/
theorem rearranged_range (shaped : batch.WellShaped) :
    batch.rearranged (List.range batch.timestamps.length) (List.range batch.paths.length) =
      batch := by
  have outer := shaped.outer
  have inner := shaped.inner
  have types := select_range batch.types
  rw [← shaped.declared] at types
  have lists {axis : Axis} (width : ∀ cells ∈ batch.values, cells.length = batch.extent axis) :
      batch.values.map (select (List.range (batch.extent axis))) = batch.values := by
    refine (List.map_congr_left fun cells member => ?_).trans (List.map_id _)
    rw [← width cells member]
    exact select_range cells
  have values := select_range batch.values
  rw [outer] at values
  rw [rearranged, select_range, select_range, types]
  cases oriented : batch.orientation with
  | row =>
    simp only [oriented, Orientation.outer, Orientation.inner] at values inner ⊢
    rw [show batch.timestamps.length = batch.extent .timestamps from rfl, values,
      show batch.paths.length = batch.extent .paths from rfl, lists inner, ← oriented]
  | column =>
    simp only [oriented, Orientation.outer, Orientation.inner] at values inner ⊢
    rw [show batch.paths.length = batch.extent .paths from rfl, values,
      show batch.timestamps.length = batch.extent .timestamps from rfl, lists inner, ← oriented]

/-- The sorted batch is a rearrangement by the two stable orders, again of full shape. -/
theorem sorted_rearranges {after : Batch} (done : batch.sorted = .ok after) :
    Rearranges batch.byTime.order batch.byPath.order batch after ∧ after.WellShaped ∧
      after.timestamps.Pairwise (· ≤ ·) ∧ after.paths.Pairwise (fun a b => Path.le a b) := by
  have shaped := wellShaped_of_sorted done
  rw [sorted_eq_rearranged shaped] at done
  obtain rfl := Except.ok.inj done
  have times := byTime_sorts batch
  have paths := byPath_sorts batch
  exact ⟨rearranged_rearranges shaped times.bounded paths.bounded,
    rearranged_wellShaped shaped times.bounded paths.bounded (size_byTime batch)
      (size_byPath batch),
    (select_pairwise times).imp of_decide_eq_true, select_pairwise paths⟩

theorem sorted_entries {after : Batch} (done : batch.sorted = .ok after) :
    after.entries.Perm batch.entries := by
  have shaped := wellShaped_of_sorted done
  have moved := (sorted_rearranges done).1
  rw [sorted_eq_rearranged shaped] at done
  obtain rfl := Except.ok.inj done
  exact moved.entries_perm (byTime_sorts batch).complete (byPath_sorts batch).complete
    (length_select (byTime_sorts batch).bounded) (length_select (byPath_sorts batch).bounded)

/-- A batch whose timestamps and paths ascend is its own sorted form. -/
theorem sorted_of_ascending (shaped : batch.WellShaped)
    (timestamps : batch.timestamps.Pairwise (· ≤ ·))
    (paths : batch.paths.Pairwise fun a b => Path.le a b) : batch.sorted = .ok batch := by
  have byTime := order_sortingBy_of_pairwise (timestamps.imp decide_eq_true)
  have byPath := order_sortingBy_of_pairwise paths
  rw [sorted_eq_rearranged shaped]
  exact congrArg Except.ok
    ((congrArg₂ (rearranged · · batch) byTime byPath).trans (rearranged_range shaped))

end Rearranged

/-- Sorting accepts exactly the well-shaped batches, and blames a shape fault, never a permutation,
for every other one. The sorted batch is the given one under one stable permutation of its
timestamps and one of its paths; it has the same entries and is its own sorted form. -/
theorem sorted_exact (batch : Batch) :
    ((∃ after, batch.sorted = .ok after) ↔ batch.WellShaped) ∧
    (¬ batch.WellShaped → ∃ fault, batch.sorted = .error (.invalid fault) ∧
      ∀ items size, fault ≠ .permutationSize items size) ∧
    ∀ after, batch.sorted = .ok after →
      after.timestamps.Pairwise (· ≤ ·) ∧ after.paths.Pairwise (fun a b => Path.le a b) ∧
      (∃ times paths, Sorts (fun a b => decide (a ≤ b)) batch.timestamps times ∧
        Sorts Path.le batch.paths paths ∧ Rearranges times paths batch after) ∧
      after.entries.length = batch.timestamps.length * batch.paths.length ∧
      after.entries.Perm batch.entries ∧ after.sorted = .ok after := by
  refine ⟨?_, ?_, ?_⟩
  · constructor
    · rintro ⟨after, done⟩
      exact wellShaped_of_sorted done
    · intro shaped
      exact ⟨_, sorted_eq_rearranged shaped⟩
  · intro misshaped
    cases found : batch.fault? with
    | none => exact absurd ((fault?_eq_none_iff batch).mp found) misshaped
    | some fault => exact ⟨fault, sorted_of_fault found, fault?_ne_permutationSize found⟩
  · intro after done
    obtain ⟨moved, again, timestamps, paths⟩ := sorted_rearranges done
    have same := sorted_entries done
    exact ⟨timestamps, paths, ⟨_, _, byTime_sorts batch, byPath_sorts batch, moved⟩,
      same.length_eq.trans (wellShaped_of_sorted done).length_entries, same,
      sorted_of_ascending again timestamps paths⟩

/-- A batch with equal timestamps, equal paths and a number that is none. -/
def tied : Batch where
  orientation := .column
  paths := ["b", "a", "b"]
  types := [.long, .double, .binary]
  timestamps := [7, 7, 3]
  values := [[some (.long 1), none, some (.long 2)],
    [none, some (.double ⟨0x7ff0000000000001⟩), none],
    [some (.binary "x"), some (.binary "y"), none]]

theorem tied_sorted_twice : ∃ after, tied.sorted = .ok after ∧ after.sorted = .ok after ∧
    after.entries.Perm tied.entries := by
  obtain ⟨accepts, -, keeps⟩ := sorted_exact tied
  obtain ⟨after, done⟩ :=
    accepts.mpr ⟨by decide, by decide, by decide, by decide, rfl, rfl, by decide⟩
  obtain ⟨-, -, -, -, same, again⟩ := keeps after done
  exact ⟨after, done, again, same⟩

end SeriesClient.Batch
