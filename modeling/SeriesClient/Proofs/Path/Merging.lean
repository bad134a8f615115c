import Mathlib
import SeriesClient.Proofs.Path.Coverage
import SeriesClient.Query

/-! Merging in stages. What is left out of a part lies under a stem that is kept, so merging the
merged parts gives what merging all at once gives, in whatever order the paths were named. -/
namespace SeriesClient.Path

/-- What a merged list owes to the paths it was made of. -/
structure MergeOf (paths merged : List String) : Prop where
  ascending : merged.Pairwise fun a b => le a b
  /-- No path comes in, and none is repeated. -/
  drawn : merged.Subperm paths
  inhabited : merged = [] → paths = []
  broad : everything ∈ paths → merged = [everything]
  patterns : everything ∉ paths → (merged.filter isPattern).Perm (paths.filter isPattern)
  apart : ∀ literal ∈ merged, isPattern literal = false → ∀ pattern ∈ merged, ∀ stem,
    stem? pattern = some stem → startsWith literal stem = false
  leftOut : ∀ literal ∈ paths, literal ∉ merged →
    ∃ pattern ∈ merged, ∃ stem, stem? pattern = some stem ∧ startsWith literal stem

/-- Paths that an accepted request asks for, when it was given `paths`. -/
inductive AskedFor (paths : List String) : List String → Prop
  | query {range : TimeRange} {query : Query} (made : Query.make paths range = .ok query) :
      AskedFor paths query.paths
  | aggregate {range : TimeRange} {reduction : Reduction} {query : AggregateQuery}
      (made : AggregateQuery.make paths range reduction = .ok query) : AskedFor paths query.paths
  | downsample {range : TimeRange} {reduction : Reduction} {precision : Int64}
      {query : DownsampleQuery}
      (made : DownsampleQuery.make paths range reduction precision = .ok query) :
      AskedFor paths query.paths
  | latest {start : Int64} {query : LatestQuery} (made : LatestQuery.make paths start = .ok query) :
      AskedFor paths query.paths

theorem isPattern_everything : isPattern everything = true := by decide

theorem covered_of_isPattern {path : String} (pattern : isPattern path = true)
    (stems : List String) : covered stems path = false := by
  rw [covered, pattern]
  rfl

/-- More stems cover more. -/
theorem covered_mono {few many : List String} (within : few ⊆ many) {path : String}
    (under : covered few path = true) : covered many path = true := by
  rw [covered, Bool.and_eq_true, List.any_eq_true] at under ⊢
  obtain ⟨plain, stem, listed, starts⟩ := under
  exact ⟨plain, stem, within listed, starts⟩

theorem covered_congr {first second : List String} (same : ∀ stem, stem ∈ first ↔ stem ∈ second) :
    covered first = covered second := by
  funext path
  rw [Bool.eq_iff_iff]
  exact ⟨covered_mono fun stem => (same stem).mp, covered_mono fun stem => (same stem).mpr⟩

theorem everything_mem_merge_iff {paths : List String} :
    everything ∈ merge paths ↔ everything ∈ paths := by
  by_cases broad : everything ∈ paths
  · rw [merge_of_everything broad]
    exact iff_of_true (List.mem_singleton_self _) broad
  · rw [mem_merge broad]
    exact iff_of_false (fun kept => broad kept.1) broad

/-- Without the pattern for everything the merged list is the uncovered paths. -/
theorem merge_perm {paths : List String} (narrow : everything ∉ paths) :
    (merge paths).Perm (paths.filter fun path => !covered (paths.filterMap stem?) path) := by
  rw [merge, if_neg (mt List.contains_iff_mem.mp narrow)]
  exact List.mergeSort_perm _ _

theorem merge_ascending (paths : List String) : (merge paths).Pairwise fun a b => le a b := by
  by_cases broad : everything ∈ paths
  · rw [merge_of_everything broad]
    exact List.pairwise_singleton _ _
  · rw [merge, if_neg (mt List.contains_iff_mem.mp broad)]
    exact List.pairwise_mergeSort le_trans le_total _

/-- A merged list is known by its members and how often each is there. -/
theorem merge_eq_of_perm {first second : List String}
    (same : (merge first).Perm (merge second)) : merge first = merge second :=
  same.eq_of_pairwise (fun a b _ _ => le_antisymm a b) (merge_ascending first)
    (merge_ascending second)

/-- All patterns are kept. -/
theorem pattern_mem_merge_iff {paths : List String} (narrow : everything ∉ paths)
    {pattern : String} (marked : isPattern pattern = true) :
    pattern ∈ merge paths ↔ pattern ∈ paths := by
  rw [mem_merge narrow, covered_of_isPattern marked, and_iff_left rfl]

theorem stem_mem_merge_iff {paths : List String} (narrow : everything ∉ paths) (stem : String) :
    stem ∈ (merge paths).filterMap stem? ↔ stem ∈ paths.filterMap stem? := by
  rw [List.mem_filterMap, List.mem_filterMap]
  refine exists_congr fun pattern => and_congr_left fun found => ?_
  exact pattern_mem_merge_iff narrow (Option.isSome_iff_exists.mpr ⟨stem, found⟩)

/-- A merged list holds all that other stems besides its own leave uncovered. -/
theorem uncovered_merge_perm {paths stems : List String} (narrow : everything ∉ paths)
    (own : paths.filterMap stem? ⊆ stems) :
    ((merge paths).filter fun path => !covered stems path).Perm
      (paths.filter fun path => !covered stems path) := by
  refine ((merge_perm narrow).filter _).trans (.of_eq ?_)
  rw [List.filter_filter]
  refine List.filter_congr fun path _ => ?_
  cases under : covered stems path with
  | true => rfl
  | false =>
    have free : covered (paths.filterMap stem?) path = false := by
      rw [← Bool.not_eq_true] at under ⊢
      exact mt (covered_mono own) under
    rw [free]
    rfl

theorem merge_of_perm {paths other : List String} (moved : paths.Perm other) :
    merge paths = merge other := by
  by_cases broad : everything ∈ paths
  · rw [merge_of_everything broad, merge_of_everything (moved.mem_iff.mp broad)]
  · have narrow : everything ∉ other := mt moved.mem_iff.mpr broad
    have stems := covered_congr fun stem => (moved.filterMap stem?).mem_iff (a := stem)
    apply merge_eq_of_perm
    refine (merge_perm broad).trans (.trans ?_ (merge_perm narrow).symm)
    rw [stems]
    exact moved.filter _

theorem merge_append (first second : List String) :
    merge (first ++ second) = merge (merge first ++ merge second) := by
  have broad : everything ∈ merge first ++ merge second ↔ everything ∈ first ++ second := by
    rw [List.mem_append, List.mem_append, everything_mem_merge_iff, everything_mem_merge_iff]
  by_cases all : everything ∈ first ++ second
  · rw [merge_of_everything all, merge_of_everything (broad.mpr all)]
  · obtain ⟨narrow, narrow'⟩ := not_or.mp (mt List.mem_append.mpr all)
    have stems : covered ((merge first ++ merge second).filterMap stem?) =
        covered ((first ++ second).filterMap stem?) := by
      refine covered_congr fun stem => ?_
      rw [List.filterMap_append, List.filterMap_append, List.mem_append, List.mem_append,
        stem_mem_merge_iff narrow, stem_mem_merge_iff narrow']
    have own : first.filterMap stem? ⊆ (first ++ second).filterMap stem? := by
      rw [List.filterMap_append]
      exact List.subset_append_left _ _
    have own' : second.filterMap stem? ⊆ (first ++ second).filterMap stem? := by
      rw [List.filterMap_append]
      exact List.subset_append_right _ _
    apply merge_eq_of_perm
    refine (merge_perm all).trans (.trans ?_ (merge_perm (mt broad.mp all)).symm)
    rw [stems, List.filter_append, List.filter_append]
    exact ((uncovered_merge_perm narrow own).append (uncovered_merge_perm narrow' own')).symm

theorem merge_nil : merge [] = [] := by simp [merge]

theorem merge_merge (paths : List String) : merge (merge paths) = merge paths := by
  have staged := merge_append paths []
  rw [List.append_nil, merge_nil, List.append_nil] at staged
  exact staged.symm

theorem merge_subperm (paths : List String) : (merge paths).Subperm paths := by
  by_cases broad : everything ∈ paths
  · rw [merge_of_everything broad]
    exact List.singleton_subperm_iff.mpr broad
  · exact (merge_perm broad).subperm.trans List.filter_sublist.subperm

theorem merge_eq_nil {paths : List String} (none : merge paths = []) : paths = [] := by
  rw [List.eq_nil_iff_forall_not_mem]
  intro path given
  have narrow : everything ∉ paths := by
    rw [← everything_mem_merge_iff, none]
    exact List.not_mem_nil
  have dropped : path ∉ merge paths := none ▸ List.not_mem_nil
  obtain ⟨pattern, kept, -⟩ := stem_of_left_out narrow given dropped
  exact List.not_mem_nil (none ▸ kept)

theorem merge_apart {paths : List String} {literal pattern stem : String}
    (kept : literal ∈ merge paths) (plain : isPattern literal = false)
    (asked : pattern ∈ merge paths) (found : stem? pattern = some stem) :
    startsWith literal stem = false := by
  by_cases broad : everything ∈ paths
  · rw [merge_of_everything broad] at kept
    cases List.mem_singleton.mp kept
    cases isPattern_everything.symm.trans plain
  · have free := ((mem_merge broad literal).mp kept).2
    have given := ((mem_merge broad pattern).mp asked).1
    rw [covered, plain, Bool.not_false, Bool.true_and, List.any_eq_false] at free
    exact Bool.of_not_eq_true (free stem (List.mem_filterMap.mpr ⟨pattern, given, found⟩))

theorem merge_mergeOf (paths : List String) : MergeOf paths (merge paths) where
  ascending := merge_ascending paths
  drawn := merge_subperm paths
  inhabited := merge_eq_nil
  broad := merge_of_everything
  patterns narrow := by
    refine ((merge_perm narrow).filter _).trans (.of_eq ?_)
    rw [List.filter_filter]
    refine List.filter_congr fun path _ => ?_
    cases marked : isPattern path with
    | true => rw [covered_of_isPattern marked]; rfl
    | false => rfl
  apart _ kept plain _ asked _ := merge_apart kept plain asked
  leftOut literal given dropped := by
    by_cases broad : everything ∈ paths
    · refine ⟨everything, everything_mem_merge_iff.mpr broad, "", by decide, rfl⟩
    · exact stem_of_left_out broad given dropped

/-- Whatever is built of the merged paths is built of what some paths merge into. -/
theorem built_of_mergedPaths {α : Type} {paths : List String} {build : List String → α}
    {request : α}
    (made : (do .ok (build (← mergedPaths paths))) = Except.ok request) :
    paths ≠ [] ∧ request = build (merge paths) := by
  obtain ⟨merged, accepted, made⟩ := exists_of_bind_eq_ok made
  cases made
  rw [mergedPaths] at accepted
  split at accepted
  · cases accepted
  · next some =>
    cases accepted
    exact ⟨mt List.isEmpty_iff.mpr some, rfl⟩

/-- A request is given some path, and asks for what its paths merge into. -/
theorem AskedFor.eq_merge {paths asked : List String} (request : AskedFor paths asked) :
    paths ≠ [] ∧ asked = merge paths := by
  cases request with
  | query made =>
    obtain ⟨-, -, made⟩ := exists_of_bind_eq_ok made
    obtain ⟨given, rfl⟩ := built_of_mergedPaths made
    exact ⟨given, rfl⟩
  | aggregate made =>
    obtain ⟨-, -, made⟩ := exists_of_bind_eq_ok made
    obtain ⟨given, rfl⟩ := built_of_mergedPaths made
    exact ⟨given, rfl⟩
  | @downsample _ _ precision _ made =>
    obtain ⟨-, -, made⟩ := exists_of_bind_eq_ok made
    by_cases positive : precision ≤ 0
    · rw [if_pos positive] at made
      cases made
    · rw [if_neg positive] at made
      obtain ⟨given, rfl⟩ := built_of_mergedPaths made
      exact ⟨given, rfl⟩
  | latest made =>
    obtain ⟨given, rfl⟩ := built_of_mergedPaths made
    exact ⟨given, rfl⟩

/-- Paths may be merged part by part and in any order, and what is merged stays as it is. A merged
list is in byte order and drawn from the given paths, and empty only if they are; it keeps all
patterns, or is the one for everything, and no literal under the stem of any of them. So each
request asks for some path. -/
theorem merge_in_stages (first second : List String) :
    merge (first ++ second) = merge (merge first ++ merge second) ∧
    (∀ other, first.Perm other → merge first = merge other) ∧
    merge (merge first) = merge first ∧
    MergeOf first (merge first) ∧
    ∀ asked, AskedFor first asked → asked = merge first ∧ asked ≠ [] := by
  refine ⟨merge_append first second, fun other => merge_of_perm, merge_merge first,
    merge_mergeOf first, ?_⟩
  intro asked request
  obtain ⟨given, rfl⟩ := request.eq_merge
  exact ⟨rfl, mt merge_eq_nil given⟩

/-- Two parts, each with a literal under a stem of the other. -/
theorem crossed_merge_in_stages :
    merge (merge ["b.x", "a.*", "c"] ++ merge ["a.z", "b.*"]) = ["a.*", "b.*", "c"] ∧
    ["b.x", "a.*", "c"].Perm ["c", "b.x", "a.*"] ∧
    merge ["b.x", "a.*", "c"] = merge ["c", "b.x", "a.*"] ∧
    ∃ query, Query.make ["b.x", "a.*", "c"] ⟨0, 9⟩ = .ok query ∧ query.paths ≠ [] := by
  obtain ⟨staged, reordered, -, -, requested⟩ := merge_in_stages ["b.x", "a.*", "c"] ["a.z", "b.*"]
  have moved : ["b.x", "a.*", "c"].Perm ["c", "b.x", "a.*"] := by decide
  obtain ⟨query, made⟩ : ∃ query, Query.make ["b.x", "a.*", "c"] ⟨0, 9⟩ = .ok query := ⟨_, rfl⟩
  refine ⟨staged.symm.trans (by cbv), moved, reordered _ moved, query, made, ?_⟩
  exact (requested _ (.query made)).2

end SeriesClient.Path
