import Mathlib.Data.List.Infix
import SeriesClient.Path

/-! Which literal paths a merged list still asks for. A literal is left out when it lies under the
stem of a pattern. It then has the form of that pattern, unless the pattern goes on behind its first
wildcard: of those only the stem is looked at. -/
namespace SeriesClient.Path

/-- Whether a text has the form of a pattern: a wildcard stands for any run of characters, also for
none, and every other character for itself. -/
def fits : (pattern text : List Char) → Bool
  | [], text => text.isEmpty
  | c :: pattern, text =>
    if c = wildcard then text.tails.any (fits pattern)
    else match text with
      | [] => false
      | d :: rest => c == d && fits pattern rest

/-- Whether a pattern has nothing but wildcards from its first one on. -/
def openEnded (pattern : String) : Bool :=
  (pattern.toList.dropWhile (· != wildcard)).all (· == wildcard)

theorem fits_wildcard {pattern text : List Char} :
    fits (wildcard :: pattern) text ↔ ∃ run rest, text = run ++ rest ∧ fits pattern rest := by
  simp only [fits, if_true, List.any_eq_true, List.mem_tails, List.IsSuffix]
  constructor
  · rintro ⟨rest, ⟨run, whole⟩, fitting⟩
    exact ⟨run, rest, whole.symm, fitting⟩
  · rintro ⟨run, rest, whole, fitting⟩
    exact ⟨rest, ⟨run, whole.symm⟩, fitting⟩

theorem fits_char {c : Char} (plain : c ≠ wildcard) {pattern text : List Char} :
    fits (c :: pattern) text ↔ ∃ rest, text = c :: rest ∧ fits pattern rest := by
  cases text with
  | nil => simp [fits, plain]
  | cons d text =>
    simp only [fits, if_neg plain, Bool.and_eq_true, beq_iff_eq, List.cons.injEq]
    constructor
    · rintro ⟨rfl, fitting⟩
      exact ⟨text, ⟨rfl, rfl⟩, fitting⟩
    · rintro ⟨rest, ⟨rfl, rfl⟩, fitting⟩
      exact ⟨rfl, fitting⟩

theorem fits_append {stem : List Char} (plain : ∀ c ∈ stem, c ≠ wildcard)
    {pattern text : List Char} :
    fits (stem ++ pattern) text ↔ ∃ rest, text = stem ++ rest ∧ fits pattern rest := by
  induction stem generalizing text with
  | nil => simp
  | cons c stem ih =>
    rw [List.cons_append, fits_char (plain c List.mem_cons_self)]
    simp only [ih fun d found => plain d (List.mem_cons_of_mem c found), List.cons_append]
    constructor
    · rintro ⟨rest, rfl, behind, rfl, fitting⟩
      exact ⟨behind, rfl, fitting⟩
    · rintro ⟨behind, rfl, fitting⟩
      exact ⟨stem ++ behind, rfl, behind, rfl, fitting⟩

theorem fits_nothing {pattern : List Char} (wild : ∀ c ∈ pattern, c = wildcard) :
    fits pattern [] := by
  induction pattern with
  | nil => rfl
  | cons c pattern ih =>
    cases wild c List.mem_cons_self
    exact fits_wildcard.mpr ⟨[], [], rfl, ih fun d found => wild d (List.mem_cons_of_mem _ found)⟩

/-- The stem ends where the first wildcard stands. -/
theorem toList_of_stem? {pattern stem : String} (found : stem? pattern = some stem) :
    (∀ c ∈ stem.toList, c ≠ wildcard) ∧
      ∃ behind, pattern.toList.dropWhile (· != wildcard) = wildcard :: behind ∧
        pattern.toList = stem.toList ++ wildcard :: behind := by
  rw [stem?] at found
  split at found
  · next marked =>
    cases Option.some.inj found
    rw [String.toList_ofList]
    have plain : ∀ c ∈ pattern.toList.takeWhile (· != wildcard), c ≠ wildcard := by
      intro c early
      simpa using List.all_eq_true.mp List.all_takeWhile c early
    have whole := List.takeWhile_append_dropWhile (p := (· != wildcard)) (l := pattern.toList)
    cases dropped : pattern.toList.dropWhile (· != wildcard) with
    | nil =>
      rw [dropped, List.append_nil] at whole
      rw [← whole] at marked
      exact absurd rfl (plain wildcard (List.contains_iff_mem.mp marked))
    | cons c behind =>
      have marker : c = wildcard := by
        have head := List.head?_dropWhile_not (· != wildcard) pattern.toList
        simpa [dropped] using head
      rw [dropped, marker] at whole
      exact ⟨plain, behind, by rw [marker], whole.symm⟩
  · cases found

/-- An open-ended pattern stands for exactly what lies under its stem. -/
theorem fits_iff_startsWith {pattern stem : String} (found : stem? pattern = some stem)
    (ended : openEnded pattern = true) (path : String) :
    fits pattern.toList path.toList ↔ startsWith path stem := by
  obtain ⟨plain, behind, dropped, whole⟩ := toList_of_stem? found
  have wild : ∀ c ∈ behind, c = wildcard := by
    intro c later
    rw [openEnded, dropped, List.all_eq_true] at ended
    simpa using ended c (List.mem_cons_of_mem wildcard later)
  rw [whole, fits_append plain, startsWith, List.isPrefixOf_iff_prefix]
  constructor
  · rintro ⟨rest, same, -⟩
    exact ⟨rest, same.symm⟩
  · rintro ⟨rest, same⟩
    refine ⟨rest, same.symm, fits_wildcard.mpr ⟨rest, [], (List.append_nil rest).symm, ?_⟩⟩
    exact fits_nothing wild

theorem mem_merge {paths : List String} (narrow : everything ∉ paths) (path : String) :
    path ∈ merge paths ↔ path ∈ paths ∧ covered (paths.filterMap stem?) path = false := by
  rw [merge, if_neg (mt List.contains_iff_mem.mp narrow), List.mem_mergeSort, List.mem_filter,
    Bool.not_eq_true']

theorem merge_of_everything {paths : List String} (broad : everything ∈ paths) :
    merge paths = [everything] :=
  if_pos (List.contains_iff_mem.mpr broad)

/-- A literal that is left out lies under the stem of a pattern that is asked for. -/
theorem stem_of_left_out {paths : List String} {literal : String} (narrow : everything ∉ paths)
    (requested : literal ∈ paths) (dropped : literal ∉ merge paths) :
    ∃ pattern ∈ merge paths, ∃ stem, stem? pattern = some stem ∧ startsWith literal stem := by
  rw [mem_merge narrow] at dropped
  have under := Bool.of_not_eq_false fun kept => dropped ⟨requested, kept⟩
  rw [covered, Bool.and_eq_true, List.any_eq_true] at under
  obtain ⟨-, stem, listed, starts⟩ := under
  obtain ⟨pattern, asked, found⟩ := List.mem_filterMap.mp listed
  refine ⟨pattern, (mem_merge narrow pattern).mpr ⟨asked, ?_⟩, stem, found, starts⟩
  rw [covered, isPattern, found]
  rfl

/-- A literal that is asked for is in the merged list or has the form of a path there; or there is a
pattern that goes on behind its first wildcard, and the literal lies under its stem. -/
theorem merge_keeps {paths : List String} {literal : String} (requested : literal ∈ paths) :
    literal ∈ merge paths ∨ (∃ path ∈ merge paths, fits path.toList literal.toList) ∨
      ∃ pattern ∈ merge paths, openEnded pattern = false ∧
        ∃ stem, stem? pattern = some stem ∧ startsWith literal stem := by
  by_cases broad : everything ∈ paths
  · refine .inr (.inl ⟨everything, ?_, ?_⟩)
    · rw [merge_of_everything broad]
      exact List.mem_singleton_self everything
    · exact (@fits_iff_startsWith everything "" (by rfl) (by rfl) literal).mpr rfl
  · by_cases kept : literal ∈ merge paths
    · exact .inl kept
    · obtain ⟨pattern, asked, stem, found, starts⟩ := stem_of_left_out broad requested kept
      cases ended : openEnded pattern with
      | true =>
        exact .inr (.inl ⟨pattern, asked, (fits_iff_startsWith found ended literal).mpr starts⟩)
      | false => exact .inr (.inr ⟨pattern, asked, ended, stem, found, starts⟩)

/-- A literal under two patterns: one goes on, the other is open-ended. -/
theorem overlapping_keeps :
    "root.d1.s2" ∈ ["root.*.s1", "root.d1.s2", "root.d1.*"] ∧
    "root.d1.s2" ∉ merge ["root.*.s1", "root.d1.s2", "root.d1.*"] ∧
    ("root.d1.s2" ∈ merge ["root.*.s1", "root.d1.s2", "root.d1.*"] ∨
      (∃ path ∈ merge ["root.*.s1", "root.d1.s2", "root.d1.*"],
        fits path.toList "root.d1.s2".toList) ∨
      ∃ pattern ∈ merge ["root.*.s1", "root.d1.s2", "root.d1.*"], openEnded pattern = false ∧
        ∃ stem, stem? pattern = some stem ∧ startsWith "root.d1.s2" stem) := by
  have requested : "root.d1.s2" ∈ ["root.*.s1", "root.d1.s2", "root.d1.*"] := by decide
  refine ⟨requested, ?_, merge_keeps requested⟩
  rw [mem_merge (by decide)]
  decide

/-- Of a pattern that goes on, the merged list looks at the stem alone: here it asks for the first
series of each device, and not any more for the second series of one. -/
theorem merge_drops_requested :
    "root.d1.s2" ∈ ["root.*.s1", "root.d1.s2"] ∧ isPattern "root.d1.s2" = false ∧
    "root.d1.s2" ∉ merge ["root.*.s1", "root.d1.s2"] ∧
    ∀ path ∈ merge ["root.*.s1", "root.d1.s2"], ¬ fits path.toList "root.d1.s2".toList := by
  have merged : merge ["root.*.s1", "root.d1.s2"] = ["root.*.s1"] := by decide +kernel
  rw [merged]
  refine ⟨?_, by rfl, ?_, ?_⟩
  · exact List.mem_cons_of_mem _ List.mem_cons_self
  · decide
  · intro path found
    cases List.mem_singleton.mp found
    decide

end SeriesClient.Path
