import SeriesClient.Proofs.StableOrder

/-! Reordering without loss. An order that names every place once moves every list of its size: each
item stands where the order puts it, none is lost or given twice, and lists that go together stay
together. A list of another size is refused. -/
namespace SeriesClient.Permutation
variable {α β : Type}

theorem select_perm {order : List Nat} {items : List α}
    (complete : order.Perm (List.range items.length)) : (select order items).Perm items :=
  (complete.filterMap (items[·]?)).trans (.of_eq (select_range items))

theorem select_zip {first : List α} {second : List β} (paired : first.length = second.length)
    (order : List Nat) :
    select order (first.zip second) = (select order first).zip (select order second) := by
  induction order with
  | nil => rfl
  | cons source order ih =>
    simp only [select] at ih
    simp only [select, List.filterMap_cons]
    by_cases inside : source < first.length
    · have there : source < second.length := paired ▸ inside
      have both : source < (first.zip second).length := by
        rw [List.length_zip]
        omega
      simp only [List.getElem?_eq_getElem inside, List.getElem?_eq_getElem there,
        List.getElem?_eq_getElem both, List.getElem_zip, List.zip_cons_cons, ih]
    · have missing : second.length ≤ source := paired ▸ Nat.le_of_not_lt inside
      have neither : (first.zip second).length ≤ source := by
        rw [List.length_zip]
        omega
      simp only [List.getElem?_eq_none (Nat.le_of_not_lt inside), List.getElem?_eq_none missing,
        List.getElem?_eq_none neither, ih]

section Applying
variable {p : Permutation}

theorem apply_of_misfit {items : List α} (misfit : items.length ≠ p.size) :
    p.apply items = .error (.invalid (.permutationSize items.length p.size)) :=
  if_pos misfit

theorem apply_eq_ok_iff {items moved : List α} :
    p.apply items = .ok moved ↔ items.length = p.size ∧ moved = select p.order items := by
  by_cases fits : items.length = p.size
  · simp [apply_eq_select fits, fits, eq_comm]
  · simp [apply_of_misfit fits, fits]

/-- Lists that go together are moved together, or refused together. -/
theorem apply_zip {first : List α} {second : List β} (paired : first.length = second.length) :
    p.apply (first.zip second) =
      (p.apply first).bind fun front => (p.apply second).map fun back => front.zip back := by
  have size : (first.zip second).length = first.length := by
    rw [List.length_zip, paired, Nat.min_self]
  by_cases fits : first.length = p.size
  · rw [apply_eq_select (size.trans fits), apply_eq_select fits,
      apply_eq_select (paired.symm.trans fits), select_zip paired]
    rfl
  · have misfit : (first.zip second).length ≠ p.size := size ▸ fits
    rw [apply_of_misfit misfit, apply_of_misfit fits, size]
    rfl

theorem applyEach_of_misfit {before behind : List (List α)} {bad : List α}
    (fits : ∀ items ∈ before, items.length = p.size) (misfit : bad.length ≠ p.size) :
    p.applyEach (before ++ bad :: behind) =
      .error (.invalid (.permutationSize bad.length p.size)) := by
  have front : before.mapM p.apply = .ok (before.map (select p.order)) := applyEach_eq_select fits
  rw [applyEach, List.mapM_append, front, List.mapM_cons, apply_of_misfit misfit]
  rfl

/-- Either all lists fit, or one of them is the first that does not. -/
theorem fits_or_misfit (p : Permutation) (lists : List (List α)) :
    (∀ items ∈ lists, items.length = p.size) ∨ ∃ before bad behind,
      lists = before ++ bad :: behind ∧ (∀ items ∈ before, items.length = p.size) ∧
        bad.length ≠ p.size := by
  cases found : lists.find? fun items => items.length != p.size with
  | none => exact .inl (by simpa using found)
  | some bad =>
    obtain ⟨misfit, before, behind, rfl, fits⟩ := List.find?_eq_some_iff_append.mp found
    exact .inr ⟨before, bad, behind, rfl, by simpa using fits, by simpa using misfit⟩

theorem applyEach_eq_ok_iff {lists moved : List (List α)} : p.applyEach lists = .ok moved ↔
    (∀ items ∈ lists, items.length = p.size) ∧ moved = lists.map (select p.order) := by
  rcases fits_or_misfit p lists with fits | ⟨before, bad, behind, rfl, fits, misfit⟩
  · rw [applyEach_eq_select fits, Except.ok.injEq, and_iff_right fits, eq_comm]
  · rw [applyEach_of_misfit fits misfit]
    refine iff_of_false nofun ?_
    rintro ⟨all, -⟩
    exact misfit (all bad (by simp))

theorem applyEach_eq_error_iff {lists : List (List α)} {e : Error} :
    p.applyEach lists = .error e ↔ ∃ before bad behind, lists = before ++ bad :: behind ∧
      (∀ items ∈ before, items.length = p.size) ∧ p.apply bad = .error e := by
  constructor
  · intro failed
    rcases fits_or_misfit p lists with fits | ⟨before, bad, behind, rfl, fits, misfit⟩
    · cases (applyEach_eq_select fits).symm.trans failed
    · cases (applyEach_of_misfit fits misfit).symm.trans failed
      exact ⟨before, bad, behind, rfl, fits, apply_of_misfit misfit⟩
  · rintro ⟨before, bad, behind, rfl, fits, refused⟩
    have misfit : bad.length ≠ p.size := by
      intro fit
      cases (apply_eq_select fit).symm.trans refused
    rw [apply_of_misfit misfit] at refused
    cases refused
    exact applyEach_of_misfit fits misfit

end Applying

/-- Items in a new order: each place has the item that the order names, the items are the same ones,
and no slot they are taken out of is found empty. -/
structure Moved (order : List Nat) (items moved : List α) : Prop where
  place : ∀ i : Nat, moved[i]? = order[i]?.bind (items[·]?)
  same : moved.Perm items
  drawn : moved = drawn order (items.map some)

/-- Lists of so many items are moved without loss, one by one, side by side and all in turn; of all
others the first is refused. -/
structure Lossless (p : Permutation) (size : Nat) : Prop where
  accepts : ∀ {β : Type} (items : List β),
    (∃ moved, p.apply items = .ok moved) ↔ items.length = size
  moves : ∀ {β : Type} (items moved : List β), p.apply items = .ok moved →
    Moved p.order items moved
  refuses : ∀ {β : Type} (items : List β), items.length ≠ size →
    p.apply items = .error (.invalid (.permutationSize items.length size))
  zips : ∀ {β γ : Type} (first : List β) (second : List γ), first.length = second.length →
    p.apply (first.zip second) =
      (p.apply first).bind fun front => (p.apply second).map fun back => front.zip back
  acceptsEach : ∀ {β : Type} (lists : List (List β)),
    (∃ moved, p.applyEach lists = .ok moved) ↔ ∀ items ∈ lists, items.length = size
  movesEach : ∀ {β : Type} (lists moved : List (List β)),
    p.applyEach lists = .ok moved ↔ lists.map p.apply = moved.map .ok
  refusesFirst : ∀ {β : Type} (lists : List (List β)) (e : Error),
    p.applyEach lists = .error e ↔ ∃ (before : List (List β)) (bad : List β) (behind : _),
      lists = before ++ bad :: behind ∧ (∀ items ∈ before, items.length = size) ∧
        p.apply bad = .error e

theorem moved_select {order : List Nat} {items : List α}
    (complete : order.Perm (List.range items.length)) : Moved order items (select order items) := by
  have distinct : order.Nodup := complete.nodup_iff.mpr List.nodup_range
  refine ⟨getElem?_select (bounded_of_complete complete), select_perm complete, ?_⟩
  refine (drawn_eq_select distinct ?_).symm
  intro source _
  rw [List.getElem?_map]
  cases items[source]? <;> rfl

theorem map_apply_eq_iff {p : Permutation} {lists moved : List (List α)} :
    lists.map p.apply = moved.map .ok ↔
      (∀ items ∈ lists, items.length = p.size) ∧ moved = lists.map (select p.order) := by
  induction lists generalizing moved with
  | nil => simp [eq_comm]
  | cons items lists ih =>
    cases moved with
    | nil => simp
    | cons first moved =>
      simp only [List.map_cons, List.cons.injEq, ih, apply_eq_ok_iff, List.forall_mem_cons]
      exact and_and_and_comm

/-- What matters is that the order names every place once. -/
theorem lossless_of_complete {p : Permutation} {size : Nat}
    (complete : p.order.Perm (List.range size)) : p.Lossless size := by
  obtain rfl : p.size = size := by simpa [Permutation.size] using complete.length_eq
  constructor
  case accepts => simp [apply_eq_ok_iff]
  case moves =>
    intro β items moved done
    obtain ⟨fits, rfl⟩ := apply_eq_ok_iff.mp done
    exact moved_select (fits ▸ complete)
  case refuses => exact fun items => apply_of_misfit
  case zips => exact fun first second => apply_zip
  case acceptsEach => simp [applyEach_eq_ok_iff]
  case movesEach => exact fun lists moved => applyEach_eq_ok_iff.trans map_apply_eq_iff.symm
  case refusesFirst => exact fun lists e => applyEach_eq_error_iff

theorem isIdentity_sortingBy_iff {le : α → α → Bool}
    (trans : ∀ a b c, le a b → le b c → le a c) (total : ∀ a b, le a b || le b a)
    (keys : List α) :
    (sortingBy le keys).isIdentity = true ↔ keys.Pairwise fun a b => le a b := by
  constructor
  · intro identity
    have sorted := select_pairwise (sortingBy_sorts trans total keys)
    rwa [eq_of_beq identity, size_sortingBy, select_range] at sorted
  · intro sorted
    rw [isIdentity, size_sortingBy, order_sortingBy_of_pairwise sorted, beq_self_eq_true]

/-- Sorting by a total preorder finds the one order that names every key once, ascending, and equal
keys as they stood. It changes nothing exactly when the keys ascend already, and every list of their
number is moved by it without loss. -/
theorem sorting_lossless {le : α → α → Bool} (trans : ∀ a b c, le a b → le b c → le a c)
    (total : ∀ a b, le a b || le b a) (keys : List α) :
    (∀ order, Sorts le keys order ↔ order = (sortingBy le keys).order) ∧
    ((sortingBy le keys).isIdentity = true ↔ keys.Pairwise fun a b => le a b) ∧
    (sortingBy le keys).Lossless keys.length := by
  have sorts := sortingBy_sorts trans total keys
  refine ⟨?_, isIdentity_sortingBy_iff trans total keys, lossless_of_complete sorts.complete⟩
  intro order
  constructor
  · exact fun also => also.unique sorts
  · rintro rfl
    exact sorts

/-- Numbers in descending order, two of them equal. -/
def falling : Permutation := sortingBy (fun a b => decide (b ≤ a)) [1, 3, 1, 2]

theorem falling_lossless :
    (∀ a b c : Nat, decide (b ≤ a) = true → decide (c ≤ b) = true → decide (c ≤ a) = true) ∧
    (∀ a b : Nat, (decide (b ≤ a) || decide (a ≤ b)) = true) ∧
    falling.order = [1, 3, 0, 2] ∧ falling.isIdentity = false ∧
    (∃ moved, falling.apply ["w", "x", "y", "z"] = .ok moved ∧
      Moved [1, 3, 0, 2] ["w", "x", "y", "z"] moved) ∧
    falling.applyEach [[1, 2, 3, 4], [5], []] = .error (.invalid (.permutationSize 1 4)) := by
  have trans (a b c : Nat) (first : decide (b ≤ a) = true) (second : decide (c ≤ b) = true) :
      decide (c ≤ a) = true :=
    decide_eq_true (Nat.le_trans (of_decide_eq_true second) (of_decide_eq_true first))
  have total (a b : Nat) : (decide (b ≤ a) || decide (a ≤ b)) = true := by
    simpa using Nat.le_total b a
  obtain ⟨unique, identity, lossless⟩ := sorting_lossless trans total [1, 3, 1, 2]
  have order : falling.order = [1, 3, 0, 2] := by
    refine ((unique _).mp ⟨by decide, ?_, ?_⟩).symm
    · decide
    · decide
  have unsorted : falling.isIdentity = false := by
    rw [isIdentity, size, order]
    rfl
  obtain ⟨moved, done⟩ := (lossless.accepts ["w", "x", "y", "z"]).mpr rfl
  refine ⟨trans, total, order, unsorted, ⟨moved, done, order ▸ lossless.moves _ _ done⟩, ?_⟩
  exact (lossless.refusesFirst _ _).mpr ⟨[[1, 2, 3, 4]], [5], [[]], rfl, by simp,
    lossless.refuses [5] (by decide)⟩

end SeriesClient.Permutation
