import SeriesClient.Permutation

/-! The order found by sorting keys names every key once by its index, ascending, and equal keys as
they stood: it is the only such order, also for keys that were moved before. An item list of the
same size is moved by that order without loss. -/
namespace SeriesClient.Permutation
variable {α : Type}

/-- A list of indices along which the keys ascend and equal keys keep their order. -/
structure Sorts (le : α → α → Bool) (keys : List α) (order : List Nat) : Prop where
  complete : order.Perm (List.range keys.length)
  ascending : order.Pairwise fun i j => ∀ a ∈ keys[i]?, ∀ b ∈ keys[j]?, le a b
  stable : order.Pairwise fun i j => ∀ a ∈ keys[i]?, ∀ b ∈ keys[j]?, le b a → i < j

theorem bounded_of_complete {order : List Nat} {size : Nat}
    (complete : order.Perm (List.range size)) : ∀ i ∈ order, i < size := by
  intro i member
  exact List.mem_range.mp (complete.mem_iff.mp member)

theorem Sorts.bounded {le : α → α → Bool} {keys : List α} {order : List Nat}
    (sorts : Sorts le keys order) : ∀ i ∈ order, i < keys.length :=
  bounded_of_complete sorts.complete

/-- Keys are sorted in one way. -/
theorem Sorts.unique {le : α → α → Bool} {keys : List α} {first second : List Nat}
    (sorts : Sorts le keys first) (again : Sorts le keys second) : first = second := by
  have ordered := sorts.ascending.and sorts.stable
  have ordered' := again.ascending.and again.stable
  refine List.Perm.eq_of_pairwise ?_ ordered ordered' (sorts.complete.trans again.complete.symm)
  intro i j inside inside' forward backward
  have here := List.getElem?_eq_getElem (sorts.bounded i inside)
  have there := List.getElem?_eq_getElem (again.bounded j inside')
  have tied := backward.1 _ there _ here
  have early := forward.2 _ here _ there tied
  have late := backward.2 _ there _ here (forward.1 _ here _ there)
  exact absurd late (Nat.lt_asymm early)

theorem eq_of_mem_zipIdx_zipIdx {keys : List α} {key : α} {i n : Nat}
    (member : ((key, i), n) ∈ keys.zipIdx.zipIdx) : i = n := by
  have found := List.mk_mem_zipIdx_iff_getElem?.mp member
  rw [List.getElem?_zipIdx, Option.map_eq_some_iff] at found
  obtain ⟨_, _, same⟩ := found
  simpa using (congrArg Prod.snd same).symm

/-- Sorting indexed keys by the keys alone also sorts tied keys by their index: the sort is stable
and the indices come in ascending order. -/
theorem mergeSort_zipIdx_pairwise {le : α → α → Bool}
    (trans : ∀ a b c, le a b → le b c → le a c) (total : ∀ a b, le a b || le b a)
    (keys : List α) :
    (keys.zipIdx.mergeSort fun a b => le a.1 b.1).Pairwise fun a b =>
      le a.1 b.1 ∧ (le b.1 a.1 → a.2 ≤ b.2) := by
  let tagged (a b : α × Nat) : Bool := le a.1 b.1
  have sorted := List.pairwise_mergeSort
    (@List.zipIdxLE_trans _ tagged fun _ _ _ => trans _ _ _)
    (@List.zipIdxLE_total _ tagged fun _ _ => total _ _) keys.zipIdx.zipIdx
  rw [← List.mergeSort_zipIdx, List.pairwise_map]
  refine sorted.imp_of_mem ?_
  rintro ⟨⟨a, i⟩, m⟩ ⟨⟨b, j⟩, n⟩ first second ordered
  have first := eq_of_mem_zipIdx_zipIdx (List.mem_mergeSort.mp first)
  have second := eq_of_mem_zipIdx_zipIdx (List.mem_mergeSort.mp second)
  subst first second
  simp only [List.zipIdxLE, tagged] at ordered
  split at ordered
  · rename_i forward
    refine ⟨forward, ?_⟩
    intro backward
    simpa [backward] using ordered
  · contradiction

theorem sortingBy_sorts {le : α → α → Bool} (trans : ∀ a b c, le a b → le b c → le a c)
    (total : ∀ a b, le a b || le b a) (keys : List α) :
    Sorts le keys (sortingBy le keys).order := by
  have sorted := mergeSort_zipIdx_pairwise trans total keys
  have complete : (sortingBy le keys).order.Perm (List.range keys.length) := by
    rw [← size_sortingBy le keys]
    exact (sortingBy le keys).complete
  have keyOf {a : α × Nat} (member : a ∈ keys.zipIdx.mergeSort fun a b => le a.1 b.1) :
      keys[a.2]? = some a.1 :=
    List.mem_zipIdx_iff_getElem?.mp (List.mem_mergeSort.mp member)
  refine ⟨complete, ?_, ?_⟩
  · refine List.pairwise_map.mpr (sorted.imp_of_mem ?_)
    intro a b first second ordered x hx y hy
    cases (keyOf first).symm.trans hx
    cases (keyOf second).symm.trans hy
    exact ordered.1
  · -- Two places never name the same index, so `≤` between indices of tied keys is `<`.
    have distinct : (keys.zipIdx.mergeSort fun a b => le a.1 b.1).Pairwise
        fun a b => a.2 ≠ b.2 :=
      List.pairwise_map.mp (complete.nodup_iff.mpr List.nodup_range)
    refine List.pairwise_map.mpr ((sorted.and distinct).imp_of_mem ?_)
    intro a b first second ordered x hx y hy tied
    cases (keyOf first).symm.trans hx
    cases (keyOf second).symm.trans hy
    exact Nat.lt_of_le_of_ne (ordered.1.2 tied) ordered.2

/-- The items at the places that an order names. -/
def select (order : List Nat) (items : List α) : List α := order.filterMap (items[·]?)

theorem select_range (items : List α) : select (List.range items.length) items = items := by
  induction items with
  | nil => rfl
  | cons item items ih =>
    rw [select, List.length_cons, List.range_succ_eq_map, List.filterMap_cons, List.filterMap_map]
    exact congrArg (item :: ·) ih

theorem getElem?_select {order : List Nat} {items : List α}
    (bounded : ∀ i ∈ order, i < items.length) (place : Nat) :
    (select order items)[place]? = order[place]?.bind (items[·]?) := by
  induction order generalizing place with
  | nil => rfl
  | cons i order ih =>
    have here := List.getElem?_eq_getElem (bounded i List.mem_cons_self)
    rw [select, List.filterMap_cons, here]
    cases place with
    | zero => exact here.symm
    | succ place => exact ih (fun j member => bounded j (List.mem_cons_of_mem _ member)) place

theorem length_select {order : List Nat} {items : List α}
    (bounded : ∀ i ∈ order, i < items.length) : (select order items).length = order.length := by
  induction order with
  | nil => rfl
  | cons i order ih =>
    rw [select, List.filterMap_cons, List.getElem?_eq_getElem (bounded i List.mem_cons_self)]
    exact congrArg (· + 1) (ih fun j member => bounded j (List.mem_cons_of_mem _ member))

theorem mem_of_mem_select {order : List Nat} {items : List α} {item : α}
    (member : item ∈ select order items) : item ∈ items := by
  obtain ⟨_, _, found⟩ := List.mem_filterMap.mp member
  exact List.mem_of_getElem? found

theorem select_map {β : Type} (f : α → β) (order : List Nat) (items : List α) :
    select order (items.map f) = (select order items).map f := by
  simp [select, List.map_filterMap]

/-- Taking places of places. -/
theorem select_select {order : List Nat} {items : List α} (bounded : ∀ i ∈ order, i < items.length)
    (outer : List Nat) : select outer (select order items) = select (select outer order) items := by
  rw [select, funext (getElem?_select bounded), select, select, List.filterMap_filterMap]

/-- An order that names every place once and keeps equal items as they stood. -/
structure Reorders (items : List α) (order : List Nat) : Prop where
  complete : order.Perm (List.range items.length)
  stable : order.Pairwise fun i j => items[i]? = items[j]? → i < j

theorem Reorders.bounded {items : List α} {order : List Nat} (reorders : Reorders items order) :
    ∀ i ∈ order, i < items.length := bounded_of_complete reorders.complete

theorem Reorders.length {items : List α} {order : List Nat} (reorders : Reorders items order) :
    order.length = items.length := by
  simpa using reorders.complete.length_eq

/-- Sorting keys that were moved before sorts the keys. -/
theorem Sorts.of_reordered {le : α → α → Bool} (antisymm : ∀ a b, le a b → le b a → a = b)
    {keys : List α} {order sorting : List Nat} (reorders : Reorders keys order)
    (sorts : Sorts le (select order keys) sorting) : Sorts le keys (select sorting order) := by
  have taken {p i : Nat} {a : α} (named : order[p]? = some i) (here : a ∈ keys[i]?) :
      a ∈ (select order keys)[p]? := by
    rw [getElem?_select reorders.bounded, named]
    exact here
  constructor
  · have complete := sorts.complete
    rw [length_select reorders.bounded] at complete
    have moved := complete.filterMap (order[·]?)
    exact (moved.trans (.of_eq (select_range order))).trans reorders.complete
  · refine List.pairwise_filterMap.mpr (sorts.ascending.imp ?_)
    intro p q ascends i first j second a here b there
    exact ascends a (taken first here) b (taken second there)
  · refine List.pairwise_filterMap.mpr ((sorts.ascending.and sorts.stable).imp ?_)
    intro p q ordered i first j second a here b there tied
    have ascends := ordered.1 a (taken first here) b (taken second there)
    have early := ordered.2 a (taken first here) b (taken second there) tied
    -- Tied keys are equal, so that moving the keys has left them as they stood.
    obtain rfl := antisymm a b ascends tied
    obtain ⟨before, rfl⟩ := List.getElem?_eq_some_iff.mp first
    obtain ⟨behind, rfl⟩ := List.getElem?_eq_some_iff.mp second
    have stable := List.pairwise_iff_getElem.mp reorders.stable p q before behind early
    exact stable (Eq.trans here (Eq.symm there))

theorem select_pairwise {le : α → α → Bool} {keys : List α} {order : List Nat}
    (sorts : Sorts le keys order) : (select order keys).Pairwise fun a b => le a b :=
  List.pairwise_filterMap.mpr sorts.ascending

/-- Keys that ascend already keep their places. -/
theorem order_sortingBy_of_pairwise {le : α → α → Bool} {keys : List α}
    (sorted : keys.Pairwise fun a b => le a b) :
    (sortingBy le keys).order = List.range keys.length := by
  have tagged : keys.zipIdx.Pairwise fun a b => le a.1 b.1 := by
    rw [← List.zipIdx_map_fst 0 keys] at sorted
    exact List.pairwise_map.mp sorted
  have order : (sortingBy le keys).order =
      (keys.zipIdx.mergeSort fun a b => le a.1 b.1).map Prod.snd := rfl
  rw [order, List.mergeSort_of_pairwise tagged, List.zipIdx_map_snd, List.range_eq_range']

/-- Items taken out of their slots along an order. A slot gives its item once; after that it is
empty, and is passed over. -/
def drawn : List Nat → List (Option α) → List α
  | [], _ => []
  | source :: order, slots => slots[source]?.join.toList ++ drawn order (slots.set source none)

theorem takeSlots_eq_drawn (order : List Nat) (slots : Array (Option α)) :
    takeSlots order slots = drawn order slots.toList := by
  induction order generalizing slots with
  | nil => rfl
  | cons source order ih =>
    rw [takeSlots, ih, Array.toList_setIfInBounds, drawn, Array.getElem?_toList]

/-- An order without repetition finds no slot empty. -/
theorem drawn_eq_select {order : List Nat} {slots : List (Option α)} {items : List α}
    (distinct : order.Nodup) (filled : ∀ source ∈ order, slots[source]?.join = items[source]?) :
    drawn order slots = select order items := by
  induction order generalizing slots with
  | nil => rfl
  | cons source order ih =>
    obtain ⟨fresh, distinct⟩ := List.nodup_cons.mp distinct
    have rest : drawn order (slots.set source none) = select order items := by
      apply ih distinct
      intro other member
      have apart : source ≠ other := fun same => fresh (same ▸ member)
      rw [List.getElem?_set_ne apart]
      exact filled other (List.mem_cons_of_mem _ member)
    rw [drawn, rest, filled source List.mem_cons_self]
    simp only [select, List.filterMap_cons]
    cases items[source]? <;> rfl

theorem apply_eq_select {p : Permutation} {items : List α} (fits : items.length = p.size) :
    p.apply items = .ok (select p.order items) := by
  rw [apply, if_neg (not_not_intro fits)]
  split
  · rename_i identity
    rw [eq_of_beq identity, ← fits, select_range]
  · rw [takeSlots_eq_drawn, drawn_eq_select (p.complete.nodup_iff.mpr List.nodup_range)]
    intro source _
    rw [List.getElem?_map]
    cases items[source]? <;> rfl

theorem applyEach_eq_select {p : Permutation} {lists : List (List α)}
    (fits : ∀ items ∈ lists, items.length = p.size) :
    p.applyEach lists = .ok (lists.map (select p.order)) := by
  induction lists with
  | nil => rfl
  | cons items lists ih =>
    have first := apply_eq_select (fits items List.mem_cons_self)
    have rest := ih fun others member => fits others (List.mem_cons_of_mem _ member)
    rw [applyEach] at rest ⊢
    rw [List.mapM_cons, first, rest]
    rfl

end SeriesClient.Permutation
