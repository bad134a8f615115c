import SeriesClient.Error

/-! A reordering found once from a list of keys and applied to every list that goes with it. -/
namespace SeriesClient

structure Permutation where
  /-- The source index of each place after reordering. -/
  order : List Nat
  complete : order.Perm (List.range order.length)
deriving DecidableEq, Repr

namespace Permutation
variable {α : Type}

/-- The stable sort of the keys: those that `le` does not tell apart keep their order. -/
def sortingBy (le : α → α → Bool) (keys : List α) : Permutation where
  order := (keys.zipIdx.mergeSort fun a b => le a.1 b.1).map Prod.snd
  complete := by
    have moved := (List.mergeSort_perm keys.zipIdx fun a b => le a.1 b.1).map Prod.snd
    rw [List.zipIdx_map_snd, ← List.range_eq_range'] at moved
    simpa using moved

def size (p : Permutation) : Nat := p.order.length

def isEmpty (p : Permutation) : Bool := p.order.isEmpty

def isIdentity (p : Permutation) : Bool := p.order == List.range p.size

/-- Takes items out of their slots, in an order of the slots. A slot gives its item once; after that
it is empty, and is passed over. -/
def takeSlots : List Nat → Array (Option α) → List α
  | [], _ => []
  | source :: order, slots =>
    slots[source]?.join.toList ++ takeSlots order (slots.setIfInBounds source none)

/-- Moves items into the order. Only a list of the size of the keys has a source for each place. -/
def apply (p : Permutation) (items : List α) : Except Error (List α) :=
  if items.length ≠ p.size then .error (.invalid (.permutationSize items.length p.size))
  else if p.isIdentity then .ok items
  else .ok (takeSlots p.order (items.map some).toArray)

/-- Moves the items of every list alike; the first list of another size is the failure. -/
def applyEach (p : Permutation) (lists : List (List α)) : Except Error (List (List α)) :=
  lists.mapM p.apply

theorem size_sortingBy (le : α → α → Bool) (keys : List α) :
    (sortingBy le keys).size = keys.length := by
  simp [sortingBy, size]

end Permutation
end SeriesClient
