import Mathlib.Data.Multiset.Range
import Mathlib.Logic.Equiv.Basic
import Mathlib.Order.Basic

/-!
# Heap order over any parent function

An array of `size` items is a function on indices. A parent function lowers every index
but 0, so that each index has a path to the root, whatever the arity of the tree or the
place where its numbering starts. Items are compared by a key in a linear order, and
the array is ordered if no item is smaller than the one above it.

Two repairs are used by the operations of a heap. An item that may be smaller than the
one above it rises by swaps along its path; an item that may be larger than one below
it sinks by swaps with its least child. Either has an invariant that a swap keeps and
that is the order where the swaps end. Swaps do not change the bag of items.
-/

namespace HeapOrder

universe u v

/-- Where each index hangs. -/
structure Tree where
  parent : Nat → Nat
  parent_lt : ∀ index, 0 < index → parent index < index

variable {α : Type u} {κ : Type v} [LinearOrder κ] {tree : Tree} {key : α → κ} {size : Nat}
  {items : Nat → α}

/-- No item is smaller than its parent. -/
def InOrder (tree : Tree) (key : α → κ) (size : Nat) (items : Nat → α) : Prop :=
  ∀ index, 0 < index → index < size → key (items (tree.parent index)) ≤ key (items index)

/-- The root is least: the path from an index up to it never grows. -/
theorem InOrder.root_least (ordered : InOrder tree key size items) {index : Nat}
    (inside : index < size) : key (items 0) ≤ key (items index) := by
  induction index using Nat.strongRecOn with
  | ind index inductionHypothesis =>
    rcases Nat.eq_zero_or_pos index with rfl | positive
    · exact le_refl _
    · have above := tree.parent_lt index positive
      exact le_trans (inductionHypothesis _ above (by omega)) (ordered index positive inside)

/-- The array with the items at two indices exchanged. -/
def swapped (items : Nat → α) (one other : Nat) : Nat → α := items ∘ Equiv.swap one other

/-- The first of the exchanged places holds the item of the second. -/
@[simp] theorem swapped_left (items : Nat → α) (one other : Nat) :
    swapped items one other one = items other := by
  simp [swapped]

/-- The second of the exchanged places holds the item of the first. -/
@[simp] theorem swapped_right (items : Nat → α) (one other : Nat) :
    swapped items one other other = items one := by
  simp [swapped]

/-- Every other place keeps its item. -/
theorem swapped_other (items : Nat → α) {one other index : Nat} (notOne : index ≠ one)
    (notOther : index ≠ other) : swapped items one other index = items index := by
  rw [swapped, Function.comp_apply, Equiv.swap_apply_of_ne_of_ne notOne notOther]

/-! ## Rising -/

/-- Only the item at `index` may be smaller than its parent, and that parent is not
larger than what hangs below the item. -/
structure Rising (tree : Tree) (key : α → κ) (size : Nat) (items : Nat → α) (index : Nat) :
    Prop where
  others : ∀ child, 0 < child → child < size → child ≠ index →
    key (items (tree.parent child)) ≤ key (items child)
  bridge : 0 < index → ∀ child, 0 < child → child < size → tree.parent child = index →
    key (items (tree.parent index)) ≤ key (items child)

/-- A swap with a larger parent moves the place of the possible disorder there. -/
theorem Rising.step {index : Nat} (rising : Rising tree key size items index)
    (positive : 0 < index) (inside : index < size)
    (smaller : key (items index) < key (items (tree.parent index))) :
    Rising tree key size (swapped items index (tree.parent index)) (tree.parent index) := by
  have above := tree.parent_lt index positive
  constructor
  · intro child childPositive childInside notParent
    by_cases same : child = index
    · subst same
      rw [swapped_right, swapped_left]
      exact le_of_lt smaller
    · rw [swapped_other items same notParent]
      by_cases below : tree.parent child = index
      · rw [below, swapped_left]
        exact rising.bridge positive child childPositive childInside below
      · have ordered := rising.others child childPositive childInside same
        by_cases sibling : tree.parent child = tree.parent index
        · rw [sibling, swapped_right]
          rw [sibling] at ordered
          exact le_trans (le_of_lt smaller) ordered
        · rwa [swapped_other items below sibling]
  · intro parentPositive child childPositive childInside below
    have higher := tree.parent_lt _ parentPositive
    have upper := rising.others _ parentPositive (by omega) (by omega)
    rw [swapped_other items (by omega) (by omega)]
    by_cases same : child = index
    · subst same
      rwa [swapped_left]
    · have lower := tree.parent_lt child childPositive
      rw [swapped_other items same (by omega)]
      have ordered := rising.others child childPositive childInside same
      rw [below] at ordered
      exact le_trans upper ordered

/-- Where the item is not smaller than its parent, everything is in order. -/
theorem Rising.ordered {index : Nat} (rising : Rising tree key size items index)
    (stops : 0 < index → key (items (tree.parent index)) ≤ key (items index)) :
    InOrder tree key size items := by
  intro child positive inside
  by_cases same : child = index
  · subst same
    exact stops positive
  · exact rising.others child positive inside same

/-! ## Sinking -/

/-- Only the item at `index` may be larger than one of its children, and what hangs
above it is not larger than these. -/
structure Sinking (tree : Tree) (key : α → κ) (size : Nat) (items : Nat → α) (index : Nat) :
    Prop where
  others : ∀ child, 0 < child → child < size → tree.parent child ≠ index →
    key (items (tree.parent child)) ≤ key (items child)
  bridge : 0 < index → ∀ child, 0 < child → child < size → tree.parent child = index →
    key (items (tree.parent index)) ≤ key (items child)

/-- A swap with the least child, if it is smaller, moves the possible disorder there. -/
theorem Sinking.step {index least : Nat} (sinking : Sinking tree key size items index)
    (positive : 0 < least) (inside : least < size) (hangs : tree.parent least = index)
    (isLeast : ∀ child, 0 < child → child < size → tree.parent child = index →
      key (items least) ≤ key (items child))
    (smaller : key (items least) < key (items index)) :
    Sinking tree key size (swapped items index least) least := by
  have above : index < least := hangs ▸ tree.parent_lt least positive
  constructor
  · intro child childPositive childInside notBelow
    have lower := tree.parent_lt child childPositive
    by_cases same : child = least
    · subst same
      rw [hangs, swapped_left, swapped_right]
      exact le_of_lt smaller
    · by_cases top : child = index
      · subst top
        rw [swapped_left, swapped_other items (by omega) (by omega)]
        exact sinking.bridge childPositive least positive inside hangs
      · rw [swapped_other items top same]
        by_cases sibling : tree.parent child = index
        · rw [sibling, swapped_left]
          exact isLeast child childPositive childInside sibling
        · rw [swapped_other items sibling notBelow]
          exact sinking.others child childPositive childInside sibling
  · intro _ child childPositive childInside below
    have lower := tree.parent_lt child childPositive
    rw [hangs, swapped_left, swapped_other items (by omega) (by omega)]
    have ordered := sinking.others child childPositive childInside (by omega)
    rwa [below] at ordered

/-- Where the item is not larger than a child, everything is in order. -/
theorem Sinking.ordered {index : Nat} (sinking : Sinking tree key size items index)
    (stops : ∀ child, 0 < child → child < size → tree.parent child = index →
      key (items index) ≤ key (items child)) :
    InOrder tree key size items := by
  intro child positive inside
  by_cases hangs : tree.parent child = index
  · rw [hangs]
    exact stops child positive inside hangs
  · exact sinking.others child positive inside hangs

/-! ## The bag of items -/

/-- The items, with their multiplicity. -/
def bag (size : Nat) (items : Nat → α) : Multiset α := (Multiset.range size).map items

/-- One more place adds exactly its item to the bag. -/
theorem bag_succ (size : Nat) (items : Nat → α) :
    bag (size + 1) items = items size ::ₘ bag size items := by
  rw [bag, Multiset.range_succ, Multiset.map_cons, bag]

/-- The bag depends on the items below its size only. -/
theorem bag_congr {size : Nat} {items others : Nat → α}
    (same : ∀ index, index < size → items index = others index) :
    bag size items = bag size others :=
  Multiset.map_congr rfl fun index inside => same index (Multiset.mem_range.mp inside)

/-- An item is in the bag exactly when some place below the size holds it. -/
theorem mem_bag {size : Nat} {items : Nat → α} {item : α} :
    item ∈ bag size items ↔ ∃ index, index < size ∧ items index = item := by
  simp [bag]

/-- The bag has as many items as there are places. -/
theorem bag_card (size : Nat) (items : Nat → α) : (bag size items).card = size := by
  simp [bag]

/-- An exchange of two places below the size leads every such place to such a place. -/
theorem swap_inside {size one other index : Nat} (oneInside : one < size)
    (otherInside : other < size) (inside : index < size) : Equiv.swap one other index < size := by
  by_cases atOne : index = one
  · rwa [atOne, Equiv.swap_apply_left]
  · by_cases atOther : index = other
    · rwa [atOther, Equiv.swap_apply_right]
    · rwa [Equiv.swap_apply_of_ne_of_ne atOne atOther]

/-- A swap inside the array only moves items. -/
theorem bag_swapped {size : Nat} (items : Nat → α) {one other : Nat} (oneInside : one < size)
    (otherInside : other < size) : bag size (swapped items one other) = bag size items := by
  have moved : (Multiset.range size).map (Equiv.swap one other) = Multiset.range size := by
    have nodup := Multiset.nodup_range size
    refine ((nodup.map (Equiv.injective _)).ext nodup).mpr fun index => ?_
    simp only [Multiset.mem_map, Multiset.mem_range]
    constructor
    · rintro ⟨source, inside, rfl⟩
      exact swap_inside oneInside otherInside inside
    · intro inside
      exact ⟨_, swap_inside oneInside otherInside inside, Equiv.swap_apply_self one other index⟩
  rw [bag, swapped, ← Multiset.map_map, moved, bag]

/-- In an ordered array the item at the root is least of the bag. -/
theorem InOrder.least_of_bag (ordered : InOrder tree key size items) :
    ∀ item ∈ bag size items, key (items 0) ≤ key item := by
  intro item listed
  obtain ⟨index, inside, rfl⟩ := mem_bag.mp listed
  exact ordered.root_least inside

end HeapOrder
