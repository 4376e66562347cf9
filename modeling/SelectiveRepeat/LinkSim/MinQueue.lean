import SelectiveRepeat.Library.HeapOrder
import SelectiveRepeat.Library.PackedSlots
import SelectiveRepeat.Packet.Structure

/-!
# min_queue

The priority queue in which `link_sim` keeps delayed packets is a binary heap in an
array that grows by 20 slots at a time. Its root has index 0 and a single child, 1;
below it the children of `x` are `2x` and `2x + 1`. The code reads a slot only where
it has stored an element before: reading any other slot is a fault here.

`minq_new` is modelled where its allocations succeed, and the queue is never NULL:
`proxy_traffic` stops before its loop otherwise.
-/

namespace SelectiveRepeat

open PackedSlots HeapOrder

/-- `SLOTS_PER_MALLOC` -/
def slotsPerMalloc : Nat := 20

/-- `LCHILD` -/
def lchild (x : Nat) : Nat := x <<< 1

/-- `PARENT` -/
def parent (x : Nat) : Nat := x >>> 1

/-- A shift to the left doubles. -/
theorem lchild_eq (x : Nat) : lchild x = 2 * x := by
  rw [lchild, Nat.shiftLeft_eq, Nat.mul_comm, Nat.pow_one]

/-- A shift to the right halves. -/
theorem parent_eq (x : Nat) : parent x = x / 2 := by
  rw [parent, Nat.shiftRight_eq_div_pow, Nat.pow_one]

/-- The parent of an element comes before it. -/
theorem parent_lt {x : Nat} (positive : 0 < x) : parent x < x := by
  rw [parent_eq]
  omega

/-- `struct minqueue`. Its `cmp` never changes and is a parameter of the functions. -/
structure MinQueue (α : Type) where
  size : Nat
  alloc : Nat
  e : List (Option α)

/-- `minq_new` -/
def minqNew (α : Type) : MinQueue α where
  size := 0
  alloc := slotsPerMalloc
  e := List.replicate slotsPerMalloc none

section Operations

variable {α : Type}

/-- `q->e[i]` -/
def elementAt (e : List (Option α)) (i : Nat) : Run α :=
  if i < e.length then
    match slot e i with
    | none => .error .wildPointer
    | some element => .ok element
  else .error (.outOfRange i)

/-- `q->e[i] = element` -/
def setElement (e : List (Option α)) (i : Nat) (element : α) : Run (List (Option α)) :=
  if i < e.length then .ok (e.set i (some element)) else .error (.outOfRange i)

variable (cmp : α → α → Bool)

/-- The loop of `minq_push` that moves parents down, and the insertion where it ends. -/
def heapifyUp (v : α) (i : Nat) (e : List (Option α)) : Run (List (Option α)) :=
  if _ : i = 0 then setElement e i v
  else do
    let above ← elementAt e (parent i)
    if cmp above v then
      let e ← setElement e i above
      heapifyUp v (parent i) e
    else setElement e i v
termination_by i
decreasing_by exact parent_lt (Nat.pos_of_ne_zero ‹_›)

/-- `minq_push`; `reallocs` tells whether `realloc` would find the memory. -/
def minqPush (reallocs : Bool) (q : MinQueue α) (v : α) : Run (Int × MinQueue α) := do
  if q.size = q.alloc ∧ reallocs = false then return (-1, q)
  let q := if q.size = q.alloc then { q with
    e := q.e ++ List.replicate slotsPerMalloc none
    alloc := q.size + slotsPerMalloc } else q
  let e ← heapifyUp cmp v q.size q.e
  return (0, { q with size := q.size + 1, e := e })

/-- `has_child` -/
def hasChild (size : Nat) (e : List (Option α)) (i : Nat) : Run Nat := do
  let left := lchild i
  if size ≤ left then return 0
  let right := left + 1
  if right < size then
    let leftElement ← elementAt e left
    let rightElement ← elementAt e right
    return if cmp leftElement rightElement then right else left
  return left

/-- A child other than 0 is further down, and in the queue. -/
theorem hasChild_bounds {size : Nat} {e : List (Option α)} {i child : Nat}
    (chosen : hasChild cmp size e i = .ok child) (notRoot : child ≠ 0) :
    i < child ∧ child < size := by
  simp only [hasChild, lchild_eq] at chosen
  split at chosen
  · cases chosen
    exact absurd rfl notRoot
  · split at chosen
    · obtain ⟨leftElement, _, chosen⟩ := run_bind chosen
      obtain ⟨rightElement, _, chosen⟩ := run_bind chosen
      obtain rfl : (if cmp leftElement rightElement then 2 * i + 1 else 2 * i) = child :=
        Except.ok.inj chosen
      split_ifs at notRoot ⊢ <;> omega
    · cases chosen
      omega

/-- The loop of `minq_pop` that swaps an element with its smaller child. -/
def heapifyDown (size current : Nat) (e : List (Option α)) : Run (List (Option α)) :=
  match _ : hasChild cmp size e current with
  | .error fault => .error fault
  | .ok minChild =>
    if _ : minChild = 0 then .ok e
    else do
      let upper ← elementAt e current
      let lower ← elementAt e minChild
      if cmp upper lower then
        let e ← setElement e current lower
        let e ← setElement e minChild upper
        heapifyDown size minChild e
      else return e
termination_by size - current
decreasing_by
  obtain ⟨below, inside⟩ := hasChild_bounds cmp ‹_› ‹_›
  omega

/-- `minq_pop` -/
def minqPop (q : MinQueue α) : Run (MinQueue α) := do
  if q.size = 0 then return q
  let size := q.size - 1
  let last ← elementAt q.e size
  let e ← setElement q.e 0 last
  let e ← heapifyDown cmp size 0 e
  return { q with size := size, e := e }

/-- `minq_peek` -/
def minqPeek (q : MinQueue α) : Run (Option α) := do
  if q.size = 0 then return none
  let element ← elementAt q.e 0
  return some element

end Operations

/-! ## The loops -/

section Loops

variable {α κ : Type} [LinearOrder κ] {cmp : α → α → Bool} {key : α → κ} {size : Nat}
  {items : Nat → α} {e : List (Option α)}

/-- The tree of the indices. -/
def heapTree : Tree := ⟨parent, fun _ => parent_lt⟩

/-- The comparison is the one of the keys: `cmp` is non-zero if its first argument is
larger. -/
def Compares (cmp : α → α → Bool) (key : α → κ) : Prop :=
  ∀ one other, cmp one other = true ↔ key other < key one

/-- The first `size` slots hold the items. -/
def Stored (size : Nat) (items : Nat → α) (e : List (Option α)) : Prop :=
  size ≤ e.length ∧ ∀ i < size, slot e i = some (items i)

/-- The same, but for the slot at `hole`, in which an item is missing. -/
def StoredBut (hole size : Nat) (items : Nat → α) (e : List (Option α)) : Prop :=
  size ≤ e.length ∧ ∀ i < size, i ≠ hole → slot e i = some (items i)

/-- What holds of all slots holds of all but one. -/
theorem Stored.but (stored : Stored size items e) (hole : Nat) : StoredBut hole size items e :=
  ⟨stored.1, fun i inside _ => stored.2 i inside⟩

/-- Reading an occupied slot inside the array succeeds. -/
theorem elementAt_exact {i : Nat} {element : α} (inside : i < e.length)
    (held : slot e i = some element) : elementAt e i = .ok element := by
  rw [elementAt, if_pos inside, held]

/-- Reading one of the first slots returns its item. -/
theorem Stored.elementAt (stored : Stored size items e) {i : Nat} (inside : i < size) :
    elementAt e i = .ok (items i) :=
  elementAt_exact (Nat.lt_of_lt_of_le inside stored.1) (stored.2 i inside)

/-- Writing the missing item completes the array. -/
theorem StoredBut.write {hole : Nat} (stored : StoredBut hole size items e)
    (inside : hole < size) :
    ∃ last, setElement e hole (items hole) = .ok last ∧ last.length = e.length ∧
      Stored size items last := by
  have available : hole < e.length := Nat.lt_of_lt_of_le inside stored.1
  refine ⟨e.set hole (some (items hole)), by rw [setElement, if_pos available],
    List.length_set .., by rw [List.length_set]; exact stored.1, ?_⟩
  intro i within
  rw [slot_set _ _ _ _ available]
  by_cases same : i = hole
  · rw [if_pos same, same]
  · rw [if_neg same, stored.2 i within same]

/-- Writing another item over it moves the hole: to where that item was. -/
theorem StoredBut.move {hole : Nat} (stored : StoredBut hole size items e)
    (inside : hole < size) (source : Nat) :
    ∃ last, setElement e hole (items source) = .ok last ∧ last.length = e.length ∧
      StoredBut source size (swapped items hole source) last := by
  have available : hole < e.length := Nat.lt_of_lt_of_le inside stored.1
  refine ⟨e.set hole (some (items source)), by rw [setElement, if_pos available],
    List.length_set .., by rw [List.length_set]; exact stored.1, ?_⟩
  intro i within away
  rw [slot_set _ _ _ _ available]
  by_cases same : i = hole
  · rw [if_pos same, same, swapped_left]
  · rw [if_neg same, swapped_other items same away, stored.2 i within same]

/-- What a loop leaves: an ordered array of the same items. -/
structure Heaped (key : α → κ) (size : Nat) (items : Nat → α) (e last : List (Option α)) :
    Prop where
  length : last.length = e.length
  heap : ∃ sorted, Stored size sorted last ∧ InOrder heapTree key size sorted ∧
    bag size sorted = bag size items

/-- The loop of `minq_push`: induction on the path of the hole up to the root. -/
theorem heapifyUp_exact (compares : Compares cmp key) {i : Nat} (inside : i < size)
    (stored : StoredBut i size items e) (rising : Rising heapTree key size items i) :
    ∃ last, heapifyUp cmp (items i) i e = .ok last ∧ Heaped key size items e last := by
  induction i using Nat.strongRecOn generalizing items e with
  | ind i inductionHypothesis =>
    obtain ⟨last, writes, length, complete⟩ := stored.write inside
    by_cases root : i = 0
    · subst root
      refine ⟨last, ?_, length, items, complete, rising.ordered (by simp), rfl⟩
      rw [heapifyUp, dif_pos rfl, writes]
    · have positive : 0 < i := Nat.pos_of_ne_zero root
      have above : parent i < i := parent_lt positive
      have reads : elementAt e (parent i) = .ok (items (parent i)) :=
        elementAt_exact (by have := stored.1; omega) (stored.2 _ (by omega) (by omega))
      by_cases smaller : key (items i) < key (items (parent i))
      · obtain ⟨moved, moves, same, storedAbove⟩ := stored.move inside (parent i)
        obtain ⟨last, rises, heaped⟩ := inductionHypothesis (parent i) above (by omega)
          storedAbove (rising.step positive inside smaller)
        rw [swapped_right] at rises
        refine ⟨last, ?_, heaped.length.trans same, ?_⟩
        · rw [heapifyUp, dif_neg root]
          simp only [reads, bind, Except.bind, (compares _ _).mpr smaller, if_true, moves, rises]
        · obtain ⟨sorted, holds, ordered, together⟩ := heaped.heap
          exact ⟨sorted, holds, ordered,
            together.trans (bag_swapped items inside (Nat.lt_trans above inside))⟩
      · have stops : cmp (items (parent i)) (items i) = false := by
          rw [Bool.eq_false_iff, ne_eq, compares]
          exact smaller
        refine ⟨last, ?_, length, items, complete, rising.ordered fun _ => not_lt.mp smaller, rfl⟩
        rw [heapifyUp, dif_neg root]
        simp only [reads, bind, Except.bind, stops, Bool.false_eq_true, if_false, writes]

/-- The children of an index. -/
theorem parent_cases {i child : Nat} (below : parent child = i) :
    child = 2 * i ∨ child = 2 * i + 1 := by
  rw [parent_eq] at below
  omega

/-- What `has_child` chooses: a least child, or 0 if there is none to swap with. -/
theorem hasChild_exact (compares : Compares cmp key) (stored : Stored size items e) (i : Nat) :
    ∃ child, hasChild cmp size e i = .ok child ∧
      ((child = 0 ∧ ∀ below, 0 < below → below < size → parent below = i →
          key (items i) ≤ key (items below)) ∨
        (0 < child ∧ child < size ∧ parent child = i ∧
          ∀ below, 0 < below → below < size → parent below = i →
            key (items child) ≤ key (items below))) := by
  have leftParent : parent (2 * i) = i := by rw [parent_eq]; omega
  have rightParent : parent (2 * i + 1) = i := by rw [parent_eq]; omega
  by_cases childless : size ≤ 2 * i
  · refine ⟨0, by simp only [hasChild, lchild_eq, childless, if_true, pure, Except.pure],
      .inl ⟨rfl, ?_⟩⟩
    intro below _ inside hangs
    rcases parent_cases hangs with rfl | rfl <;> omega
  · -- the left child of the root is the root itself
    have leftChosen (isLeast : ∀ below, 0 < below → below < size → parent below = i →
        key (items (2 * i)) ≤ key (items below)) :
        (2 * i = 0 ∧ ∀ below, 0 < below → below < size → parent below = i →
            key (items i) ≤ key (items below)) ∨
          (0 < 2 * i ∧ 2 * i < size ∧ parent (2 * i) = i ∧
            ∀ below, 0 < below → below < size → parent below = i →
              key (items (2 * i)) ≤ key (items below)) := by
      rcases Nat.eq_zero_or_pos i with rfl | positive
      · exact .inl ⟨rfl, isLeast⟩
      · exact .inr ⟨by omega, by omega, leftParent, isLeast⟩
    by_cases two : 2 * i + 1 < size
    · have readsLeft := stored.elementAt (show 2 * i < size by omega)
      have readsRight := stored.elementAt two
      by_cases smaller : key (items (2 * i + 1)) < key (items (2 * i))
      · refine ⟨2 * i + 1, ?_, .inr ⟨by omega, two, rightParent, ?_⟩⟩
        · simp only [hasChild, lchild_eq, childless, if_false, two, if_true, readsLeft, readsRight,
            bind, Except.bind, pure, Except.pure, (compares _ _).mpr smaller]
        · intro below _ _ hangs
          rcases parent_cases hangs with rfl | rfl
          · exact le_of_lt smaller
          · exact le_refl _
      · have stays : cmp (items (2 * i)) (items (2 * i + 1)) = false := by
          rw [Bool.eq_false_iff, ne_eq, compares]
          exact smaller
        refine ⟨2 * i, ?_, leftChosen ?_⟩
        · simp only [hasChild, lchild_eq, childless, if_false, two, if_true, readsLeft, readsRight,
            bind, Except.bind, pure, Except.pure, stays, Bool.false_eq_true]
        · intro below _ _ hangs
          rcases parent_cases hangs with rfl | rfl
          · exact le_refl _
          · exact not_lt.mp smaller
    · refine ⟨2 * i, ?_, leftChosen ?_⟩
      · simp only [hasChild, lchild_eq, childless, two, if_false, pure, Except.pure]
      · intro below _ inside hangs
        rcases parent_cases hangs with rfl | rfl
        · exact le_refl _
        · omega

/-- Two writes exchange two items. -/
theorem Stored.swap (stored : Stored size items e) {one other : Nat} (oneInside : one < size)
    (otherInside : other < size) :
    ∃ half last, setElement e one (items other) = .ok half ∧
      setElement half other (items one) = .ok last ∧ last.length = e.length ∧
      Stored size (swapped items one other) last := by
  obtain ⟨half, moves, same, storedHalf⟩ := (stored.but one).move oneInside other
  obtain ⟨last, writes, length, complete⟩ := storedHalf.write otherInside
  rw [swapped_right] at writes
  exact ⟨half, last, moves, writes, length.trans same, complete⟩

/-- The loop of `minq_pop`: induction on the number of indices below the current one. -/
theorem heapifyDown_exact (compares : Compares cmp key) {current : Nat} (inside : current < size)
    (stored : Stored size items e) (sinking : Sinking heapTree key size items current) :
    ∃ last, heapifyDown cmp size current e = .ok last ∧ Heaped key size items e last := by
  induction distance : size - current using Nat.strongRecOn generalizing current items e with
  | ind distance inductionHypothesis =>
    obtain ⟨child, chooses, ⟨rfl, stops⟩ | ⟨positive, within, hangs, isLeast⟩⟩ :=
      hasChild_exact compares stored current
    · refine ⟨e, ?_, rfl, items, stored, sinking.ordered stops, rfl⟩
      rw [heapifyDown]
      split
      · next fault failed => simp [chooses] at failed
      · next chosen => rw [dif_pos (Except.ok.inj (chosen.symm.trans chooses))]
    · have below : current < child := hangs ▸ parent_lt positive
      have readsUpper := stored.elementAt inside
      have readsLower := stored.elementAt within
      by_cases smaller : key (items child) < key (items current)
      · obtain ⟨half, swapped, writes, writesBack, same, storedSwapped⟩ :=
          stored.swap inside within
        obtain ⟨last, sinks, heaped⟩ := inductionHypothesis (size - child) (by omega) within
          storedSwapped (sinking.step positive within hangs isLeast smaller) rfl
        refine ⟨last, ?_, heaped.length.trans same, ?_⟩
        · rw [heapifyDown]
          split
          · next fault failed => simp [chooses] at failed
          · next chosen =>
            obtain rfl := Except.ok.inj (chosen.symm.trans chooses)
            rw [dif_neg (by omega)]
            simp only [readsUpper, readsLower, bind, Except.bind, (compares _ _).mpr smaller,
              if_true, writes, writesBack, sinks]
        · obtain ⟨sorted, holds, ordered, together⟩ := heaped.heap
          exact ⟨sorted, holds, ordered, together.trans (bag_swapped items inside within)⟩
      · have stays : cmp (items current) (items child) = false := by
          rw [Bool.eq_false_iff, ne_eq, compares]
          exact smaller
        have stops (other : Nat) (otherPositive : 0 < other) (otherInside : other < size)
            (otherHangs : parent other = current) : key (items current) ≤ key (items other) :=
          le_trans (not_lt.mp smaller) (isLeast other otherPositive otherInside otherHangs)
        refine ⟨e, ?_, rfl, items, stored, sinking.ordered stops, rfl⟩
        rw [heapifyDown]
        split
        · next fault failed => simp [chooses] at failed
        · next chosen =>
          obtain rfl := Except.ok.inj (chosen.symm.trans chooses)
          rw [dif_neg (by omega)]
          simp only [readsUpper, readsLower, bind, Except.bind, stays, Bool.false_eq_true, if_false,
            pure, Except.pure]

end Loops

end SelectiveRepeat
