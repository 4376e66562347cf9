import SelectiveRepeat.Library.PriorityBag
import SelectiveRepeat.LinkSim.MinQueue

/-!
# The heap as a priority queue

`minq_push` adds an element to the bag of the queue, unless its array is full and cannot
grow; `minq_pop` removes the element `minq_peek` returns, and that is a least one. Both
keep the heap, so that any sequence of calls from `minq_new` on does what a priority
bag does. No call reads a slot that was never written or one outside the array.
-/

namespace SelectiveRepeat

open PackedSlots HeapOrder PriorityBag

variable {α κ : Type} [LinearOrder κ] {cmp : α → α → Bool} {key : α → κ} {q : MinQueue α}
  {content : Multiset α}

/-- The queue holds the elements of a bag, as a heap in an array of `alloc` slots. -/
structure QueueHolds (key : α → κ) (q : MinQueue α) (content : Multiset α) : Prop where
  allocated : q.e.length = q.alloc
  heap : ∃ items, Stored q.size items q.e ∧ InOrder heapTree key q.size items ∧
    bag q.size items = content

/-- The size is the number of elements held. -/
theorem QueueHolds.size (holds : QueueHolds key q content) : q.size = content.card := by
  obtain ⟨items, _, _, rfl⟩ := holds.heap
  exact (bag_card q.size items).symm

/-- The elements fit into the array. -/
theorem QueueHolds.fits (holds : QueueHolds key q content) : q.size ≤ q.alloc := by
  obtain ⟨items, stored, _⟩ := holds.heap
  exact holds.allocated ▸ stored.1

/-- A new queue holds nothing. -/
theorem minqNew_holds [Inhabited α] (key : α → κ) : QueueHolds key (minqNew α) 0 where
  allocated := List.length_replicate ..
  heap := ⟨fun _ => default, ⟨Nat.zero_le _, by simp [minqNew]⟩, by simp [InOrder, minqNew], rfl⟩

/-- The elements of a queue, in the order of its array. -/
def queued (q : MinQueue α) : List α := (q.e.take q.size).reduceOption

/-- The elements in the occupied slots, in whatever order, are the content. -/
theorem queued_content (holds : QueueHolds key q content) : ↑(queued q) = content := by
  obtain ⟨items, stored, _, rfl⟩ := holds.heap
  have front : q.e.take q.size = ((List.range q.size).map items).map some := by
    apply List.ext_getElem
    · simp only [List.length_take, List.length_map, List.length_range]
      exact Nat.min_eq_left stored.1
    · intro index inside within
      have small : index < q.size := by simpa using within
      have here := stored.2 index small
      have available : index < q.e.length := Nat.lt_of_lt_of_le small stored.1
      simpa [slot, available] using here
  rw [queued, front, bag, Multiset.range, Multiset.map_coe]
  simp [List.reduceOption]

/-! ## minq_push -/

/-- A full queue that cannot grow is left alone. -/
theorem minqPush_refused (cmp : α → α → Bool) (v : α) (full : q.size = q.alloc) :
    minqPush cmp false q v = .ok (-1, q) := by
  simp [minqPush, full, pure, Except.pure]

/-- An element behind the others may only have to rise. -/
theorem rising_last {size : Nat} {items : Nat → α} (ordered : InOrder heapTree key size items)
    (v : α) : Rising heapTree key (size + 1) (Function.update items size v) size := by
  constructor
  · intro child positive inside notLast
    have above : heapTree.parent child < child := parent_lt positive
    rw [Function.update_of_ne notLast, Function.update_of_ne (by omega)]
    exact ordered child positive (by omega)
  · intro _ child positive inside below
    have above : heapTree.parent child < child := parent_lt positive
    omega

/-- With a free slot, or memory for more, the element is added. -/
theorem minqPush_added (compares : Compares cmp key) (holds : QueueHolds key q content) (v : α)
    {reallocs : Bool} (room : q.size = q.alloc → reallocs = true) :
    ∃ next, minqPush cmp reallocs q v = .ok (0, next) ∧ QueueHolds key next (v ::ₘ content) := by
  obtain ⟨items, stored, ordered, rfl⟩ := holds.heap
  have fits := holds.fits
  have allocated := holds.allocated
  have grows : ¬ (q.size = q.alloc ∧ reallocs = false) := by
    rintro ⟨full, fails⟩
    rw [room full] at fails
    cases fails
  -- the array before the insertion, grown or not
  obtain ⟨ready, isReady, size, allocatedReady, available, keeps⟩ : ∃ ready : MinQueue α,
      (if q.size = q.alloc then { q with
        e := q.e ++ List.replicate slotsPerMalloc none
        alloc := q.size + slotsPerMalloc } else q) = ready ∧ ready.size = q.size ∧
      ready.e.length = ready.alloc ∧ q.size < ready.e.length ∧
      ∀ i < q.size, slot ready.e i = slot q.e i := by
    by_cases full : q.size = q.alloc
    · refine ⟨_, if_pos full, rfl, ?_, ?_, ?_⟩
      · simp only [List.length_append, List.length_replicate]
        omega
      · simp only [List.length_append, List.length_replicate, slotsPerMalloc]
        omega
      · intro i inside
        rw [slot_append, if_pos (by omega)]
    · exact ⟨q, if_neg full, rfl, allocated, by omega, fun _ _ => rfl⟩
  have storedBut : StoredBut q.size (q.size + 1) (Function.update items q.size v) ready.e := by
    refine ⟨available, fun i inside away => ?_⟩
    rw [Function.update_of_ne away, keeps i (by omega)]
    exact stored.2 i (by omega)
  obtain ⟨last, rises, heaped⟩ :=
    heapifyUp_exact compares (Nat.lt_succ_self _) storedBut (rising_last ordered v)
  rw [Function.update_self] at rises
  obtain ⟨sorted, storedLast, orderedLast, together⟩ := heaped.heap
  refine ⟨{ ready with size := ready.size + 1, e := last }, ?_, heaped.length.trans allocatedReady,
    sorted, ?_⟩
  · simp only [minqPush, if_neg grows, isReady, size, rises, bind, Except.bind, pure, Except.pure]
  · simp only [size]
    refine ⟨storedLast, orderedLast, together.trans ?_⟩
    rw [bag_succ, Function.update_self]
    exact congrArg _ (bag_congr fun index inside => Function.update_of_ne (Nat.ne_of_lt inside) _ _)

/-! ## minq_pop -/

/-- Nothing is sifted in an empty heap. -/
theorem heapifyDown_empty (cmp : α → α → Bool) (e : List (Option α)) :
    heapifyDown cmp 0 0 e = .ok e := by
  rw [heapifyDown]
  have chooses : hasChild cmp 0 e 0 = .ok 0 := by simp [hasChild, pure, Except.pure]
  split
  · next fault failed => simp [chooses] at failed
  · next chosen => rw [dif_pos (Except.ok.inj (chosen.symm.trans chooses))]

/-- An element put in place of the root may only have to sink. -/
theorem sinking_root {size : Nat} {items : Nat → α}
    (ordered : InOrder heapTree key (size + 1) items) :
    Sinking heapTree key size (swapped items 0 size) 0 := by
  constructor
  · intro child positive inside notBelow
    have above : heapTree.parent child < child := parent_lt positive
    rw [swapped_other items notBelow (by omega), swapped_other items (by omega) (by omega)]
    exact ordered child positive (by omega)
  · intro impossible
    exact absurd impossible (Nat.lt_irrefl 0)

/-- `minq_peek` and `minq_pop` find and remove a least element, if there is one. -/
theorem minq_take (compares : Compares cmp key) (holds : QueueHolds key q content) :
    (content = 0 ∧ minqPeek q = .ok none ∧ minqPop cmp q = .ok q) ∨
      ∃ item rest next, Least key content item rest ∧ minqPeek q = .ok (some item) ∧
        minqPop cmp q = .ok next ∧ next.size + 1 = q.size ∧ QueueHolds key next rest := by
  obtain ⟨items, stored, ordered, rfl⟩ := holds.heap
  cases size : q.size with
  | zero =>
    refine .inl ⟨rfl, ?_, ?_⟩
    · simp [minqPeek, size, pure, Except.pure]
    · simp [minqPop, size, pure, Except.pure]
  | succ count =>
    right
    rw [size] at stored ordered
    have readsRoot := stored.elementAt (Nat.succ_pos count)
    have readsLast := stored.elementAt (Nat.lt_succ_self count)
    -- the last element overwrites the root, and its own slot is forgotten
    obtain ⟨moved, moves, length, storedBut⟩ :=
      (stored.but 0).move (Nat.succ_pos count) count
    have storedMoved : Stored count (swapped items 0 count) moved :=
      ⟨by have := storedBut.1; omega,
        fun i inside => storedBut.2 i (by omega) (Nat.ne_of_lt inside)⟩
    obtain ⟨last, sinks, heaped⟩ : ∃ last, heapifyDown cmp count 0 moved = .ok last ∧
        Heaped key count (swapped items 0 count) moved last := by
      rcases Nat.eq_zero_or_pos count with rfl | positive
      · exact ⟨moved, heapifyDown_empty cmp moved, rfl, _, storedMoved, by simp [InOrder], rfl⟩
      · exact heapifyDown_exact compares positive storedMoved (sinking_root ordered)
    obtain ⟨sorted, storedLast, orderedLast, together⟩ := heaped.heap
    refine ⟨items 0, bag count sorted, { q with size := count, e := last }, ⟨?_, ?_⟩, ?_, ?_, rfl,
      heaped.length.trans (length.trans holds.allocated), sorted, storedLast, orderedLast, rfl⟩
    · rw [together, ← bag_swapped items (Nat.succ_pos count) (Nat.lt_succ_self count), bag_succ,
        swapped_right]
    · exact ordered.least_of_bag
    · simp [minqPeek, size, readsRoot, bind, Except.bind, pure, Except.pure]
    · simp [minqPop, size, readsLast, moves, sinks, bind, Except.bind, pure, Except.pure]

/-! ## Sequences of calls -/

/-- One call, or `minq_peek` with the `minq_pop` that follows it in `link_sim`. -/
def serveRequest (cmp : α → α → Bool) (q : MinQueue α) :
    Request α → Run (Reply α × MinQueue α)
  | .add reallocs v => do
    let (status, q) ← minqPush cmp reallocs q v
    return (if status = 0 then .added else .refused, q)
  | .peek => do
    let element ← minqPeek q
    return (.showed element, q)
  | .pop => do
    let q ← minqPop cmp q
    return (.popped, q)
  | .take => do
    let element ← minqPeek q
    let q ← minqPop cmp q
    return (.took element, q)

/-- Requests, served one after the other. -/
def serveRequests (cmp : α → α → Bool) :
    List (Request α) → MinQueue α → Run (List (Reply α) × MinQueue α)
  | [], q => .ok ([], q)
  | request :: rest, q => do
    let (reply, q) ← serveRequest cmp q request
    let (replies, q) ← serveRequests cmp rest q
    return (reply :: replies, q)

/-- One call does what a priority bag may do. -/
theorem serveRequest_serves (compares : Compares cmp key) (holds : QueueHolds key q content)
    (request : Request α) :
    ∃ reply next after, serveRequest cmp q request = .ok (reply, next) ∧
      Serves key content request reply after ∧ QueueHolds key next after := by
  cases request with
  | add reallocs v =>
    by_cases refuses : q.size = q.alloc ∧ reallocs = false
    · obtain ⟨full, rfl⟩ := refuses
      refine ⟨.refused, q, content, ?_, .refused content v, holds⟩
      simp [serveRequest, minqPush_refused cmp v full, bind, Except.bind, pure, Except.pure]
    · have room (full : q.size = q.alloc) : reallocs = true := by
        cases reallocs with
        | false => exact absurd ⟨full, rfl⟩ refuses
        | true => rfl
      obtain ⟨next, pushes, holdsNext⟩ := minqPush_added compares holds v room
      refine ⟨.added, next, v ::ₘ content, ?_, .added content reallocs v, holdsNext⟩
      simp [serveRequest, pushes, bind, Except.bind, pure, Except.pure]
  | peek =>
    rcases minq_take compares holds with ⟨rfl, peeks, _⟩ | ⟨item, rest, _, least, peeks, _⟩
    · refine ⟨.showed none, q, 0, ?_, .bare, holds⟩
      simp [serveRequest, peeks, bind, Except.bind, pure, Except.pure]
    · refine ⟨.showed (some item), q, content, ?_, .showed least, holds⟩
      simp [serveRequest, peeks, bind, Except.bind, pure, Except.pure]
  | pop =>
    rcases minq_take compares holds with ⟨rfl, _, pops⟩ |
      ⟨item, rest, next, least, _, pops, _, holdsNext⟩
    · refine ⟨.popped, q, 0, ?_, .idle, holds⟩
      simp [serveRequest, pops, bind, Except.bind, pure, Except.pure]
    · refine ⟨.popped, next, rest, ?_, .popped least, holdsNext⟩
      simp [serveRequest, pops, bind, Except.bind, pure, Except.pure]
  | take =>
    rcases minq_take compares holds with ⟨rfl, peeks, pops⟩ |
      ⟨item, rest, next, least, peeks, pops, _, holdsNext⟩
    · refine ⟨.took none, q, 0, ?_, .empty, holds⟩
      simp [serveRequest, peeks, pops, bind, Except.bind, pure, Except.pure]
    · refine ⟨.took (some item), next, rest, ?_, .took least, holdsNext⟩
      simp [serveRequest, peeks, pops, bind, Except.bind, pure, Except.pure]

/-- Any sequence of requests is served as the bag prescribes, without an access outside the array.
Induction on the requests, one `serveRequest_serves` each. -/
theorem serveRequests_serves (compares : Compares cmp key) (requests : List (Request α))
    (holds : QueueHolds key q content) :
    ∃ replies next after, serveRequests cmp requests q = .ok (replies, next) ∧
      ServesAll key content requests replies after ∧ QueueHolds key next after := by
  induction requests generalizing q content with
  | nil => exact ⟨[], q, content, rfl, .done content, holds⟩
  | cons request rest inductionHypothesis =>
    obtain ⟨reply, next, between, serves, allowed, holdsNext⟩ :=
      serveRequest_serves compares holds request
    obtain ⟨replies, last, after, servesRest, allowedRest, holdsLast⟩ :=
      inductionHypothesis holdsNext
    refine ⟨reply :: replies, last, after, ?_, .serve allowed allowedRest, holdsLast⟩
    simp only [serveRequests, serves, servesRest, bind, Except.bind, pure, Except.pure]

/-- From `minq_new` on, every sequence of calls ends without a fault and replies as a
priority bag does; the queue then has as many elements as the bag, in an array that has
room for them.

Each call keeps the array a heap of the bag's elements, and in a heap the root is one of
the least. The run follows from `serveRequests_serves`. -/
theorem minq_refines_bag [Inhabited α] (cmp : α → α → Bool) (key : α → κ)
    (compares : Compares cmp key) (requests : List (Request α)) :
    ∃ replies last content, serveRequests cmp requests (minqNew α) = .ok (replies, last) ∧
      ServesAll key 0 requests replies content ∧ last.size = content.card ∧
      last.size ≤ last.alloc ∧ last.e.length = last.alloc := by
  obtain ⟨replies, last, content, serves, allowed, holds⟩ :=
    serveRequests_serves compares requests (minqNew_holds key)
  exact ⟨replies, last, content, serves, allowed, holds.size, holds.fits, holds.allocated⟩

/-- Numbers compared as they are: they are added, looked at and taken off again. -/
theorem minq_refines_bag_numbers : ∃ replies last content,
    serveRequests (fun one other : Nat => decide (other < one))
      [.add true 3, .add true 1, .peek, .add false 2, .take, .pop, .peek] (minqNew Nat) =
        .ok (replies, last) ∧
      ServesAll id 0 [.add true 3, .add true 1, .peek, .add false 2, .take, .pop, .peek] replies content ∧
      last.size = content.card ∧ last.size ≤ last.alloc ∧ last.e.length = last.alloc :=
  minq_refines_bag _ id (by intro one other; simp) _

end SelectiveRepeat
