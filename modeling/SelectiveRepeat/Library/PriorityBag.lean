import Mathlib.Data.Multiset.Filter
import Mathlib.Order.Basic

/-!
# Priority bags

What a priority queue is for: a bag from which a least item is taken, where items are
compared by a key in a linear order. Which of several least items is taken is left
open. Items that are taken one after the other come out in order and are at most what
is left; if one goes on for exactly as long as the key is in a lower set, what comes
out is the part of the bag in that set, and what is left is the rest.
-/

namespace PriorityBag

universe u v

variable {α : Type u} {κ : Type v} [LinearOrder κ] {key : α → κ}

/-- The item is in the bag, `rest` is the bag without it, and none is smaller. -/
structure Least (key : α → κ) (bag : Multiset α) (item : α) (rest : Multiset α) : Prop where
  split : bag = item ::ₘ rest
  least : ∀ other ∈ bag, key item ≤ key other

/-- Least items taken one after the other, and what they leave. -/
inductive Takes (key : α → κ) : Multiset α → List α → Multiset α → Prop
  | done (bag : Multiset α) : Takes key bag [] bag
  | take {bag rest last : Multiset α} {item : α} {taken : List α}
      (least : Least key bag item rest) (more : Takes key rest taken last) :
      Takes key bag (item :: taken) last

/-- Nothing is lost and nothing is made. -/
theorem Takes.split {bag last : Multiset α} {taken : List α} (takes : Takes key bag taken last) :
    bag = ↑taken + last := by
  induction takes with
  | done bag => simp
  | take least _ inductionHypothesis =>
    rw [least.split, inductionHypothesis, ← Multiset.cons_coe, Multiset.cons_add]

/-- What is taken first is at most what comes later or stays. -/
theorem Takes.head_le {bag rest last : Multiset α} {item : α} {taken : List α}
    (least : Least key bag item rest) (more : Takes key rest taken last) :
    (∀ later ∈ taken, key item ≤ key later) ∧ ∀ left ∈ last, key item ≤ key left := by
  have parts := more.split
  constructor
  · intro later listed
    apply least.least
    rw [least.split, parts]
    simp [listed]
  · intro left listed
    apply least.least
    rw [least.split, parts]
    simp [listed]

/-- What is taken comes out in order. -/
theorem Takes.sorted {bag last : Multiset α} {taken : List α} (takes : Takes key bag taken last) :
    taken.Pairwise fun one other => key one ≤ key other := by
  induction takes with
  | done bag => exact List.Pairwise.nil
  | take least more inductionHypothesis =>
    exact List.Pairwise.cons (Takes.head_le least more).1 inductionHypothesis

/-- What is taken is at most what is left. -/
theorem Takes.le_left {bag last : Multiset α} {taken : List α} (takes : Takes key bag taken last) :
    ∀ early ∈ taken, ∀ left ∈ last, key early ≤ key left := by
  induction takes with
  | done bag => simp
  | take least more inductionHypothesis =>
    intro early listed left stays
    rcases List.mem_cons.mp listed with rfl | later
    · exact (Takes.head_le least more).2 left stays
    · exact inductionHypothesis early later left stays

/-- If everything is taken that satisfies a test and nothing else, then the bag is
parted by the test. -/
theorem Takes.parted {bag last : Multiset α} {taken : List α} (takes : Takes key bag taken last)
    (test : α → Prop) [DecidablePred test] (passes : ∀ early ∈ taken, test early)
    (fails : ∀ left ∈ last, ¬ test left) :
    ↑taken = bag.filter test ∧ last = bag.filter fun item => ¬ test item := by
  rw [takes.split]
  have front : (↑taken : Multiset α).filter test = ↑taken := Multiset.filter_eq_self.mpr passes
  have back : last.filter test = 0 := Multiset.filter_eq_nil.mpr fails
  have noFront : (↑taken : Multiset α).filter (fun item => ¬ test item) = 0 :=
    Multiset.filter_eq_nil.mpr fun item listed => not_not_intro (passes item listed)
  have whole : last.filter (fun item => ¬ test item) = last := Multiset.filter_eq_self.mpr fails
  rw [Multiset.filter_add, Multiset.filter_add, front, back, noFront, whole, Multiset.add_zero,
    Multiset.zero_add]
  exact ⟨rfl, rfl⟩

/-! ## A queue that serves requests -/

/-- A request: add an item, show a least one, drop one, or show and drop the same. Without
room an addition may fail. -/
inductive Request (α : Type u) where
  | add (room : Bool) (item : α)
  | peek
  | pop
  | take

/-- What a request replies. -/
inductive Reply (α : Type u) where
  | added
  | refused
  | showed (item : Option α)
  | popped
  | took (item : Option α)

/-- The replies a request may have, and the bag it leaves. -/
inductive Serves (key : α → κ) : Multiset α → Request α → Reply α → Multiset α → Prop
  | added (bag : Multiset α) (room : Bool) (item : α) :
      Serves key bag (.add room item) .added (item ::ₘ bag)
  | refused (bag : Multiset α) (item : α) : Serves key bag (.add false item) .refused bag
  | showed {bag rest : Multiset α} {item : α} (least : Least key bag item rest) :
      Serves key bag .peek (.showed (some item)) bag
  | bare : Serves key 0 .peek (.showed none) 0
  | popped {bag rest : Multiset α} {item : α} (least : Least key bag item rest) :
      Serves key bag .pop .popped rest
  | idle : Serves key 0 .pop .popped 0
  | took {bag rest : Multiset α} {item : α} (least : Least key bag item rest) :
      Serves key bag .take (.took (some item)) rest
  | empty : Serves key 0 .take (.took none) 0

/-- Requests served one after the other. -/
inductive ServesAll (key : α → κ) :
    Multiset α → List (Request α) → List (Reply α) → Multiset α → Prop
  | done (bag : Multiset α) : ServesAll key bag [] [] bag
  | serve {bag next last : Multiset α} {request : Request α} {requests : List (Request α)}
      {reply : Reply α} {replies : List (Reply α)} (serves : Serves key bag request reply next)
      (more : ServesAll key next requests replies last) :
      ServesAll key bag (request :: requests) (reply :: replies) last

end PriorityBag
