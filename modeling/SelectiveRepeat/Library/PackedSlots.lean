import Mathlib.Data.List.ReduceOption

/-!
# Arrays of slots with the occupied ones first

A C array of pointers in which the non-null pointers come first is a list with
empty slots behind it. The lemmas read and write such an array at an index and
describe two loops by their effect on the slots: the one that carries the tail
one slot to the right, and the one that moves it down to the front.
-/

namespace PackedSlots

universe u
variable {α : Type u}

/-- The pointer in a slot; there is none beyond the array. -/
def slot (slots : List (Option α)) (index : Nat) : Option α := (slots[index]?).join

/-- The slots of a joined array are those of its front, then those of its back. -/
theorem slot_append (front back : List (Option α)) (index : Nat) :
    slot (front ++ back) index =
      if index < front.length then slot front index else slot back (index - front.length) := by
  by_cases early : index < front.length
  · simp [slot, early, List.getElem?_append_left]
  · rw [slot, List.getElem?_append_right (by simpa using early), if_neg early]
    rfl

/-- An array full of items holds the items of the list, and nothing behind them. -/
theorem slot_items (items : List α) (index : Nat) :
    slot (items.map some) index = items[index]? := by
  rw [slot, List.getElem?_map]
  cases items[index]? with
  | none => rfl
  | some item => rfl

/-- In front of the other slots stand the items, in their order. -/
theorem slot_items_append (items : List α) (slots : List (Option α)) (index : Nat) :
    slot (items.map some ++ slots) index =
      if index < items.length then items[index]? else slot slots (index - items.length) := by
  rw [slot_append, slot_items, List.length_map]

/-- Every slot of an empty array is empty. -/
theorem slot_empty (count index : Nat) :
    slot (List.replicate count (none : Option α)) index = none := by
  rw [slot, List.getElem?_replicate]
  split
  · rfl
  · rfl

/-- An array whose first `count` slots are occupied starts with that many items. -/
theorem occupied_front (slots : List (Option α)) (count : Nat) (fits : count ≤ slots.length)
    (occupied : ∀ index < count, slot slots index ≠ none) :
    ∃ items : List α, items.length = count ∧ slots = items.map some ++ slots.drop count := by
  induction count generalizing slots with
  | zero => exact ⟨[], rfl, rfl⟩
  | succ count inductionHypothesis =>
    cases slots with
    | nil => simp at fits
    | cons entry rest =>
      obtain ⟨item, found⟩ := Option.ne_none_iff_exists'.mp (occupied 0 (Nat.succ_pos count))
      obtain rfl : entry = some item := found
      obtain ⟨items, size, split⟩ := inductionHypothesis rest (Nat.le_of_succ_le_succ fits)
        (fun index inside => occupied (index + 1) (Nat.succ_lt_succ inside))
      refine ⟨item :: items, by rw [List.length_cons, size], ?_⟩
      rw [List.map_cons, List.cons_append, List.drop_succ_cons, ← split]

/-- The items in order, then empty slots up to the capacity. -/
def packed (capacity : Nat) (items : List α) : List (Option α) :=
  items.map some ++ List.replicate (capacity - items.length) none

/-- A packed array without items is empty throughout. -/
theorem packed_nil (capacity : Nat) :
    packed capacity ([] : List α) = List.replicate capacity none := by
  simp [packed]

/-- A packed array whose items fit has the capacity for its length. -/
theorem packed_length (capacity : Nat) (items : List α) (fits : items.length ≤ capacity) :
    (packed capacity items).length = capacity := by
  simp only [packed, List.length_append, List.length_map, List.length_replicate]
  omega

/-- A packed array is read as the list of its items, also beyond its capacity. -/
theorem slot_packed (capacity : Nat) (items : List α) (index : Nat) :
    slot (packed capacity items) index = items[index]? := by
  rw [packed, slot_items_append, slot_empty]
  by_cases inside : index < items.length
  · rw [if_pos inside]
  · rw [if_neg inside, List.getElem?_eq_none (by omega)]

/-- The slot behind the front is the entry that stands there. -/
theorem slot_split (front : List (Option α)) (entry : Option α) (back : List (Option α)) :
    slot (front ++ entry :: back) front.length = entry := by
  simp [slot]

/-- A write inside the array changes the written slot and no other. -/
theorem slot_set (slots : List (Option α)) (index tested : Nat) (entry : Option α)
    (inside : index < slots.length) :
    slot (slots.set index entry) tested = if tested = index then entry else slot slots tested := by
  by_cases same : tested = index
  · simp [slot, same, inside]
  · simp [slot, same, List.getElem?_set_ne (Ne.symm same)]

/-- A write to the slot behind the front replaces the entry that stands there. -/
theorem set_split (front : List (Option α)) (entry other : Option α) (back : List (Option α)) :
    (front ++ entry :: back).set front.length other = front ++ other :: back := by
  rw [List.set_append_right _ _ (Nat.le_refl _), Nat.sub_self, List.set_cons_zero]

/-- A write to the slot behind the items replaces the entry that stands there. -/
theorem set_items (items : List α) (entry other : Option α) (back : List (Option α)) :
    (items.map some ++ entry :: back).set items.length other =
      items.map some ++ other :: back := by
  have written := set_split (items.map some) entry other back
  rwa [List.length_map] at written

/-- Arrays of one length are equal when their slots are. -/
theorem slots_ext {slots others : List (Option α)} (size : slots.length = others.length)
    (same : ∀ index < slots.length, slot slots index = slot others index) : slots = others := by
  apply List.ext_getElem size
  intro index inside otherInside
  simpa [slot, inside, otherInside] using same index inside

/-- Empty slots in front shift the other slots by their number. -/
theorem slot_replicate_append (count : Nat) (slots : List (Option α)) (index : Nat) :
    slot (List.replicate count none ++ slots) index =
      if index < count then none else slot slots (index - count) := by
  rw [slot_append, slot_empty, List.length_replicate]

/-- The number of empty slots. -/
theorem packed_free (capacity : Nat) (items : List α) :
    (packed capacity items).countP Option.isNone = capacity - items.length := by
  have occupied : (items.map some).countP Option.isNone = 0 := by
    simp [List.countP_eq_zero]
  simp [packed, List.countP_append, occupied, List.countP_replicate]

/-- The pointers of a packed array are its items. -/
theorem reduceOption_packed (capacity : Nat) (items : List α) :
    (packed capacity items).reduceOption = items := by
  rw [packed, List.reduceOption_append, List.reduceOption_replicate_none, List.append_nil,
    List.reduceOption, List.filterMap_map]
  exact List.filterMap_some

/-- Emptying a slot takes its pointer out, and no other. -/
theorem reduceOption_set_none {slots : List (Option α)} {index : Nat} {item : α}
    (found : slot slots index = some item) :
    (item :: (slots.set index none).reduceOption).Perm slots.reduceOption := by
  have present : slots[index]? = some (some item) := by
    simpa [slot, Option.join_eq_some_iff] using found
  obtain ⟨inside, entry⟩ := List.getElem?_eq_some_iff.mp present
  have split : slots = slots.take index ++ some item :: slots.drop (index + 1) := by
    rw [← entry, ← List.drop_eq_getElem_cons inside, List.take_append_drop]
  rw [List.set_eq_take_append_cons_drop, if_pos inside]
  conv_rhs => rw [split]
  rw [List.reduceOption_append, List.reduceOption_append, List.reduceOption_cons_of_none,
    List.reduceOption_cons_of_some]
  exact List.perm_middle.symm

/-- Writing just behind the last item appends it. -/
theorem packed_push (capacity : Nat) (items : List α) (item : α) (room : items.length < capacity) :
    (packed capacity items).set items.length (some item) = packed capacity (items ++ [item]) := by
  have free : capacity - items.length = (capacity - (items.length + 1)) + 1 := by omega
  rw [packed, free, List.replicate_succ, set_items]
  simp [packed]

/-- Carry `this` into slot `index`, the previous content into the next slot, and
so on for `count` slots. The last content carried is dropped. -/
def carryRight : Nat → Nat → Option α → List (Option α) → List (Option α)
  | 0, _, _, slots => slots
  | count + 1, index, this, slots =>
      carryRight count (index + 1) (slot slots index) (slots.set index this)

/-- Where the back is exactly as long as the walk, the carried entry goes in front of it and the
last entry of the back is dropped. Induction on the walk: each step writes what it carries and
carries what it found. -/
theorem carryRight_exact (count : Nat) (front back : List (Option α)) (this : Option α)
    (whole : back.length = count) :
    carryRight count front.length this (front ++ back) = front ++ (this :: back).take count := by
  induction count generalizing front back this with
  | zero => simp [carryRight, List.length_eq_zero_iff.mp whole]
  | succ count inductionHypothesis =>
    cases back with
    | nil => simp at whole
    | cons entry rest =>
      have shorter : rest.length = count := by simpa using whole
      have next := inductionHypothesis (front ++ [this]) rest entry shorter
      rw [List.length_append, List.length_singleton, List.append_assoc] at next
      rw [carryRight, slot_split, set_split]
      simpa using next

/-- Writing an item over an entry and carrying the entry and the tail one slot to the
right inserts the item: with room, what falls off the end is an empty slot. -/
theorem packed_insert (capacity : Nat) (before after : List α) (item entry : α)
    (room : (before ++ entry :: after).length < capacity) :
    carryRight (capacity - before.length - 1) (before.length + 1) (some entry)
        ((packed capacity (before ++ entry :: after)).set before.length (some item)) =
      packed capacity (before ++ item :: entry :: after) := by
  simp only [List.length_append, List.length_cons] at room
  obtain ⟨free, spare⟩ : ∃ free, capacity - (before.length + (after.length + 1)) = free + 1 :=
    ⟨capacity - (before.length + (after.length + 1)) - 1, by omega⟩
  have written : (packed capacity (before ++ entry :: after)).set before.length (some item) =
      (before.map some ++ [some item]) ++ (after.map some ++ List.replicate (free + 1) none) := by
    rw [packed, List.length_append, List.length_cons, spare, List.map_append, List.append_assoc,
      List.map_cons, List.cons_append, set_items, List.append_assoc]
    rfl
  have carried := carryRight_exact (capacity - before.length - 1) (before.map some ++ [some item])
    (after.map some ++ List.replicate (free + 1) none) (some entry) (by simp; omega)
  have kept : (some entry :: (after.map some ++ List.replicate (free + 1) none)).take
      (capacity - before.length - 1) =
        some entry :: (after.map some ++ List.replicate free none) := by
    rw [List.replicate_succ', ← List.append_assoc, ← List.cons_append]
    exact List.take_left' (by simp; omega)
  simp only [List.length_append, List.length_map, List.length_singleton] at carried
  rw [written, carried, kept, packed]
  have after_free : capacity - (before ++ item :: entry :: after).length = free := by
    simp only [List.length_append, List.length_cons]
    omega
  rw [after_free]
  simp

/-- Copy slot `index + offset` to slot `index` for `count` indices, in ascending order. -/
def moveDown (offset : Nat) : Nat → Nat → List (Option α) → List (Option α)
  | 0, _, slots => slots
  | count + 1, index, slots =>
      moveDown offset count (index + 1) (slots.set index (slot slots (index + offset)))

/-- Moving entries down writes inside the array only and keeps its length. -/
theorem moveDown_length (offset count index : Nat) (slots : List (Option α)) :
    (moveDown offset count index slots).length = slots.length := by
  induction count generalizing index slots with
  | zero => rfl
  | succ count inductionHypothesis => simp [moveDown, inductionHypothesis]

/-- Every slot of the range receives the original content `offset` slots further on:
ascending order reads a slot before anything is written to it. -/
theorem moveDown_slot (offset count index tested : Nat) (slots : List (Option α))
    (inside : index + count ≤ slots.length) :
    slot (moveDown offset count index slots) tested =
      if index ≤ tested ∧ tested < index + count then slot slots (tested + offset)
      else slot slots tested := by
  induction count generalizing index slots with
  | zero =>
    have outside : ¬ (index ≤ tested ∧ tested < index + 0) := by omega
    rw [if_neg outside, moveDown]
  | succ count inductionHypothesis =>
    have here : index < slots.length := by omega
    rw [moveDown, inductionHypothesis _ _ (by simp; omega), slot_set _ _ _ _ here,
      slot_set _ _ _ _ here]
    by_cases first : tested = index
    · subst first
      simp
    · by_cases later : index + 1 ≤ tested ∧ tested < index + 1 + count
      · have ahead : tested + offset ≠ index := by omega
        have range : index ≤ tested ∧ tested < index + (count + 1) := by omega
        rw [if_pos later, if_neg ahead, if_pos range]
      · have outside : ¬ (index ≤ tested ∧ tested < index + (count + 1)) := by omega
        rw [if_neg later, if_neg first, if_neg outside]

/-- Empty `count` slots from `index` on. -/
def clearFrom : Nat → Nat → List (Option α) → List (Option α)
  | 0, _, slots => slots
  | count + 1, index, slots => clearFrom count (index + 1) (slots.set index none)

/-- Clearing slots keeps the length of the array. -/
theorem clearFrom_length (count index : Nat) (slots : List (Option α)) :
    (clearFrom count index slots).length = slots.length := by
  induction count generalizing index slots with
  | zero => rfl
  | succ count inductionHypothesis => simp [clearFrom, inductionHypothesis]

/-- Exactly the slots of the cleared range are empty afterwards; all others are as before. -/
theorem clearFrom_slot (count index tested : Nat) (slots : List (Option α))
    (inside : index + count ≤ slots.length) :
    slot (clearFrom count index slots) tested =
      if index ≤ tested ∧ tested < index + count then none else slot slots tested := by
  induction count generalizing index slots with
  | zero =>
    have outside : ¬ (index ≤ tested ∧ tested < index + 0) := by omega
    rw [if_neg outside, clearFrom]
  | succ count inductionHypothesis =>
    have here : index < slots.length := by omega
    rw [clearFrom, inductionHypothesis _ _ (by simp; omega), slot_set _ _ _ _ here]
    by_cases later : index + 1 ≤ tested ∧ tested < index + 1 + count
    · rw [if_pos later, if_pos (by omega)]
    · by_cases first : tested = index
      · rw [if_neg later, if_pos first, if_pos (by omega)]
      · rw [if_neg later, if_neg first, if_neg (by omega)]

/-- Moving an array with `lead` empty slots in front down by `lead`, and emptying
the slots left behind, packs it. -/
theorem compact (capacity lead : Nat) (items : List α) (fits : lead + items.length ≤ capacity) :
    clearFrom lead (capacity - lead) (moveDown lead (capacity - lead) 0
      (List.replicate lead none ++ packed (capacity - lead) items)) = packed capacity items := by
  have size : (List.replicate lead none ++ packed (capacity - lead) items).length = capacity := by
    rw [List.length_append, List.length_replicate, packed_length _ _ (by omega)]
    omega
  apply slots_ext
  · rw [clearFrom_length, moveDown_length, size, packed_length _ _ (by omega)]
  · intro index inside
    rw [clearFrom_length, moveDown_length, size] at inside
    rw [clearFrom_slot _ _ _ _ (by rw [moveDown_length, size]; omega),
      moveDown_slot _ _ _ _ _ (by rw [size]; omega), slot_packed]
    by_cases kept : index < capacity - lead
    · have behind : ¬ (capacity - lead ≤ index ∧ index < capacity - lead + lead) := by omega
      rw [if_neg behind, if_pos (by omega), slot_replicate_append, if_neg (by omega),
        Nat.add_sub_cancel, slot_packed]
    · rw [if_pos (by omega), List.getElem?_eq_none (by omega)]

end PackedSlots
