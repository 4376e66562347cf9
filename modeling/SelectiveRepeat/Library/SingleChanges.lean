import Mathlib.Data.List.Basic
import Mathlib.Logic.Function.Iterate

/-!
# Strings that differ in one place

Two strings of one length that differ in exactly one item, and checksums that tell
such strings apart. A checksum that folds a step over the items does so as soon as
the step loses nothing: it is injective in the register and injective in the item.
-/

namespace SingleChanges

universe u v
variable {α : Type u} {β : Type v}

/-- The same items, but for one. -/
def OneChanged (one other : List α) : Prop :=
  ∃ front first second back, first ≠ second ∧ one = front ++ first :: back ∧
    other = front ++ second :: back

/-- A checksum that tells every string from those with one other item. -/
def Detects (sum : List α → β) : Prop := ∀ one other, OneChanged one other → sum one ≠ sum other

/-- A change of one entry keeps the length. -/
theorem OneChanged.length {one other : List α} (changed : OneChanged one other) :
    one.length = other.length := by
  obtain ⟨front, first, second, back, _, rfl, rfl⟩ := changed
  simp

/-- No list differs from itself in one entry. -/
theorem not_oneChanged_self (one : List α) : ¬ OneChanged one one := by
  rintro ⟨front, first, second, back, different, same, sameAgain⟩
  have items := List.append_cancel_left (same.symm.trans sameAgain)
  exact different (List.cons.inj items).1

/-- Of the two parts of a string, the change is in one, and the other is the same. -/
theorem OneChanged.split {one other : List α} (changed : OneChanged one other) (count : Nat) :
    (OneChanged (one.take count) (other.take count) ∧ one.drop count = other.drop count) ∨
      (one.take count = other.take count ∧ OneChanged (one.drop count) (other.drop count)) := by
  obtain ⟨front, first, second, back, different, rfl, rfl⟩ := changed
  by_cases early : front.length < count
  · obtain ⟨rest, rfl⟩ : ∃ rest, count = front.length + (rest + 1) :=
      ⟨count - front.length - 1, by omega⟩
    left
    constructor
    · refine ⟨front, first, second, back.take rest, different, ?_, ?_⟩
      · rw [List.take_length_add_append, List.take_succ_cons]
      · rw [List.take_length_add_append, List.take_succ_cons]
    · rw [List.drop_length_add_append, List.drop_length_add_append, List.drop_succ_cons,
        List.drop_succ_cons]
  · right
    have within : count ≤ front.length := Nat.le_of_not_lt early
    constructor
    · rw [List.take_append_of_le_length within, List.take_append_of_le_length within]
    · refine ⟨front.drop count, first, second, back, different, ?_, ?_⟩
      · rw [List.drop_append_of_le_length within]
      · rw [List.drop_append_of_le_length within]

/-- A fold detects one changed item if its step is injective in the register, so that a
difference is never lost, and in the item, so that the change makes one. -/
theorem foldl_detects (step : β → α → β) (start : β)
    (keeps : ∀ item, Function.Injective (fun register => step register item))
    (makes : ∀ register, Function.Injective (step register)) :
    Detects (fun items => items.foldl step start) := by
  have kept (items : List α) : Function.Injective (fun register => items.foldl step register) := by
    induction items with
    | nil => exact fun _ _ same => same
    | cons item rest inductionHypothesis =>
      intro one other same
      exact keeps item (inductionHypothesis same)
  rintro one other ⟨front, first, second, back, different, rfl, rfl⟩ same
  simp only [List.foldl_append, List.foldl_cons] at same
  exact different (makes _ (kept back same))

/-- Post-processing that loses nothing keeps what a checksum detects. -/
theorem detects_comp {γ : Type v} (last : β → γ) (injective : Function.Injective last)
    {sum : List α → β} (detects : Detects sum) : Detects (fun items => last (sum items)) := by
  intro one other changed same
  exact detects one other changed (injective same)

end SingleChanges
