import Mathlib.Data.List.Nodup

/-!
# Blocks that are released once

A heap of blocks under their addresses, which are given out in order and never again.
A block is live from its allocation to its release. A sequence of releases is lawful
if each of them finds its block live, with a content that a release of its kind
permits; so no block is released twice. Releasing distinct live blocks is lawful and
leaves all others live.
-/

namespace Ledger

universe u v
variable {β : Type u} {ι : Type v}

/-- Whether a block was released, and what it holds. -/
structure Block (β : Type u) where
  live : Bool
  content : β

/-- The blocks allocated so far, under their addresses. -/
abbrev Heap (β : Type u) := List (Block β)

/-- A new live block at the end of the heap. Addresses are never used again. -/
def allocate (heap : Heap β) (content : β) : Heap β := heap ++ [⟨true, content⟩]

/-- The block of an address is no longer live; its content stays in the heap. -/
def release (heap : Heap β) (address : Nat) : Heap β :=
  heap.modify address fun block => { block with live := false }

/-- The block at an address is live and holds this content. -/
def Live (heap : Heap β) (address : Nat) (content : β) : Prop :=
  heap[address]? = some ⟨true, content⟩

/-- Each release of the sequence finds its block live, with a content it permits. -/
def Lawful (permits : ι → β → Prop) : Heap β → List (ι × Nat) → Prop
  | _, [] => True
  | heap, (kind, address) :: rest =>
      (∃ content, Live heap address content ∧ permits kind content) ∧
        Lawful permits (release heap address) rest

/-- The releases of a list, in its order. -/
def releaseAll (heap : Heap β) (releases : List (ι × Nat)) : Heap β :=
  releases.foldl (fun heap entry => release heap entry.2) heap

/-- A live block lies inside the heap. -/
theorem live_bounded {heap : Heap β} {address : Nat} {content : β}
    (live : Live heap address content) : address < heap.length :=
  (List.getElem?_eq_some_iff.mp live).1

/-- A block has one content. -/
theorem live_unique {heap : Heap β} {address : Nat} {content other : β}
    (live : Live heap address content) (again : Live heap address other) : content = other := by
  have same := Option.some.inj (live.symm.trans again)
  exact (Block.mk.inj same).2

/-- The address of a fresh block is the heap's former size. -/
theorem live_allocate_new (heap : Heap β) (content : β) :
    Live (allocate heap content) heap.length content := by
  simp [Live, allocate]

/-- An allocation leaves every live block live, with its content. -/
theorem live_allocate_old {heap : Heap β} {address : Nat} {content : β}
    (live : Live heap address content) (fresh : β) :
    Live (allocate heap fresh) address content := by
  rw [Live, allocate, List.getElem?_append_left (live_bounded live)]
  exact live

/-- A release leaves every other block as it is. -/
theorem live_release {heap : Heap β} {address other : Nat} {content : β}
    (live : Live heap address content) (different : other ≠ address) :
    Live (release heap other) address content := by
  rw [Live, release, List.getElem?_modify_ne _ _ different]
  exact live

/-- A block whose address is in no release of the list stays live. -/
theorem live_releaseAll {heap : Heap β} {releases : List (ι × Nat)} {address : Nat} {content : β}
    (live : Live heap address content) (spared : address ∉ releases.map Prod.snd) :
    Live (releaseAll heap releases) address content := by
  induction releases generalizing heap with
  | nil => exact live
  | cons entry rest inductionHypothesis =>
    rw [List.map_cons, List.mem_cons, not_or] at spared
    apply inductionHypothesis
    · exact live_release live (Ne.symm spared.1)
    · exact spared.2

/-- Distinct live blocks with permitted contents are released lawfully. -/
theorem lawful_of_nodup {permits : ι → β → Prop} {heap : Heap β} {releases : List (ι × Nat)}
    (permitted : ∀ entry ∈ releases, ∃ content, Live heap entry.2 content ∧ permits entry.1 content)
    (distinct : (releases.map Prod.snd).Nodup) : Lawful permits heap releases := by
  induction releases generalizing heap with
  | nil => trivial
  | cons entry rest inductionHypothesis =>
    rw [List.map_cons, List.nodup_cons] at distinct
    constructor
    · exact permitted entry (List.mem_cons_self ..)
    · apply inductionHypothesis
      · intro other listed
        obtain ⟨content, live, allowed⟩ := permitted other (List.mem_cons_of_mem _ listed)
        refine ⟨content, live_release live ?_, allowed⟩
        intro same
        exact distinct.1 (same ▸ List.mem_map_of_mem listed)
      · exact distinct.2

end Ledger
