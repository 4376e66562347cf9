import Mathlib.Data.List.Basic
import SelectiveRepeat.Library.Reassembly

/-!
# The order of arrival does not matter

What a reassembler has learnt is the first item that came for each index. As long as
only indices of the window arrive, this alone determines its state: the first index
nothing is known of is the next to deliver, all known items before it are the output,
and all known items behind it are held. Two sequences with the same items teach the
same, so they end in the same state.
-/

namespace Reassembly

universe u
variable {α : Type u}

/-- The first item that comes for an index is the one that is known. -/
def learn (known : Nat → Option α) (arrival : Nat × α) : Nat → Option α :=
  fun index => if index = arrival.1 then some ((known index).getD arrival.2) else known index

/-- What is known after a sequence of arrivals. -/
def learnAll (known : Nat → Option α) (arrivals : List (Nat × α)) : Nat → Option α :=
  arrivals.foldl learn known

/-- An index is known from before, or from the first of the arrivals that has it. -/
theorem learnAll_find (known : Nat → Option α) (arrivals : List (Nat × α)) (index : Nat) :
    learnAll known arrivals index =
      (known index).or ((arrivals.find? fun arrival => arrival.1 = index).map Prod.snd) := by
  induction arrivals generalizing known with
  | nil => simp [learnAll]
  | cons arrival rest inductionHypothesis =>
    have further := inductionHypothesis (learn known arrival)
    rw [learnAll] at further ⊢
    rw [List.foldl_cons, further]
    by_cases same : arrival.1 = index
    · cases present : known index <;> simp [learn, same, present]
    · have other : ¬ index = arrival.1 := fun equal => same equal.symm
      simp [learn, same, other]

/-- Arrivals with one index are one item. -/
def Agree (arrivals : List (Nat × α)) : Prop :=
  ∀ one ∈ arrivals, ∀ other ∈ arrivals, one.1 = other.1 → one.2 = other.2

/-- Sequences with the same items teach the same. -/
theorem learnAll_congr (known : Nat → Option α) {arrivals others : List (Nat × α)}
    (agree : Agree arrivals) (same : ∀ arrival, arrival ∈ arrivals ↔ arrival ∈ others) :
    learnAll known arrivals = learnAll known others := by
  funext index
  rw [learnAll_find, learnAll_find]
  congr 1
  cases first : arrivals.find? fun arrival => arrival.1 = index with
  | none =>
    have absent : others.find? (fun arrival => arrival.1 = index) = none := by
      rw [List.find?_eq_none] at first ⊢
      intro arrival listed
      exact first arrival ((same arrival).mpr listed)
    rw [absent]
  | some arrival =>
    have indexed : arrival.1 = index := by simpa using List.find?_some first
    have listed := List.mem_of_find?_eq_some first
    cases second : others.find? fun arrival => arrival.1 = index with
    | none =>
      have missing := List.find?_eq_none.mp second arrival ((same arrival).mp listed)
      simp [indexed] at missing
    | some other =>
      have otherIndexed : other.1 = index := by simpa using List.find?_some second
      have otherListed := (same other).mpr (List.mem_of_find?_eq_some second)
      have item := agree arrival listed other otherListed (indexed.trans otherIndexed.symm)
      rw [Option.map_some, Option.map_some, item]

namespace Reassembler

variable {window : Nat}

/-- The state is the one that `known` determines, when `before` was the output at the
time that `first` was the next index to deliver. -/
structure Settled (first : Nat) (before : List α) (known : Nat → Option α)
    (state : Reassembler window α) : Prop where
  forward : first ≤ state.delivered
  gap : known state.delivered = none
  held : ∀ index, state.delivered < index → state.held index = known index
  output : state.output.map some =
    before.map some ++ (List.range' first (state.delivered - first)).map known

/-- At the beginning, what is held is what is known. -/
theorem settled_start (state : Reassembler window α) :
    Settled state.delivered state.output state.held state where
  forward := Nat.le_refl _
  gap := by
    by_contra present
    exact Nat.lt_irrefl _ (state.inWindow _ present).1
  held := fun _ _ => rfl
  output := by simp

/-- All indices from the first to the next one to deliver are known. -/
theorem Settled.known_before {first : Nat} {before : List α} {known : Nat → Option α}
    {state : Reassembler window α} (settled : Settled first before known state) {index : Nat}
    (low : first ≤ index) (high : index < state.delivered) : known index ≠ none := by
  have listed : known index ∈ state.output.map some := by
    rw [settled.output]
    apply List.mem_append_right
    apply List.mem_map_of_mem
    rw [List.mem_range'_1]
    omega
  obtain ⟨item, _, same⟩ := List.mem_map.mp listed
  rw [← same]
  simp

/-- One item further on, an index that is known stays as it was. -/
theorem learn_known {known : Nat → Option α} {arrival : Nat × α}
    (present : known arrival.1 ≠ none) : learn known arrival = known := by
  funext index
  rw [learn]
  split
  case isTrue same =>
    obtain ⟨item, known⟩ := Option.ne_none_iff_exists'.mp present
    rw [same, known]
    rfl
  case isFalse => rfl

/-- Delivering an item and the held run behind it settles the state again. -/
theorem deliver_settled {first : Nat} {before : List α} {known : Nat → Option α}
    {state : Reassembler window α} (settled : Settled first before known state) (item : α) :
    Settled first before (learn known (state.delivered, item)) (state.deliver item) := by
  have forward := settled.forward
  have bound := run_length state.held (window - 1) (state.delivered + 1)
  obtain ⟨longest, written⟩ : ∃ longest,
      run state.held (window - 1) (state.delivered + 1) = longest := ⟨_, rfl⟩
  have delivered : (state.deliver item).delivered =
      state.delivered + 1 + longest.length := by rw [← written]; rfl
  rw [written] at bound
  have own : learn known (state.delivered, item) state.delivered = some item := by
    simp [learn, settled.gap]
  have others {index : Nat} (later : state.delivered < index) :
      learn known (state.delivered, item) index = state.held index := by
    rw [settled.held index later, learn, if_neg (by simp only; omega)]
  constructor
  · rw [delivered]
    omega
  · rw [delivered, others (by omega)]
    by_cases whole : longest.length < window - 1
    · have stop := run_stops state.held (window - 1) (state.delivered + 1)
      rw [written] at stop
      exact stop whole
    · by_contra present
      have inside := state.inWindow _ present
      omega
  · intro index later
    rw [delivered] at later
    rw [others (by omega)]
    have behind : ¬ index ≤ state.delivered + longest.length := by omega
    simp only [deliver, written, behind, if_false]
  · have count : state.delivered + 1 + longest.length - first =
        (state.delivered - first) + (longest.length + 1) := by omega
    have next : first + (state.delivered - first) = state.delivered := by omega
    have output : (state.deliver item).output = state.output ++ item :: longest := by
      rw [← written]
      rfl
    have early : (List.range' first (state.delivered - first)).map
        (learn known (state.delivered, item)) =
          (List.range' first (state.delivered - first)).map known := by
      apply List.map_congr_left
      intro index listed
      rw [List.mem_range'_1] at listed
      rw [learn, if_neg (by simp only; omega)]
    have late : (List.range' (state.delivered + 1) longest.length).map
        (learn known (state.delivered, item)) = longest.map some := by
      apply List.ext_getElem
      · simp
      · intro offset inside within
        have shorter : offset < longest.length := by simpa using within
        have entry := run_getElem state.held (window - 1) (state.delivered + 1) offset
        rw [written] at entry
        have found := entry shorter
        rw [List.getElem?_eq_getElem shorter] at found
        simp only [List.getElem_map, List.getElem_range', Nat.one_mul]
        rw [others (by omega), found]
    rw [output, delivered, count, ← List.range'_append_1, next, List.range'_succ, List.map_append,
      List.map_append, List.map_cons, List.map_cons, settled.output, early, late, own,
      List.append_assoc]

/-- An arriving item of the window settles the state again, with that item learnt. -/
theorem offer_settled {first : Nat} {before : List α} {known : Nat → Option α}
    {state : Reassembler window α} (settled : Settled first before known state) (index : Nat)
    (item : α) (low : first ≤ index) (high : index < first + window) :
    Settled first before (learn known (index, item)) (state.offer index item) := by
  have forward := settled.forward
  rw [offer]
  split
  case isTrue next =>
    subst next
    exact deliver_settled settled item
  case isFalse other =>
    split
    case isTrue ahead =>
      constructor
      · exact forward
      · rw [learn, if_neg (by simp only [hold]; omega)]
        exact settled.gap
      · intro tested later
        have kept := settled.held tested later
        simp only [hold, learn]
        split
        case isTrue same => rw [← same, kept]
        case isFalse => exact kept
      · have early : (List.range' first (state.delivered - first)).map (learn known (index, item)) =
            (List.range' first (state.delivered - first)).map known := by
          apply List.map_congr_left
          intro tested listed
          rw [List.mem_range'_1] at listed
          rw [learn, if_neg (by simp only; omega)]
        simp only [hold]
        rw [early]
        exact settled.output
    case isFalse outside =>
      -- the item was delivered before, so it is known
      have present := settled.known_before low (show index < state.delivered by omega)
      rw [learn_known present]
      exact settled

/-- A sequence of arrivals. -/
def offerAll (state : Reassembler window α) (arrivals : List (Nat × α)) : Reassembler window α :=
  arrivals.foldl (fun state arrival => state.offer arrival.1 arrival.2) state

/-- Every sequence of arrivals inside the window keeps the state settled, with what it taught
added to what was known: induction on the arrivals, one offer at a time. -/
theorem offerAll_settled {first : Nat} {before : List α} {known : Nat → Option α}
    {state : Reassembler window α} (settled : Settled first before known state)
    (arrivals : List (Nat × α))
    (inside : ∀ arrival ∈ arrivals, first ≤ arrival.1 ∧ arrival.1 < first + window) :
    Settled first before (learnAll known arrivals) (state.offerAll arrivals) := by
  induction arrivals generalizing known state with
  | nil => exact settled
  | cons arrival rest inductionHypothesis =>
    obtain ⟨low, high⟩ := inside arrival (List.mem_cons_self ..)
    apply inductionHypothesis (offer_settled settled arrival.1 arrival.2 low high)
    intro other listed
    exact inside other (List.mem_cons_of_mem _ listed)

/-- What is known determines the state. -/
theorem settled_unique {first : Nat} {before : List α} {known : Nat → Option α}
    {state other : Reassembler window α} (settled : Settled first before known state)
    (otherSettled : Settled first before known other) : state = other := by
  have notBefore {one two : Reassembler window α} (settledOne : Settled first before known one)
      (settledTwo : Settled first before known two) : two.delivered ≤ one.delivered := by
    by_contra further
    exact settledTwo.known_before settledOne.forward (Nat.lt_of_not_le further) settledOne.gap
  have delivered : state.delivered = other.delivered := by
    apply Nat.le_antisymm
    · exact notBefore otherSettled settled
    · exact notBefore settled otherSettled
  have absent {one : Reassembler window α} {index : Nat} (early : index ≤ one.delivered) :
      one.held index = none := by
    by_contra present
    have inside := one.inWindow index present
    omega
  have held : state.held = other.held := by
    funext index
    by_cases later : state.delivered < index
    · rw [settled.held index later, otherSettled.held index (by omega)]
    · rw [absent (by omega), absent (by omega)]
  have output : state.output = other.output := by
    apply List.map_injective_iff.mpr (Option.some_injective α)
    rw [settled.output, otherSettled.output, delivered]
  cases state
  cases other
  simp only [mk.injEq]
  exact ⟨delivered, held, output⟩

/-- Two sequences of the same items, with indices in the window and one item for each
index, lead from any state to one state. -/
theorem offerAll_order_irrelevant (state : Reassembler window α)
    {arrivals others : List (Nat × α)} (agree : Agree arrivals)
    (same : ∀ arrival, arrival ∈ arrivals ↔ arrival ∈ others)
    (inside : ∀ arrival ∈ arrivals,
      state.delivered ≤ arrival.1 ∧ arrival.1 < state.delivered + window) :
    state.offerAll arrivals = state.offerAll others := by
  have settled := offerAll_settled (settled_start state) arrivals inside
  have otherSettled := offerAll_settled (settled_start state) others
    (fun arrival listed => inside arrival ((same arrival).mpr listed))
  rw [← learnAll_congr state.held agree same] at otherSettled
  exact settled_unique settled otherSettled

/-- The initial state has only items below the end of its window. -/
theorem start_below_window (state : Reassembler window α) :
    Below (state.delivered + window) state where
  delivered := Nat.le_add_right _ _
  held := fun index present => (state.inWindow index present).2

/-- On a cycle of at least two windows, arrivals may come under the residues of their
indices: none is ever taken for another one, however far the delivery has come. -/
theorem acceptAll_offerAll {cycle first : Nat} (positive : 0 < window)
    (wide : 2 * window ≤ cycle) {state : Reassembler window α} (forward : first ≤ state.delivered)
    (below : Below (first + window) state) (arrivals : List (Nat × α))
    (inside : ∀ arrival ∈ arrivals, first ≤ arrival.1 ∧ arrival.1 < first + window) :
    arrivals.foldl (fun state arrival => state.accept cycle (arrival.1 % cycle) arrival.2) state =
      state.offerAll arrivals := by
  induction arrivals generalizing state with
  | nil => rfl
  | cons arrival rest inductionHypothesis =>
    obtain ⟨low, high⟩ := inside arrival (List.mem_cons_self ..)
    have reached := below.delivered
    have taken : state.accept cycle (arrival.1 % cycle) arrival.2 =
        state.offer arrival.1 arrival.2 := by
      apply accept_exact positive
      · omega
      · omega
      · omega
    rw [List.foldl_cons, taken, offerAll, List.foldl_cons, ← offerAll]
    apply inductionHypothesis
    · have moved := (state.offer_delivered arrival.1 arrival.2).1
      omega
    · exact offer_below state arrival.1 arrival.2 below high
    · intro other listed
      exact inside other (List.mem_cons_of_mem _ listed)

end Reassembler

end Reassembly
