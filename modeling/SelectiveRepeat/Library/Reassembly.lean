import SelectiveRepeat.Library.CyclicNumbers

/-!
# Reassembling a numbered stream

A reassembler has delivered the first items of a stream, and holds later items of
a bounded window until the gap before them is closed. Items arrive under their
index, or under the residue of their index on a cycle longer than the window.

Whatever arrives, the held items lie in the window, which is a field of the
structure. When every arriving item is the one the stream has at its index, the
output is a prefix of the stream, for any order, repetition and delay.
-/

namespace Reassembly

universe u
variable {α : Type u}

/-- What a receiver with a window of `window` items knows. The item with index
`delivered` is the next to deliver, and is never held. -/
structure Reassembler (window : Nat) (α : Type u) where
  delivered : Nat
  held : Nat → Option α
  output : List α
  inWindow : ∀ index, held index ≠ none → delivered < index ∧ index < delivered + window

/-- Nothing delivered and nothing held. -/
def start (window : Nat) (α : Type u) : Reassembler window α where
  delivered := 0
  held := fun _ => none
  output := []
  inWindow := fun _ present => absurd rfl present

/-- The held items at consecutive indices from `first` on, at most `fuel` of them. -/
def run (held : Nat → Option α) : Nat → Nat → List α
  | 0, _ => []
  | fuel + 1, first =>
    match held first with
    | none => []
    | some item => item :: run held fuel (first + 1)

/-- A run of consecutive items is no longer than the fuel it is given. -/
theorem run_length (held : Nat → Option α) (fuel first : Nat) :
    (run held fuel first).length ≤ fuel := by
  induction fuel generalizing first with
  | zero => simp [run]
  | succ fuel inductionHypothesis =>
    cases present : held first with
    | none => simp [run, present]
    | some item => simp [run, present, inductionHypothesis]

/-- The run ends at the first index that is not held, or at the end of the fuel. -/
theorem run_stops (held : Nat → Option α) (fuel first : Nat)
    (unfinished : (run held fuel first).length < fuel) :
    held (first + (run held fuel first).length) = none := by
  induction fuel generalizing first with
  | zero => simp at unfinished
  | succ fuel inductionHypothesis =>
    cases present : held first with
    | none => simp [run, present]
    | some item =>
      simp only [run, present, List.length_cons] at unfinished ⊢
      have rest := inductionHypothesis (first + 1) (by omega)
      rwa [Nat.add_assoc, Nat.add_comm 1] at rest

/-- The items of the run are the held ones. -/
theorem run_getElem (held : Nat → Option α) (fuel first offset : Nat)
    (inside : offset < (run held fuel first).length) :
    held (first + offset) = (run held fuel first)[offset]? := by
  induction fuel generalizing first offset with
  | zero => simp [run] at inside
  | succ fuel inductionHypothesis =>
    cases present : held first with
    | none => simp [run, present] at inside
    | some item =>
      cases offset with
      | zero => simp [run, present]
      | succ offset =>
        simp only [run, present, List.length_cons, List.getElem?_cons_succ] at inside ⊢
        rw [← inductionHypothesis (first + 1) offset (by omega), Nat.add_right_comm, Nat.add_assoc]

/-- The held items among `count` indices from `first` on, with their indices. -/
def scan (held : Nat → Option α) (first count : Nat) : List (Nat × α) :=
  (List.range' first count).filterMap (fun index => (held index).map (fun item => (index, item)))

/-- A scan of a range is the scan of its front followed by the scan of its back. -/
theorem scan_append (held : Nat → Option α) (first one other : Nat) :
    scan held first (one + other) = scan held first one ++ scan held (first + one) other := by
  rw [scan, ← List.range'_append_1, List.filterMap_append]
  rfl

/-- A scan, split at its first index. -/
theorem scan_succ (held : Nat → Option α) (first count : Nat) :
    scan held first (count + 1) = match held first with
      | none => scan held (first + 1) count
      | some item => (first, item) :: scan held (first + 1) count := by
  cases present : held first <;> simp [scan, List.range'_succ, present]

/-- A scan lists exactly the held items of its range, each with its index. -/
theorem mem_scan (held : Nat → Option α) (first count index : Nat) (item : α) :
    (index, item) ∈ scan held first count ↔
      (first ≤ index ∧ index < first + count) ∧ held index = some item := by
  simp only [scan, List.mem_filterMap, List.mem_range'_1, Option.map_eq_some_iff, Prod.mk.injEq]
  constructor
  · rintro ⟨tested, inside, value, present, rfl, rfl⟩
    exact ⟨inside, present⟩
  · rintro ⟨inside, present⟩
    exact ⟨index, inside, item, present, rfl, rfl⟩

/-- Where nothing is held in the range, the scan is empty. -/
theorem scan_empty (held : Nat → Option α) (first count : Nat)
    (absent : ∀ index, first ≤ index → index < first + count → held index = none) :
    scan held first count = [] := by
  rw [List.eq_nil_iff_forall_not_mem]
  rintro ⟨index, item⟩ present
  obtain ⟨inside, held⟩ := (mem_scan _ _ _ _ _).mp present
  simp [absent index inside.1 inside.2] at held

/-- A scan depends on what is held inside its range only. -/
theorem scan_congr (held other : Nat → Option α) (first count : Nat)
    (same : ∀ index, first ≤ index → index < first + count → held index = other index) :
    scan held first count = scan other first count := by
  induction count generalizing first with
  | zero => rfl
  | succ count inductionHypothesis =>
    rw [scan_succ, scan_succ, same first (Nat.le_refl _) (by omega),
      inductionHypothesis (first + 1) (fun index low high => same index (by omega) (by omega))]

/-- A scan has each index at most once. -/
theorem scan_length (held : Nat → Option α) (first count : Nat) :
    (scan held first count).length ≤ count := by
  simpa [scan] using List.length_filterMap_le
    (fun index => (held index).map (fun item => (index, item))) (List.range' first count)

/-- A scan is in increasing order of its indices. -/
theorem scan_increasing (held : Nat → Option α) (first count : Nat) :
    (scan held first count).Pairwise fun one other => one.1 < other.1 := by
  induction count generalizing first with
  | zero => simp [scan]
  | succ count inductionHypothesis =>
    rw [scan_succ]
    cases held first with
    | none => exact inductionHypothesis (first + 1)
    | some item =>
      apply List.pairwise_cons.mpr
      constructor
      · rintro ⟨index, other⟩ listed
        exact ((mem_scan _ _ _ _ _).mp listed).1.1
      · exact inductionHypothesis (first + 1)

/-- A scan with as many items as indices has one at each. -/
theorem scan_full (held : Nat → Option α) {first count : Nat}
    (full : (scan held first count).length = count) :
    ∀ index, first ≤ index → index < first + count → held index ≠ none := by
  intro index low high absent
  have split : count = (index - first) + ((first + count - (index + 1)) + 1) := by omega
  have position : first + (index - first) = index := by omega
  rw [split, scan_append, position, scan_succ, absent, List.length_append] at full
  have front := scan_length held first (index - first)
  have back := scan_length held (index + 1) (first + count - (index + 1))
  dsimp only at full
  omega

/-- With an item at each of its indices, a scan has as many items as indices. -/
theorem scan_whole (held : Nat → Option α) (first count : Nat)
    (present : ∀ index, first ≤ index → index < first + count → held index ≠ none) :
    (scan held first count).length = count := by
  induction count generalizing first with
  | zero => rfl
  | succ count inductionHypothesis =>
    obtain ⟨item, found⟩ := Option.ne_none_iff_exists'.mp (present first (Nat.le_refl _) (by omega))
    rw [scan_succ, found, List.length_cons, inductionHypothesis (first + 1)
      (fun index low high => present index (by omega) (by omega))]

/-- The run is the beginning of the scan. -/
theorem scan_drop_run (held : Nat → Option α) (fuel first : Nat) :
    (scan held first fuel).drop (run held fuel first).length =
      scan held (first + (run held fuel first).length) (fuel - (run held fuel first).length) := by
  induction fuel generalizing first with
  | zero => simp [run, scan]
  | succ fuel inductionHypothesis =>
    cases present : held first with
    | none => simp [run, present]
    | some item =>
      simp only [run, scan_succ, present, List.length_cons, List.drop_succ_cons,
        inductionHypothesis, Nat.add_sub_add_right]
      congr 1
      omega

namespace Reassembler

variable {window : Nat}

/-- Deliver an item and the longest run of held items behind it. -/
def deliver (state : Reassembler window α) (item : α) : Reassembler window α :=
  let longest := run state.held (window - 1) (state.delivered + 1)
  { delivered := state.delivered + 1 + longest.length
    held := fun index =>
      if index ≤ state.delivered + longest.length then none else state.held index
    output := state.output ++ item :: longest
    inWindow := by
      intro index present
      by_cases gone : index ≤ state.delivered + longest.length
      · simp [gone] at present
      · simp only [gone, if_false] at present
        have bounds := state.inWindow index present
        refine ⟨?_, by omega⟩
        have bound : longest.length ≤ window - 1 := run_length _ _ _
        by_cases whole : longest.length < window - 1
        · have stop := run_stops state.held (window - 1) (state.delivered + 1) whole
          have other : index ≠ state.delivered + 1 + longest.length := by
            rintro rfl
            exact present stop
          omega
        · omega }

/-- Keep an item that is ahead of the next one, unless its place is taken. -/
def hold (state : Reassembler window α) (index : Nat) (item : α)
    (ahead : state.delivered < index ∧ index < state.delivered + window) :
    Reassembler window α where
  delivered := state.delivered
  held := fun tested =>
    if tested = index then some ((state.held index).getD item) else state.held tested
  output := state.output
  inWindow := by
    intro tested present
    by_cases same : tested = index
    · exact same ▸ ahead
    · simp only [same, if_false] at present
      exact state.inWindow tested present

/-- An item arrives under its index: the next one is delivered, one inside the
window is held if it is the first of its index, and any other changes nothing. -/
def offer (state : Reassembler window α) (index : Nat) (item : α) : Reassembler window α :=
  if index = state.delivered then state.deliver item
  else if ahead : state.delivered < index ∧ index < state.delivered + window then
    state.hold index item ahead
  else state

/-- An item arrives under a number on the cycle, counted from the next one to deliver. -/
def accept (cycle : Nat) (state : Reassembler window α) (number : Nat) (item : α) :
    Reassembler window α :=
  state.offer (state.delivered + CyclicNumbers.distance cycle state.delivered number) item

/-- The held items in increasing order of their indices. -/
def entries (state : Reassembler window α) : List (Nat × α) :=
  scan state.held (state.delivered + 1) (window - 1)

/-- How many items are held. -/
def count (state : Reassembler window α) : Nat := state.entries.length

/-! ## Entries -/

/-- Delivering removes exactly the entries of the run that is delivered with it. -/
theorem deliver_entries (state : Reassembler window α) (item : α) :
    (state.deliver item).entries =
      state.entries.drop (run state.held (window - 1) (state.delivered + 1)).length := by
  have bound := run_length state.held (window - 1) (state.delivered + 1)
  simp only [entries, deliver]
  rw [scan_drop_run]
  generalize length : (run state.held (window - 1) (state.delivered + 1)).length = count at bound ⊢
  have outside (index : Nat) (far : state.delivered + window ≤ index) :
      state.held index = none := by
    by_contra present
    have := (state.inWindow index present).2
    omega
  rw [scan_congr _ state.held _ _ (by
    intro index near _
    rw [if_neg (by omega)])]
  by_cases whole : count = window - 1
  · rw [scan_empty _ _ _ (fun index near _ => outside index (by omega)), whole, Nat.sub_self]
    rfl
  · have stop : state.held (state.delivered + 1 + count) = none := by
      rw [← length]
      exact run_stops _ _ _ (by omega)
    obtain ⟨rest, split⟩ : ∃ rest, window - 1 - count = rest + 1 := ⟨window - 2 - count, by omega⟩
    have longer : window - 1 = rest + (count + 1) := by omega
    rw [split, scan_succ, stop, longer, scan_append,
      scan_empty state.held (state.delivered + 1 + count + 1 + rest) _
        (fun index near _ => outside index (by omega)), List.append_nil]

/-- Where an index ahead of the next one stands among the entries. -/
theorem entries_split (state : Reassembler window α) (index : Nat)
    (ahead : state.delivered < index ∧ index < state.delivered + window) :
    state.entries = scan state.held (state.delivered + 1) (index - (state.delivered + 1)) ++
      (match state.held index with
        | none => scan state.held (index + 1) (state.delivered + window - (index + 1))
        | some item => (index, item) ::
            scan state.held (index + 1) (state.delivered + window - (index + 1))) := by
  have sizes : window - 1 = (index - (state.delivered + 1)) +
      ((state.delivered + window - (index + 1)) + 1) := by omega
  have position : state.delivered + 1 + (index - (state.delivered + 1)) = index := by omega
  rw [entries, sizes, scan_append, position, scan_succ]

/-- An item whose index is taken leaves the state as it is. -/
theorem hold_taken (state : Reassembler window α) (index : Nat) (item earlier : α)
    (ahead : state.delivered < index ∧ index < state.delivered + window)
    (taken : state.held index = some earlier) : state.hold index item ahead = state := by
  have same : (fun tested => if tested = index then some ((state.held index).getD item)
      else state.held tested) = state.held := by
    funext tested
    by_cases same : tested = index
    · simp [same, taken]
    · simp [same]
  cases state
  simp only [hold, mk.injEq, and_true, true_and]
  exact same

/-- An item with a free index enters between the smaller and the larger ones. -/
theorem hold_free (state : Reassembler window α) (index : Nat) (item : α)
    (ahead : state.delivered < index ∧ index < state.delivered + window)
    (free : state.held index = none) :
    (state.hold index item ahead).entries =
      scan state.held (state.delivered + 1) (index - (state.delivered + 1)) ++
        (index, item) :: scan state.held (index + 1) (state.delivered + window - (index + 1)) := by
  rw [entries_split (state.hold index item ahead) index ahead]
  have own : (state.hold index item ahead).held index = some item := by simp [hold, free]
  have others (tested : Nat) (different : tested ≠ index) :
      (state.hold index item ahead).held tested = state.held tested := by simp [hold, different]
  rw [own]
  dsimp only
  congr 1
  · apply scan_congr
    intro tested low high
    exact others tested (by simp only [hold] at low high; omega)
  · congr 1
    apply scan_congr
    intro tested low high
    exact others tested (by omega)

/-! ## Streams -/

/-- The output is the beginning of the stream, and held items are items of it. -/
structure Follows (stream : Nat → α) (state : Reassembler window α) : Prop where
  output : state.output = (List.range state.delivered).map stream
  held : ∀ index item, state.held index = some item → item = stream index

/-- Nothing is delivered and nothing held at the start, so nothing differs from the stream. -/
theorem start_follows (stream : Nat → α) : Follows stream (start window α) :=
  ⟨rfl, fun _ _ present => by simp [start] at present⟩

/-- Delivering the stream's next item keeps the state on the stream. -/
theorem deliver_follows (stream : Nat → α) (state : Reassembler window α)
    (follows : Follows stream state) : Follows stream (state.deliver (stream state.delivered)) := by
  have longest : run state.held (window - 1) (state.delivered + 1) =
      (List.range (run state.held (window - 1) (state.delivered + 1)).length).map
        (fun offset => stream (state.delivered + 1 + offset)) := by
    apply List.ext_getElem
    · simp
    · intro offset inside _
      have present := run_getElem state.held (window - 1) (state.delivered + 1) offset inside
      rw [List.getElem?_eq_getElem inside] at present
      simpa using follows.held _ _ present
  constructor
  · simp only [deliver]
    rw [List.range_add, List.map_append, List.range_succ, List.map_append, follows.output,
      List.append_assoc]
    conv_lhs => rw [longest]
    simp [Function.comp_def]
  · intro index item present
    simp only [deliver] at present
    split at present
    · simp at present
    · exact follows.held index item present

/-- An arrival that is the stream's item at its index keeps the state on the stream,
wherever the index lies: it is delivered, held or ignored. -/
theorem offer_follows (stream : Nat → α) (state : Reassembler window α) (index : Nat)
    (follows : Follows stream state) : Follows stream (state.offer index (stream index)) := by
  unfold offer
  split
  case isTrue same =>
    subst same
    exact deliver_follows stream state follows
  case isFalse =>
    split
    case isTrue ahead =>
      refine ⟨follows.output, ?_⟩
      intro tested item present
      simp only [hold] at present
      split at present
      · rename_i same
        subst same
        cases before : state.held tested with
        | none => simpa [before] using present.symm
        | some earlier =>
          have unchanged : earlier = item := by simpa [before] using present
          exact unchanged ▸ follows.held tested earlier before
      · exact follows.held tested item present
    case isFalse => exact follows

/-- Only items with an index below the bound have arrived. -/
structure Below (bound : Nat) (state : Reassembler window α) : Prop where
  delivered : state.delivered ≤ bound
  held : ∀ index, state.held index ≠ none → index < bound

/-- At the start there is no item at any index, hence none beyond the bound. -/
theorem start_below (bound : Nat) : Below bound (start window α) :=
  ⟨Nat.zero_le bound, fun _ present => absurd rfl present⟩

/-- A delivery stays below the bound as long as the delivered index does. -/
theorem deliver_below {bound : Nat} (state : Reassembler window α) (item : α)
    (below : Below bound state) (next : state.delivered < bound) :
    Below bound (state.deliver item) := by
  constructor
  · -- the last item of the run was held
    simp only [deliver]
    cases longest : (run state.held (window - 1) (state.delivered + 1)).length with
    | zero => omega
    | succ count =>
      have last := run_getElem state.held (window - 1) (state.delivered + 1) count (by omega)
      have present : state.held (state.delivered + 1 + count) ≠ none := by
        rw [last, List.getElem?_eq_getElem (by omega)]
        simp
      have inside := below.held _ present
      omega
  · intro index present
    apply below.held index
    simp only [deliver] at present
    split at present
    · exact absurd rfl present
    · exact present

/-- An offer of an index below the bound keeps every item below it. -/
theorem offer_below {bound : Nat} (state : Reassembler window α) (index : Nat) (item : α)
    (below : Below bound state) (inside : index < bound) :
    Below bound (state.offer index item) := by
  unfold offer
  split
  case isTrue same => exact deliver_below state item below (same ▸ inside)
  case isFalse =>
    split
    case isTrue ahead =>
      refine ⟨below.delivered, ?_⟩
      intro tested present
      simp only [hold] at present
      split at present
      · rename_i same
        exact same ▸ inside
      · exact below.held tested present
    case isFalse => exact below

/-- An item that arrives as the next one moves the reassembler on; no other does. -/
theorem offer_delivered (state : Reassembler window α) (index : Nat) (item : α) :
    state.delivered ≤ (state.offer index item).delivered ∧
      (index = state.delivered → state.delivered < (state.offer index item).delivered) ∧
      (index < state.delivered → state.offer index item = state) := by
  unfold offer
  split
  case isTrue same =>
    simp only [deliver]
    exact ⟨by omega, fun _ => by omega, fun _ => by omega⟩
  case isFalse other =>
    split
    case isTrue ahead => exact ⟨Nat.le_refl _, fun same => absurd same other, fun _ => by omega⟩
    case isFalse => exact ⟨Nat.le_refl _, fun same => absurd same other, fun _ => rfl⟩

/-- On a cycle longer than the window, a number whose item is in the window or at most
`cycle - window` behind stands for exactly that item. -/
theorem accept_exact {cycle : Nat} (positive : 0 < window) (wide : window < cycle)
    (state : Reassembler window α) (index : Nat) (item : α)
    (near : index < state.delivered + window)
    (recent : state.delivered ≤ index + (cycle - window)) :
    state.accept cycle (index % cycle) item = state.offer index item := by
  by_cases ahead : state.delivered ≤ index
  · rw [accept, CyclicNumbers.distance_ahead (by omega) ahead (by omega), Nat.add_sub_cancel' ahead]
  · have far := CyclicNumbers.distance_behind (show 0 < cycle by omega)
      (Nat.lt_of_not_le ahead) recent (by omega)
    have outside (distance : Nat) (large : cycle - (cycle - window) ≤ distance) :
        state.offer (state.delivered + distance) item = state := by
      unfold offer
      rw [if_neg (by omega), dif_neg (by omega)]
    have behind : state.offer index item = state := by
      unfold offer
      rw [if_neg (by omega), dif_neg (by omega)]
    rw [accept, outside _ far, behind]

/-! ## Nothing that arrived is lost -/

/-- The item with this index was delivered, or is held. -/
def Got (state : Reassembler window α) (index : Nat) : Prop :=
  index < state.delivered ∨ state.held index ≠ none

/-- A delivery loses no item: what was delivered or held is so afterwards. -/
theorem deliver_got (state : Reassembler window α) (item : α) {index : Nat}
    (got : Got state index) : Got (state.deliver item) index := by
  simp only [Got, deliver]
  by_cases early : index ≤ state.delivered +
      (run state.held (window - 1) (state.delivered + 1)).length
  · left
    omega
  · rcases got with delivered | present
    · omega
    · rw [if_neg early]
      exact .inr present

/-- Holding an item loses none and adds the one that is held. -/
theorem hold_got (state : Reassembler window α) (held : Nat) (item : α)
    (ahead : state.delivered < held ∧ held < state.delivered + window) {index : Nat}
    (got : Got state index ∨ index = held) : Got (state.hold held item ahead) index := by
  simp only [Got, hold]
  by_cases same : index = held
  · simp [same]
  · rw [if_neg same]
    exact got.resolve_right same

/-- What arrived stays, whatever arrives then. -/
theorem offer_got (state : Reassembler window α) (offered : Nat) (item : α) {index : Nat}
    (got : Got state index) : Got (state.offer offered item) index := by
  unfold offer
  split
  case isTrue => exact deliver_got state item got
  case isFalse =>
    split
    case isTrue ahead => exact hold_got state offered item ahead (.inl got)
    case isFalse => exact got

/-- An item that is not beyond the window is taken, unless it was before. -/
theorem offer_takes (state : Reassembler window α) (index : Nat) (item : α)
    (near : index < state.delivered + window) : Got (state.offer index item) index := by
  unfold offer
  split
  case isTrue same =>
    left
    simp only [deliver]
    omega
  case isFalse other =>
    split
    case isTrue ahead => exact hold_got state index item ahead (.inr rfl)
    case isFalse behind => exact .inl (by omega)

end Reassembler

end Reassembly
