import Mathlib.Data.List.Induction
import SelectiveRepeat.Library.PackedSlots
import SelectiveRepeat.Packet.Structure

/-!
# The window array of sel_repeat_write

`modify_buffer` drops the acknowledged front of an array of pointers, and
`get_ack_position` computes where that front ends. Both work on signed positions
that nothing checks, so an access outside the array is a fault here. The array may
have any size, and its entries are pointers of any type.

The three loops of `modify_buffer` release the front, move the rest down, and
empty what is left behind.
-/

namespace SelectiveRepeat

open PackedSlots

/-- An array of pointers in use: what it holds, what was released through it, and the
indices accessed, in order. -/
structure BufferRun (Elem : Type) where
  slots : List (Option Elem)
  released : List Elem
  touched : List Int

namespace BufferRun

variable {Elem : Type}

/-- `buffer[i]` as a value -/
def fetch (run : BufferRun Elem) (i : Int) : Run (Option Elem × BufferRun Elem) :=
  if 0 ≤ i ∧ i < run.slots.length then
    .ok (slot run.slots i.toNat, { run with touched := run.touched ++ [i] })
  else .error (.outOfRange i)

/-- `buffer[i] = entry` -/
def assign (run : BufferRun Elem) (i : Int) (entry : Option Elem) : Run (BufferRun Elem) :=
  if 0 ≤ i ∧ i < run.slots.length then
    .ok { run with slots := run.slots.set i.toNat entry, touched := run.touched ++ [i] }
  else .error (.outOfRange i)

/-- The first loop, at index `i` with `i + 1` indices to go: release and empty. -/
def releaseLoop : Nat → BufferRun Elem → Run (BufferRun Elem)
  | 0, run => .ok run
  | i + 1, run => do
    let (entry, run) ← run.fetch i
    match entry with
    | none => .error .wildPointer
    | some entry =>
      let run ← { run with released := run.released ++ [entry] }.assign i none
      releaseLoop i run

/-- The second loop, from index `i` on: copy down over the released front. -/
def shiftLoop (ack : Int) : Nat → Int → BufferRun Elem → Run (BufferRun Elem)
  | 0, _, run => .ok run
  | remaining + 1, i, run => do
    let (entry, run) ← run.fetch (ack + 1 + i)
    let run ← run.assign i entry
    shiftLoop ack remaining (i + 1) run

/-- The third loop, from index `i` downwards: empty the slots left behind. -/
def clearLoop : Nat → Int → BufferRun Elem → Run (BufferRun Elem)
  | 0, _, run => .ok run
  | remaining + 1, i, run => do
    let run ← run.assign i none
    clearLoop remaining (i - 1) run

/-- `modify_buffer` -/
def modifyBuffer (ack last : Int) (run : BufferRun Elem) : Run (BufferRun Elem) := do
  let run ← releaseLoop (ack + 1).toNat run
  let run ← shiftLoop ack (last - ack).toNat 0 run
  clearLoop (ack + 1).toNat last run

end BufferRun

/-- `get_ack_position` -/
def getAckPosition (lastSeqnumSend seqnumValidated pointeurLastSend : Int) : Int :=
  if lastSeqnumSend ≥ seqnumValidated then
    pointeurLastSend - (lastSeqnumSend - seqnumValidated)
  else pointeurLastSend - lastSeqnumSend - (256 - seqnumValidated)

/-! ## Positions -/

/-- Both formulas count back from the last sent packet, modulo 256. The number before
the first is -1 for an acknowledgement and for the last sent one, and 255 otherwise. -/
theorem getAckPosition_exact (sent validated last : Int) (apart : validated - sent ≤ 256)
    (close : sent - validated < 256) :
    getAckPosition sent validated last = last - (sent - validated) % 256 := by
  unfold getAckPosition
  split <;> omega

/-- The position of an acknowledgement of all numbers before `number`. -/
theorem ack_position (seqnum number : Nat) (last : Int) (next : seqnum < 256)
    (small : number < 256) :
    getAckPosition (seqnum - 1) (number - 1) last = last - ((seqnum : Int) - number) % 256 := by
  rw [getAckPosition_exact _ _ _ (by omega) (by omega)]
  congr 2
  omega

/-- The position of the packet with number `number`. -/
theorem nack_position (seqnum number : Nat) (last : Int) (next : seqnum < 256)
    (small : number < 256) :
    getAckPosition (seqnum - 1) number last = last - ((seqnum : Int) - 1 - number) % 256 :=
  getAckPosition_exact _ _ _ (by omega) (by omega)

/-! ## The three loops -/

namespace BufferRun

variable {Elem : Type}

/-- One array use continues another, accessing only indices below `bound`. -/
def Continues (bound : Nat) (before after : BufferRun Elem) : Prop :=
  after.slots.length = before.slots.length ∧
    ∃ log, after.touched = before.touched ++ log ∧ ∀ i ∈ log, 0 ≤ i ∧ i < bound

/-- To access nothing is to go on. -/
theorem continues_refl (bound : Nat) (run : BufferRun Elem) : Continues bound run run :=
  ⟨rfl, [], by simp, by simp⟩

/-- What continues a continuation continues the first. -/
theorem continues_trans {bound : Nat} {first second third : BufferRun Elem}
    (front : Continues bound first second) (back : Continues bound second third) :
    Continues bound first third := by
  obtain ⟨sameSize, log, extended, inside⟩ := front
  obtain ⟨againSize, more, further, within⟩ := back
  refine ⟨againSize.trans sameSize, log ++ more, by rw [further, extended, List.append_assoc], ?_⟩
  intro i listed
  exact (List.mem_append.mp listed).elim (inside i) (within i)

/-- A read inside the array returns the slot and is recorded. -/
theorem fetch_inside (run : BufferRun Elem) (i : Nat) (inside : i < run.slots.length) :
    run.fetch i = .ok (slot run.slots i, { run with touched := run.touched ++ [(i : Int)] }) := by
  rw [fetch, if_pos (by omega), Int.toNat_natCast]

/-- A write inside the array replaces the slot and is recorded. -/
theorem assign_inside (run : BufferRun Elem) (i : Nat) (entry : Option Elem)
    (inside : i < run.slots.length) :
    run.assign i entry = .ok { run with
      slots := run.slots.set i entry
      touched := run.touched ++ [(i : Int)] } := by
  rw [assign, if_pos (by omega), Int.toNat_natCast]

/-- The first loop releases the entries of the front, from the last one down, and
empties their slots. -/
theorem releaseLoop_exact (dropped : List Elem) (back : List (Option Elem)) (run : BufferRun Elem)
    (bound : Nat) (front : run.slots = dropped.map some ++ back) (within : dropped.length ≤ bound) :
    ∃ after, releaseLoop dropped.length run = .ok after ∧
      after.slots = List.replicate dropped.length none ++ back ∧
      after.released = run.released ++ dropped.reverse ∧ Continues bound run after := by
  induction dropped using List.reverseRecOn generalizing back run with
  | nil => exact ⟨run, rfl, front, by simp, continues_refl bound run⟩
  | append_singleton dropped entry inductionHypothesis =>
    simp only [List.length_append, List.length_singleton] at within ⊢
    rw [List.map_append, List.append_assoc] at front
    have inside : dropped.length < run.slots.length := by rw [front]; simp
    have found : slot run.slots dropped.length = some entry := by
      rw [front, List.map_cons, List.map_nil, List.singleton_append, slot_items_append,
        if_neg (Nat.lt_irrefl _), Nat.sub_self]
      rfl
    have emptied : run.slots.set dropped.length none = dropped.map some ++ (none :: back) := by
      rw [front, List.map_cons, List.map_nil, List.singleton_append, set_items]
    obtain ⟨after, rest, slots, released, continues⟩ := inductionHypothesis (none :: back)
      { slots := run.slots.set dropped.length none
        released := run.released ++ [entry]
        touched := run.touched ++ [(dropped.length : Int)] ++ [(dropped.length : Int)] }
      emptied (by omega)
    refine ⟨after, ?_, ?_, ?_, ?_⟩
    · rw [releaseLoop, fetch_inside run _ inside, found]
      simp only [bind, Except.bind]
      rw [assign_inside _ _ _ (by simpa using inside)]
      exact rest
    · rw [slots, List.replicate_succ', List.append_assoc]
      rfl
    · rw [released, List.reverse_append, List.append_assoc]
      rfl
    · refine continues_trans ⟨by simp,
        [(dropped.length : Int), (dropped.length : Int)], by simp, ?_⟩ continues
      intro i listed
      simp only [List.mem_cons, List.not_mem_nil, or_false, or_self] at listed
      omega

/-- The second loop moves the entries behind the front down. -/
theorem shiftLoop_exact (count : Nat) (remaining i : Nat) (run : BufferRun Elem) (bound : Nat)
    (within : count + i + remaining ≤ bound) (whole : bound ≤ run.slots.length) :
    ∃ after, shiftLoop (count - 1 : Int) remaining i run = .ok after ∧
      after.slots = moveDown count remaining i run.slots ∧ after.released = run.released ∧
      Continues bound run after := by
  induction remaining generalizing i run with
  | zero => exact ⟨run, rfl, rfl, rfl, continues_refl bound run⟩
  | succ remaining inductionHypothesis =>
    have source : (count - 1 : Int) + 1 + i = ((i + count : Nat) : Int) := by omega
    obtain ⟨after, rest, slots, released, continues⟩ := inductionHypothesis (i + 1)
      { run with
        slots := run.slots.set i (slot run.slots (i + count))
        touched := run.touched ++ [((i + count : Nat) : Int)] ++ [(i : Int)] }
      (by omega) (by simpa using whole)
    refine ⟨after, ?_, slots, released, ?_⟩
    · rw [shiftLoop, source, fetch_inside run _ (by omega)]
      simp only [bind, Except.bind]
      rw [assign_inside _ i _ (by simp only; omega)]
      exact rest
    · refine continues_trans ⟨by simp, [((i + count : Nat) : Int), (i : Int)],
        by simp, ?_⟩ continues
      intro j listed
      simp only [List.mem_cons, List.not_mem_nil, or_false] at listed
      omega

/-- The third loop empties `remaining` slots, down to the one at `low`. -/
theorem clearLoop_exact (low remaining : Nat) (run : BufferRun Elem) (bound : Nat)
    (within : low + remaining ≤ bound) (whole : bound ≤ run.slots.length) :
    ∃ after, clearLoop remaining (low + remaining - 1 : Int) run = .ok after ∧
      (∀ tested, slot after.slots tested =
        if low ≤ tested ∧ tested < low + remaining then none else slot run.slots tested) ∧
      after.released = run.released ∧ Continues bound run after := by
  induction remaining generalizing run with
  | zero =>
    refine ⟨run, rfl, fun tested => ?_, rfl, continues_refl bound run⟩
    rw [if_neg (by omega)]
  | succ remaining inductionHypothesis =>
    have top : (low + (remaining + 1 : Nat) - 1 : Int) = ((low + remaining : Nat) : Int) := by omega
    have next : ((low + remaining : Nat) : Int) - 1 = low + remaining - 1 := by omega
    have inside : low + remaining < run.slots.length := by omega
    obtain ⟨after, rest, slots, released, continues⟩ := inductionHypothesis
      { run with
        slots := run.slots.set (low + remaining) none
        touched := run.touched ++ [((low + remaining : Nat) : Int)] }
      (by omega) (by simpa using whole)
    refine ⟨after, ?_, ?_, released, ?_⟩
    · rw [clearLoop, top, assign_inside run _ _ inside]
      simp only [bind, Except.bind, next]
      exact rest
    · intro tested
      rw [slots, slot_set _ _ _ _ inside]
      by_cases highest : tested = low + remaining
      · rw [if_neg (by omega), if_pos highest, if_pos (by omega)]
      · by_cases between : low ≤ tested ∧ tested < low + remaining
        · rw [if_pos between, if_pos (by omega)]
        · rw [if_neg between, if_neg highest, if_neg (by omega)]
    · refine continues_trans ⟨by simp, [((low + remaining : Nat) : Int)], rfl, ?_⟩ continues
      intro i listed
      simp only [List.mem_singleton] at listed
      omega

/-- `modify_buffer` on an array whose first entries are `dropped` and then `kept`: it
releases the dropped ones, moves the kept ones to the front, empties as many slots
behind them, and leaves the rest of the array alone. -/
theorem modifyBuffer_exact (dropped kept : List Elem) (rest : List (Option Elem))
    (run : BufferRun Elem) (front : run.slots = (dropped ++ kept).map some ++ rest) :
    ∃ after,
      modifyBuffer (dropped.length - 1 : Int) ((dropped ++ kept).length - 1 : Int) run = .ok after ∧
      after.slots = kept.map some ++ List.replicate dropped.length none ++ rest ∧
      after.released = run.released ++ dropped.reverse ∧
      Continues (dropped ++ kept).length run after := by
  have size : run.slots.length = dropped.length + kept.length + rest.length := by
    rw [front]
    simp [Nat.add_assoc]
  have first : ((dropped.length - 1 : Int) + 1).toNat = dropped.length := by omega
  have second : (((dropped ++ kept).length - 1 : Int) - (dropped.length - 1)).toNat =
      kept.length := by
    simp only [List.length_append]
    omega
  have third : ((dropped ++ kept).length - 1 : Int) = kept.length + dropped.length - 1 := by
    simp only [List.length_append]
    omega
  rw [List.map_append, List.append_assoc] at front
  obtain ⟨emptied, releases, emptiedSlots, released, emptying⟩ := releaseLoop_exact dropped
    (kept.map some ++ rest) run (dropped ++ kept).length front (by simp)
  have emptiedSize := emptying.1
  obtain ⟨moved, shifts, movedSlots, movedReleased, moving⟩ := shiftLoop_exact dropped.length
    kept.length 0 emptied (dropped ++ kept).length (by simp) (by simp; omega)
  have movedSize := moving.1
  obtain ⟨after, clears, clearedSlots, clearedReleased, clearing⟩ := clearLoop_exact kept.length
    dropped.length moved (dropped ++ kept).length (by simp; omega) (by simp; omega)
  have afterSize := clearing.1
  refine ⟨after, ?_, ?_, by rw [clearedReleased, movedReleased, released],
    continues_trans emptying (continues_trans moving clearing)⟩
  · rw [modifyBuffer, first, second, third, releases]
    simp only [bind, Except.bind]
    rw [show (0 : Int) = ((0 : Nat) : Int) from rfl, shifts]
    exact clears
  · apply slots_ext
    · simp only [List.length_append, List.length_map, List.length_replicate]
      omega
    · intro index inside
      rw [clearedSlots, movedSlots, moveDown_slot _ _ _ _ _ (by omega), emptiedSlots,
        slot_replicate_append, slot_replicate_append]
      simp only [List.append_assoc, slot_items_append, slot_replicate_append]
      by_cases low : index < kept.length
      · rw [if_neg (by omega), if_pos (by omega), if_neg (by omega), if_pos (by omega),
          if_pos low, Nat.add_sub_cancel]
      · by_cases middle : index < kept.length + dropped.length
        · rw [if_pos (by omega), if_neg low, if_pos (by omega)]
        · rw [if_neg (by omega), if_neg (by omega), if_neg (by omega), if_neg (by omega),
            if_neg low, if_neg (by omega)]
          congr 1
          omega

/-! ## The acknowledged prefix -/

/-- The array without its slots up to `ack`, when the last one in use was `last`. -/
structure PrefixDropped (slots : List (Option Elem)) (ack last : Int) (after : BufferRun Elem) :
    Prop where
  /-- once each, the pointers up to `ack`, from the last one down -/
  released : after.released.map some = (slots.take (ack + 1).toNat).reverse
  size : after.slots.length = slots.length
  moved : ∀ i : Nat, i < last - ack → slot after.slots i = slot slots (ack + 1 + i).toNat
  cleared : ∀ i : Nat, last - ack ≤ i → i ≤ last → slot after.slots i = none
  beyond : ∀ i : Nat, last < i → slot after.slots i = slot slots i
  touched : ∀ i ∈ after.touched, 0 ≤ i ∧ i ≤ last

/-- `modify_buffer` drops the acknowledged prefix of every array, for all positions it
may be called with, and accesses no other slot than those in use.

The first loop releases the prefix, the second moves the rest down by its length, and the
third empties what is left behind. Each has an exact lemma, and the slots are compared by
the part of the array they are in. -/
theorem modifyBuffer_drops_acknowledged (slots : List (Option Elem)) (ack last : Int) (low : -1 ≤ ack)
    (order : ack ≤ last) (inside : last < slots.length)
    (occupied : ∀ i : Nat, i ≤ last → slot slots i ≠ none) :
    ∃ after, modifyBuffer ack last ⟨slots, [], []⟩ = .ok after ∧
      PrefixDropped slots ack last after := by
  obtain ⟨items, counted, front⟩ := occupied_front slots (last + 1).toNat (by omega)
    (fun i below => occupied i (by omega))
  obtain ⟨dropped, kept, rfl, cut⟩ : ∃ dropped kept, items = dropped ++ kept ∧
      dropped.length = (ack + 1).toNat := by
    refine ⟨items.take (ack + 1).toNat, items.drop (ack + 1).toNat, ?_, ?_⟩
    · exact (List.take_append_drop ..).symm
    · rw [List.length_take]
      omega
  obtain ⟨after, modifies, remaining, released, sameSize, log, extended, within⟩ :=
    modifyBuffer_exact dropped kept (slots.drop (last + 1).toNat) ⟨slots, [], []⟩ front
  have ackPosition : (dropped.length - 1 : Int) = ack := by omega
  have lastPosition : ((dropped ++ kept).length - 1 : Int) = last := by omega
  rw [ackPosition, lastPosition] at modifies
  rw [List.length_append] at counted
  -- what the slots hold before and after, by the part of the array they are in
  have earlier (i : Nat) : slot slots i =
      if i < dropped.length + kept.length then (dropped ++ kept)[i]?
      else slot (slots.drop (last + 1).toNat) (i - (dropped.length + kept.length)) := by
    conv_lhs => rw [front]
    rw [slot_items_append, List.length_append]
  have later (i : Nat) : slot after.slots i =
      if i < kept.length then kept[i]?
      else if i < kept.length + dropped.length then none
      else slot (slots.drop (last + 1).toNat) (i - (kept.length + dropped.length)) := by
    rw [remaining, List.append_assoc, slot_items_append, slot_replicate_append]
    by_cases first : i < kept.length
    · rw [if_pos first, if_pos first]
    · rw [if_neg first, if_neg first]
      by_cases second : i < kept.length + dropped.length
      · rw [if_pos (by omega), if_pos second]
      · rw [if_neg (by omega), if_neg second, Nat.sub_sub]
  refine ⟨after, modifies, ?_, sameSize, ?_, ?_, ?_, ?_⟩
  · rw [released, List.nil_append, List.map_reverse, front, ← cut, List.map_append,
      List.append_assoc]
    congr 1
    exact (List.take_left' (List.length_map ..)).symm
  · intro i below
    have source : (ack + 1 + i).toNat = dropped.length + i := by omega
    rw [later, if_pos (by omega), source, earlier, if_pos (by omega),
      List.getElem?_append_right (Nat.le_add_right ..), Nat.add_sub_cancel_left]
  · intro i above upTo
    rw [later, if_neg (by omega), if_pos (by omega)]
  · intro i behind
    rw [later, earlier, if_neg (by omega), if_neg (by omega), if_neg (by omega)]
    congr 1
    omega
  · intro i listed
    rw [extended, List.nil_append] at listed
    have bounds := within i listed
    omega

/-- Twenty slots of thirty-one in use, the first twelve acknowledged: the slots of the
numbers from 12 on move to the front. -/
theorem modifyBuffer_drops_twelve : ∃ after,
    modifyBuffer 11 19 ⟨packed 31 (List.range 20), [], []⟩ = .ok after ∧
      PrefixDropped (packed 31 (List.range 20)) 11 19 after := by
  apply modifyBuffer_drops_acknowledged
  case low => decide
  case order => decide
  case inside => decide
  case occupied =>
    intro i upTo
    rw [slot_packed, List.getElem?_range (by omega)]
    exact Option.some_ne_none i

/-! ## The size of the array

Wherever the positions lead, an array that is still in use has the size it had. -/

/-- Reads keep the size of the array, -/
theorem fetch_size {run next : BufferRun Elem} {i : Int} {entry : Option Elem}
    (fetches : run.fetch i = .ok (entry, next)) : next.slots.length = run.slots.length := by
  rw [fetch] at fetches
  split at fetches
  · cases fetches
    rfl
  · cases fetches

/-- as do writes, -/
theorem assign_size {run next : BufferRun Elem} {i : Int} {entry : Option Elem}
    (assigns : run.assign i entry = .ok next) : next.slots.length = run.slots.length := by
  rw [assign] at assigns
  split at assigns
  · cases assigns
    exact List.length_set
  · cases assigns

/-- the loop that releases, -/
theorem releaseLoop_size (count : Nat) {run next : BufferRun Elem}
    (ends : releaseLoop count run = .ok next) : next.slots.length = run.slots.length := by
  induction count generalizing run with
  | zero =>
    cases ends
    rfl
  | succ i inductionHypothesis =>
    rw [releaseLoop] at ends
    obtain ⟨⟨entry, fetched⟩, fetches, ends⟩ := run_bind ends
    cases entry with
    | none => cases ends
    | some entry =>
      obtain ⟨emptied, assigns, ends⟩ := run_bind ends
      have size := assign_size assigns
      have same := fetch_size fetches
      exact (inductionHypothesis ends).trans (size.trans same)

/-- the loop that moves down, -/
theorem shiftLoop_size (ack : Int) (remaining : Nat) (i : Int) {run next : BufferRun Elem}
    (ends : shiftLoop ack remaining i run = .ok next) : next.slots.length = run.slots.length := by
  induction remaining generalizing i run with
  | zero =>
    cases ends
    rfl
  | succ remaining inductionHypothesis =>
    rw [shiftLoop] at ends
    obtain ⟨⟨entry, fetched⟩, fetches, ends⟩ := run_bind ends
    obtain ⟨copied, assigns, ends⟩ := run_bind ends
    rw [inductionHypothesis (i + 1) ends, assign_size assigns, fetch_size fetches]

/-- the loop that clears, -/
theorem clearLoop_size (remaining : Nat) (i : Int) {run next : BufferRun Elem}
    (ends : clearLoop remaining i run = .ok next) : next.slots.length = run.slots.length := by
  induction remaining generalizing i run with
  | zero =>
    cases ends
    rfl
  | succ remaining inductionHypothesis =>
    rw [clearLoop] at ends
    obtain ⟨emptied, assigns, ends⟩ := run_bind ends
    rw [inductionHypothesis (i - 1) ends, assign_size assigns]

/-- and all of `modify_buffer`. -/
theorem modifyBuffer_size (ack last : Int) {run next : BufferRun Elem}
    (ends : modifyBuffer ack last run = .ok next) : next.slots.length = run.slots.length := by
  rw [modifyBuffer] at ends
  obtain ⟨emptied, releases, ends⟩ := run_bind ends
  obtain ⟨moved, shifts, clears⟩ := run_bind ends
  rw [clearLoop_size _ _ clears, shiftLoop_size _ _ _ shifts, releaseLoop_size _ releases]

end BufferRun

end SelectiveRepeat
