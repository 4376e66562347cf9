import SelectiveRepeat.Receiver.Refinement

/-!
# What the acknowledgements say

An acknowledgement carries the number of payloads written when it is sent, and a
negative one the number of a datagram that arrived cut. Both are read back by the
peer as they were meant, whatever memory and struct it decodes into.

Everything is read off the trace of events: the trace of a run is sound, and the
numbers on its acknowledgements are the counts of the writes in front of them.
-/

namespace SelectiveRepeat

open PackedSlots CyclicNumbers Reassembly

/-- One of the 31 numbers after `lastack`. -/
def AfterLastack (lastack number : Nat) : Prop :=
  ∃ offset, 1 ≤ offset ∧ offset ≤ 31 ∧ number = (lastack + offset) % 256

variable {Ref : Type}

/-! ## Sound traces -/

/-- How many payloads were written when each acknowledgement was sent, after `before`
earlier ones: the acknowledged numbers without the wrap. -/
def ackNumbers : Nat → List (Event Ref) → List Nat
  | _, [] => []
  | before, .writePayload _ :: rest => ackNumbers (before + 1) rest
  | before, .sendAck _ _ :: rest => before :: ackNumbers before rest
  | before, .sendNack _ _ :: rest => ackNumbers before rest
  | before, .pktDel _ :: rest => ackNumbers before rest
  | before, .free _ :: rest => ackNumbers before rest

/-- The numbers acknowledged in a pass are not below the writes before it. -/
theorem ackNumbers_le (before number : Nat) (events : List (Event Ref))
    (listed : number ∈ ackNumbers before events) : before ≤ number := by
  induction events generalizing before with
  | nil => simp [ackNumbers] at listed
  | cons event rest inductionHypothesis =>
    cases event with
    | writePayload payload =>
      have later := inductionHypothesis (before + 1) listed
      omega
    | sendAck datagram slots =>
      rcases List.mem_cons.mp listed with same | later
      · omega
      · exact inductionHypothesis before later
    | sendNack datagram slots => exact inductionHypothesis before listed
    | pktDel pkt => exact inductionHypothesis before listed
    | free pkt => exact inductionHypothesis before listed

/-- Counted without wrap, the acknowledged numbers never decrease. -/
theorem ackNumbers_sorted (before : Nat) (events : List (Event Ref)) :
    (ackNumbers before events).Pairwise (· ≤ ·) := by
  induction events generalizing before with
  | nil => exact List.Pairwise.nil
  | cons event rest inductionHypothesis =>
    cases event with
    | writePayload payload => exact inductionHypothesis (before + 1)
    | sendAck datagram slots =>
      exact List.Pairwise.cons (fun number listed => ackNumbers_le before number rest listed)
        (inductionHypothesis before)
    | sendNack datagram slots => exact inductionHypothesis before
    | pktDel pkt => exact inductionHypothesis before
    | free pkt => exact inductionHypothesis before

/-- The acknowledgements of a sound trace announce these counts, modulo 256. -/
theorem sound_numbers (host : Host) {before after : Nat} {events : List (Event Ref)}
    (sound : Sound host before events after) :
    List.Forall₂ (fun number datagram => ∃ window,
      Announces host datagram ptypeAck (number % 256) window)
      (ackNumbers before events) (acks events) := by
  induction events generalizing before with
  | nil => exact List.Forall₂.nil
  | cons event rest inductionHypothesis =>
    cases event with
    | writePayload payload => exact inductionHypothesis sound
    | sendAck datagram slots =>
      obtain ⟨⟨bounded, rfl⟩, tail⟩ := sound
      exact List.Forall₂.cons ⟨_, announces_ack host _ _ bounded.2⟩ (inductionHypothesis tail)
    | sendNack datagram slots => exact inductionHypothesis sound.2
    | pktDel pkt => exact inductionHypothesis sound
    | free pkt => exact inductionHypothesis sound

/-- A sound trace counts its writes. -/
theorem sound_count (host : Host) {before after : Nat} {events : List (Event Ref)}
    (sound : Sound host before events after) : after = before + (payloads events).length := by
  induction events generalizing before with
  | nil => exact sound.symm
  | cons event rest inductionHypothesis =>
    cases event with
    | writePayload payload =>
      have counted := inductionHypothesis sound
      simp only [payloads, List.filterMap_cons, List.length_cons] at counted ⊢
      omega
    | sendAck datagram slots => exact inductionHypothesis sound.2
    | sendNack datagram slots => exact inductionHypothesis sound.2
    | pktDel pkt => exact inductionHypothesis sound
    | free pkt => exact inductionHypothesis sound

/-- Cutting a sound trace in two. -/
theorem sound_split (host : Host) {before after : Nat} (front back : List (Event Ref))
    (sound : Sound host before (front ++ back) after) :
    Sound host before front (before + (payloads front).length) ∧
      Sound host (before + (payloads front).length) back after := by
  induction front generalizing before with
  | nil => exact ⟨rfl, sound⟩
  | cons event rest inductionHypothesis =>
    cases event with
    | writePayload payload =>
      have split := inductionHypothesis sound
      rw [Nat.add_assoc, Nat.add_comm 1] at split
      exact split
    | sendAck datagram slots =>
      obtain ⟨first, second⟩ := inductionHypothesis sound.2
      exact ⟨⟨sound.1, first⟩, second⟩
    | sendNack datagram slots =>
      obtain ⟨first, second⟩ := inductionHypothesis sound.2
      exact ⟨⟨sound.1, first⟩, second⟩
    | pktDel pkt => exact inductionHypothesis sound
    | free pkt => exact inductionHypothesis sound

/-- An acknowledgement of a sound trace announces the writes in front of it and the
slots that are free when it is sent. -/
theorem sound_ack (host : Host) {before after : Nat} {front back : List (Event Ref)}
    {datagram : List Byte} {slots : List (Option Ref)}
    (sound : Sound host before (front ++ .sendAck datagram slots :: back) after) :
    Announces host datagram ptypeAck ((before + (payloads front).length) % 256)
      (freeSlots slots) := by
  obtain ⟨_, ⟨bounded, rfl⟩, _⟩ := sound_split host front _ sound
  exact announces_ack host _ _ bounded.2

/-- In a sound trace every negative acknowledgement is one for the peer too, and announces the
slots that are free when it is sent. -/
theorem sound_nack (host : Host) {before after : Nat} {front back : List (Event Ref)}
    {datagram : List Byte} {slots : List (Option Ref)}
    (sound : Sound host before (front ++ .sendNack datagram slots :: back) after) :
    ∃ number, Announces host datagram ptypeNack number (freeSlots slots) := by
  obtain ⟨_, ⟨bounded, number, rfl⟩, _⟩ := sound_split host front _ sound
  exact ⟨_, announces_nack host number _ bounded.2⟩

/-- The negative answers of a pass are those among its events. -/
theorem mem_nacks (datagram : List Byte) (events : List (Event Ref)) :
    datagram ∈ nacks events ↔ ∃ slots, Event.sendNack datagram slots ∈ events := by
  rw [nacks, List.mem_filterMap]
  constructor
  · rintro ⟨event, listed, sent⟩
    cases event with
    | sendNack other slots =>
      obtain rfl : other = datagram := by simpa using sent
      exact ⟨slots, listed⟩
    | _ => simp at sent
  · rintro ⟨slots, listed⟩
    exact ⟨_, listed, rfl⟩

/-! ## The answers of a pass -/

/-- The answers of a pass on what `read` returned, when `written` payloads were written
before it and `lastack` has the value the pass starts with. -/
structure Answers (host : Host) (written lastack : Nat) (result : Option (List Byte))
    (events : List (Event Ref)) : Prop where
  /-- every acknowledgement has the number of writes so far and the free slots -/
  acks : ∀ front datagram slots back, events = front ++ .sendAck datagram slots :: back →
    Announces host datagram ptypeAck ((written + (payloads front).length) % 256) (freeSlots slots)
  /-- a delivery is followed by an acknowledgement of everything delivered -/
  closing : payloads events ≠ [] → ∃ front datagram slots,
    events = front ++ [.sendAck datagram slots] ∧ payloads front = payloads events
  quiet : payloads events = [] → SelectiveRepeat.acks events = []
  /-- every negative acknowledgement is one too, with a number and the free slots -/
  nacks : ∀ datagram slots, .sendNack datagram slots ∈ events →
    ∃ number, Announces host datagram ptypeNack number (freeSlots slots)
  /-- it is sent for a cut datagram of the window, with its number, and for no other -/
  refusal : ∀ number, (∃ datagram slots, .sendNack datagram slots ∈ events ∧
      Announces host datagram ptypeNack number (freeSlots slots)) ↔
    cutNumber result = some number ∧ AfterLastack lastack number
  single : (SelectiveRepeat.nacks events).length ≤ 1

variable {deref : Ref → Pkt}

/-- The number read from a cut datagram is a byte. -/
theorem cutNumber_bounded {result : Option (List Byte)} {number : Nat}
    (cut : cutNumber result = some number) : number < 256 := by
  unfold cutNumber at cut
  split at cut
  · rename_i second _ _
    obtain rfl := Option.some.inj cut
    exact second.isLt
  · simp at cut

/-- The 31 numbers after `lastack` are those at a distance below 31. -/
theorem Represents.afterLastack {before : Reassembly31} {state : RecvState Ref}
    (represents : Represents deref before state) {number : Nat} (bounded : number < 256) :
    AfterLastack state.lastack number ↔ distance 256 before.delivered number < 31 := by
  have shifted (offset : Nat) : (state.lastack + (offset + 1)) % 256 =
      (before.delivered + offset) % 256 := by
    rw [represents.lastack]
    omega
  constructor
  · rintro ⟨offset, low, high, rfl⟩
    obtain ⟨less, rfl⟩ : ∃ less, offset = less + 1 := ⟨offset - 1, by omega⟩
    rw [shifted, distance_offset (by decide)]
    omega
  · intro near
    refine ⟨distance 256 before.delivered number + 1, by omega, by omega, ?_⟩
    rw [shifted, start_add_distance (by decide), Nat.mod_eq_of_lt bounded]

/-- The answers of a pass, put together from its sound trace: the acknowledgements by their place
in it, the negative one by the datagram it answers. -/
theorem Passed.answers {host : Host} {before after : Reassembly31} {state next : RecvState Ref}
    {events : List (Event Ref)} (represents : Represents deref before state)
    (passed : Passed deref host before after next events) (result : Option (List Byte))
    (sent : SelectiveRepeat.nacks events =
      ((refused before result).map fun number => nackDatagram host number
        (31 - before.count)).toList) :
    Answers host before.delivered state.lastack result events := by
  have sound := passed.sound
  refine ⟨?_, ?_, passed.quiet, ?_, ?_, ?_⟩
  · rintro front datagram slots back rfl
    exact sound_ack host sound
  · intro delivered
    obtain ⟨front, datagram, slots, rfl⟩ := passed.closes delivered
    exact ⟨front, datagram, slots, rfl, by simp [payloads]⟩
  · intro datagram slots listed
    obtain ⟨front, back, rfl⟩ := List.append_of_mem listed
    exact sound_nack host sound
  · intro number
    constructor
    · rintro ⟨datagram, slots, listed, announces⟩
      have emitted := (mem_nacks datagram events).mpr ⟨slots, listed⟩
      rw [sent, Option.mem_toList, Option.map_eq_some_iff] at emitted
      obtain ⟨refusedNumber, refusal, rfl⟩ := emitted
      obtain ⟨cut, near⟩ := Option.filter_eq_some_iff.mp refusal
      have bounded := cutNumber_bounded cut
      have same := announces_number host (announces_nack host refusedNumber _ (by omega)) announces
      rw [Nat.mod_eq_of_lt bounded] at same
      subst same
      exact ⟨cut, (represents.afterLastack bounded).mpr (by simpa using near)⟩
    · rintro ⟨cut, near⟩
      have bounded := cutNumber_bounded cut
      have refusal : refused before result = some number :=
        Option.filter_eq_some_iff.mpr ⟨cut,
          by simpa using (represents.afterLastack bounded).mp near⟩
      have emitted : nackDatagram host number (31 - before.count) ∈
          SelectiveRepeat.nacks events := by
        rw [sent, refusal]
        exact List.mem_singleton.mpr rfl
      obtain ⟨slots, listed⟩ := (mem_nacks _ events).mp emitted
      obtain ⟨front, back, split⟩ := List.append_of_mem listed
      rw [split] at sound
      obtain ⟨other, announces⟩ := sound_nack host sound
      have same := announces_number host announces
        (announces_nack host number (31 - before.count) (by omega))
      rw [Nat.mod_eq_of_lt bounded] at same
      exact ⟨_, slots, listed, same ▸ announces⟩
  · rw [sent]
    cases refused before result <;> simp

/-! ## Runs -/

/-- Over a whole run every acknowledgement has the number of payloads written when it
is sent, modulo 256, and advertises the free slots; counted without wrap the numbers
never decrease; and the answers of the next pass, whatever it reads, are as they
should be.

The passes of a run form one sound trace, in which each acknowledgement counts the writes
in front of it. The next pass is judged in the state that the run ends in. -/
theorem selRepeatRead_acknowledges (host : Host) (arrivals : List Arrival) (junk : Nat → Byte) :
    ∃ state passes, selRepeatRead host arrivals (recvStart Pkt junk) = .ok (state, passes) ∧
      (∀ front datagram slots back,
        passes.flatten = front ++ .sendAck datagram slots :: back →
        Announces host datagram ptypeAck ((payloads front).length % 256) (freeSlots slots)) ∧
      List.Forall₂ (fun number datagram => ∃ window,
          Announces host datagram ptypeAck (number % 256) window)
        (ackNumbers 0 passes.flatten) (acks passes.flatten) ∧
      (ackNumbers 0 passes.flatten).Pairwise (· ≤ ·) ∧
      ∀ arrival : Arrival, ∃ next events,
        selRepeatReadBody id host Allocator.values arrival.ambient arrival.result state =
          .ok (next, events) ∧
        Answers host (payloads passes.flatten).length state.lastack arrival.result events := by
  obtain ⟨state, passes, runs, represents, output, sound⟩ :=
    selRepeatRead_runs host arrivals (represents_start junk)
  refine ⟨state, passes, runs, ?_, sound_numbers host sound, ackNumbers_sorted _ _, ?_⟩
  · intro front datagram slots back split
    rw [split] at sound
    have announced := sound_ack host sound
    rwa [show (start 31 (List Byte)).delivered = 0 from rfl, Nat.zero_add] at announced
  · intro arrival
    obtain ⟨next, events, handles, passed, sent⟩ := selRepeatReadBody_passes host Allocator.values
      arrival.ambient arrival.result represents
    have counted := sound_count host sound
    rw [show (start 31 (List Byte)).delivered = 0 from rfl, Nat.zero_add] at counted
    exact ⟨next, events, handles, counted ▸ passed.answers represents arrival.result sent⟩

end SelectiveRepeat
