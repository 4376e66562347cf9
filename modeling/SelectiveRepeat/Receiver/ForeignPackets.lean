import SelectiveRepeat.Packet.Answers
import SelectiveRepeat.Receiver.Ownership

/-!
# Packets that are not data

`sel_repeat_read` never looks at the type of a packet. An intact acknowledgement that
reaches it is therefore taken for data without a payload: in the place of the expected
packet it is delivered and acknowledged, and further ahead it occupies the slot of the
data packet with its number. It does no harm only where data would not either, that is
outside the window, or if a packet with its number is buffered.
-/

namespace SelectiveRepeat

open PackedSlots CyclicNumbers Reassembly

/-- A pass that writes nothing, sends no acknowledgement, and leaves the three locals
that say what was received. -/
def Undisturbed (state next : RecvState Pkt) (events : List (Event Pkt)) : Prop :=
  payloads events = [] ∧ acks events = [] ∧ next.lastack = state.lastack ∧
    next.receiveBuffer = state.receiveBuffer ∧ next.windowSize = state.windowSize

/-- The window test of the receiver, on a packet's number. -/
def InWindow (state : RecvState Pkt) (pkt : Pkt) : Prop :=
  compareSeqnums state.lastack (pktGetSeqnum pkt) (((state.lastack + 1) % 256 : Nat) : Int) <
    maxWindowSize

/-- A packet with this number is in the buffer. -/
def Buffered (state : RecvState Pkt) (pkt : Pkt) : Prop :=
  ∃ i entry, slot state.receiveBuffer i = some entry ∧ pktGetSeqnum entry = pktGetSeqnum pkt

/-- An intact packet of any type leaves the receiver alone exactly if it is outside the
window or a duplicate of a buffered one. -/
theorem Handled.undisturbed_iff {host : Host} {ambient : Ambient} {before : Reassembly31}
    {state last : RecvState Pkt} (represents : Represents id before state) {sduSize : Int}
    {pkt : Pkt} {events : List (Event Pkt)}
    (handled : Handled id host ambient .pktOk sduSize pkt state last events) :
    Undisturbed state (refreshed last) events ↔ ¬ InWindow state pkt ∨ Buffered state pkt := by
  have stored : Buffered state pkt ↔
      ∃ entry ∈ state.receiveBuffer.reduceOption, pktGetSeqnum entry = pktGetSeqnum pkt := by
    constructor
    · rintro ⟨i, entry, found, same⟩
      exact ⟨entry, (represents.mem_iff entry).mpr ⟨i, found⟩, same⟩
    · rintro ⟨entry, listed, same⟩
      obtain ⟨i, found⟩ := (represents.mem_iff entry).mp listed
      exact ⟨i, entry, found, same⟩
  cases handled with
  | outside far =>
    rw [represents.refreshed]
    exact iff_of_true ⟨rfl, rfl, rfl, rfl, rfl⟩ (.inl far)
  | cut near failed header sends => exact absurd rfl failed
  | damaged near failed whole => exact absurd rfl failed
  | expected near decoded next drains =>
    -- its payload is written, and no buffered packet has the expected number
    apply iff_of_false
    · rintro ⟨silent, _⟩
      simp [payloads] at silent
    · rintro (far | ⟨i, entry, found, same⟩)
      · exact far near
      · exact represents.unexpected found (same.trans next)
  | duplicate near decoded other present =>
    rw [represents.refreshed]
    exact iff_of_true ⟨rfl, rfl, rfl, rfl, rfl⟩ (.inr (stored.mpr present))
  | added near decoded other absent fits permuted =>
    apply iff_of_false
    · rintro ⟨_, _, _, _, window⟩
      simp only [refreshed] at window
      omega
    · rintro (far | buffered)
      · exact far near
      · obtain ⟨entry, listed, same⟩ := stored.mp buffered
        exact absent entry listed same

/-- The same for a whole pass that decodes a packet without error. -/
theorem selRepeatReadBody_undisturbed_iff (host : Host) (ambient : Ambient)
    (result : Option (List Byte)) {before : Reassembly31} {state next : RecvState Pkt}
    (represents : Represents id before state) {pkt : Pkt} {events : List (Event Pkt)}
    (intact : decodedRead host ambient result state = (.pktOk, pkt))
    (passes : selRepeatReadBody id host Allocator.values ambient result state =
      .ok (next, events)) :
    Undisturbed state next events ↔ ¬ InWindow state pkt ∨ Buffered state pkt := by
  have cases := selRepeatReadBody_ends host Allocator.values ambient result represents passes
  rw [intact] at cases
  rcases cases with ⟨headless, _⟩ | ⟨_, last, rfl, handled⟩
  · cases headless
  · exact handled.undisturbed_iff (represents.read _)

/-- In every reached state, an intact packet of any type leaves the receiver alone exactly
if its number is outside the window or in the buffer. An acknowledgement, positive or
negative, is thus dropped exactly where a data packet with its number is.

The type is never read on the way, so that the packet is treated as data: a number outside
the window is ignored, a buffered one released by the insertion, and any other changes the
buffer or is delivered. -/
theorem foreign_packet_undisturbed_iff (host : Host) (state : RecvState Pkt)
    (reached : Reached host state) (ambient : Ambient) (result : Option (List Byte)) (pkt : Pkt)
    (intact : decodedRead host ambient result state = (.pktOk, pkt)) :
    ∃ next events, selRepeatReadBody id host Allocator.values ambient result state =
        .ok (next, events) ∧
      (Undisturbed state next events ↔ ¬ InWindow state pkt ∨ Buffered state pkt) := by
  obtain ⟨before, represents⟩ := reached.represents
  obtain ⟨next, events, passes, _⟩ :=
    selRepeatReadBody_passes host Allocator.values ambient result represents
  exact ⟨next, events, passes,
    selRepeatReadBody_undisturbed_iff host ambient result represents intact passes⟩

/-- A pass decodes the datagram of an answer without error, as its type and number. -/
theorem decodedRead_answer (host : Host) (type : BitVec 3) (number window : Nat)
    (known : type = 2 ∨ type = 4) (ambient : Ambient) (state : RecvState Pkt) :
    ∃ pkt : Pkt, decodedRead host ambient (some (wire host (answerPkt type number window))) state =
        (.pktOk, pkt) ∧ pkt.type = type ∧ pkt.seqnum = BitVec.ofNat 8 number := by
  have size := answer_length host type number window
  have fits : (wire host (answerPkt type number window)).length ≤ maxSduSize := by
    rw [size]
    decide
  obtain ⟨pkt, decoded, typed, _, numbered⟩ := decode_answer host type number window known _
    (holds_read maxSduSize _ state.pktBuffer fits) (pktNew (ambient.fresh 0))
  refine ⟨pkt, ?_, typed, numbered⟩
  rw [decodedRead, asSize_read maxSduSize _ fits (by omega), size]
  exact decoded

/-- The acknowledgement with number 0, read as the first datagram, is delivered. -/
theorem first_acknowledgement_disturbs :
    ¬ ∀ (state : RecvState Pkt) (ambient : Ambient) (datagram : List Byte) (pkt : Pkt),
      Reached zlibHost state →
      decodedRead zlibHost ambient (some datagram) state = (.pktOk, pkt) →
      pkt.type = 2 ∨ pkt.type = 4 →
      ∃ next events, selRepeatReadBody id zlibHost Allocator.values ambient (some datagram) state =
        .ok (next, events) ∧ Undisturbed state next events := by
  intro claimed
  have start : Reached zlibHost (recvStart Pkt fun _ => 0) := ⟨[], _, [], rfl⟩
  obtain ⟨pkt, intact, typed, numbered⟩ := decodedRead_answer zlibHost 2 0 31 (.inl rfl)
    quietAmbient (recvStart Pkt fun _ => 0)
  obtain ⟨next, events, passes, undisturbed⟩ := claimed _ _ _ pkt start intact (.inl typed)
  have dropped := (selRepeatReadBody_undisturbed_iff zlibHost _ _ (represents_start fun _ => 0)
    intact passes).mp undisturbed
  have number : pktGetSeqnum pkt = 0 := by rw [pktGetSeqnum, numbered]; rfl
  rcases dropped with outside | ⟨i, entry, found, _⟩
  · apply outside
    rw [InWindow, number]
    decide
  · rw [recvStart, ← packed_nil, slot_packed] at found
    simp at found

/-- The acknowledgement with number 100, read as the first datagram, does no harm. -/
theorem distant_acknowledgement_ignored :
    ∃ next events, selRepeatReadBody id zlibHost Allocator.values
        quietAmbient (some (ackDatagram zlibHost 100 31))
        (recvStart Pkt fun _ => 0) = .ok (next, events) ∧
      Undisturbed (recvStart Pkt fun _ => 0) next events := by
  obtain ⟨pkt, intact, _, numbered⟩ := decodedRead_answer zlibHost 2 100 31 (.inl rfl)
    quietAmbient (recvStart Pkt fun _ => 0)
  obtain ⟨next, events, passes, undisturbed⟩ := foreign_packet_undisturbed_iff zlibHost
    (recvStart Pkt fun _ => 0) ⟨[], _, [], rfl⟩ _ _ pkt intact
  have number : pktGetSeqnum pkt = 100 := by rw [pktGetSeqnum, numbered]; rfl
  have outside : ¬ InWindow (recvStart Pkt fun _ => 0) pkt := by
    rw [InWindow, number]
    decide
  exact ⟨next, events, passes, undisturbed.mpr (.inl outside)⟩

end SelectiveRepeat
