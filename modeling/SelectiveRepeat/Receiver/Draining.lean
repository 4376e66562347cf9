import SelectiveRepeat.Library.Reassembly
import SelectiveRepeat.Receiver.Loop

/-!
# The receiver as a reassembler, and its draining loop

The abstract receiver of a stream of payloads has delivered `r` of them and holds
later ones under their indices. The array of packet pointers, `lastack` and
`window_size` represent it: the array holds exactly the entries of the abstract
map, in increasing order of their indices and numbered modulo 256.

The draining loop writes the longest run of held packets behind the delivered one.
Its state before each index is described by the entries that are still to be
looked at, and the induction is on the number of indices the window allows.
-/

namespace SelectiveRepeat

open PackedSlots CyclicNumbers Reassembly

/-- The abstract receiver: payloads, and the window of 31 sequence numbers. -/
abbrev Reassembly31 := Reassembler 31 (List Byte)

variable {Ref : Type} (deref : Ref → Pkt)

/-- The number and the payload of a buffered packet. -/
def label (pkt : Ref) : Nat × List Byte := (pktGetSeqnum (deref pkt), (deref pkt).body)

/-- An abstract entry as it shows in the buffer. -/
def shown (entry : Nat × List Byte) : Nat × List Byte := (entry.1 % 256, entry.2)

/-- The buffer holds packets with these labels first, then NULLs. -/
def Holding (buffer : List (Option Ref)) (entries : List (Nat × List Byte)) : Prop :=
  ∃ items : List Ref, buffer = packed maxWindowSize items ∧
    items.map (label deref) = entries.map shown

/-- What is labelled alike is of one length. -/
theorem labels_length {deref : Ref → Pkt} {items : List Ref} {entries : List (Nat × List Byte)}
    (labels : items.map (label deref) = entries.map shown) : items.length = entries.length := by
  simpa using congrArg List.length labels

/-- The locals of the receiver represent an abstract receiver. -/
structure Represents (reassembler : Reassembly31) (state : RecvState Ref) : Prop where
  lastack : state.lastack = (reassembler.delivered + 255) % 256
  buffer : Holding deref state.receiveBuffer reassembler.entries
  window : state.windowSize = 31 - reassembler.count

/-- What `pkt_decode` accepts of a read: the number and the payload. -/
def acceptedPacket (host : Host) (result : Option (List Byte)) : Option (Nat × List Byte) :=
  match result with
  | none => none
  | some sdu =>
    let bytes := sdu.take maxSduSize
    match pktDecode host (fun i => (bytes[i]?).getD 0) bytes.length blankPkt with
    | (.pktOk, pkt) => some (pktGetSeqnum pkt, pkt.body)
    | _ => none

/-- The abstract pass: a rejected datagram changes nothing, and an accepted packet is
taken under the distance of its number from the number of deliveries. -/
def reassemble (reassembler : Reassembly31) (accepted : Option (Nat × List Byte)) : Reassembly31 :=
  match accepted with
  | none => reassembler
  | some (seqnum, payload) => reassembler.accept 256 seqnum payload

/-! ## Events -/

/-- The payloads written, in order. -/
def payloads (events : List (Event Ref)) : List (List Byte) :=
  events.filterMap fun
    | .writePayload payload => some payload
    | _ => none

/-- The acknowledgements sent, in order. -/
def acks (events : List (Event Ref)) : List (List Byte) :=
  events.filterMap fun
    | .sendAck datagram _ => some datagram
    | _ => none

/-- The negative acknowledgements sent, in order. -/
def nacks (events : List (Event Ref)) : List (List Byte) :=
  events.filterMap fun
    | .sendNack datagram _ => some datagram
    | _ => none

/-- The number of empty slots. -/
def freeSlots (slots : List (Option Ref)) : Nat := slots.countP Option.isNone

/-- A trace of events that starts after `before` deliveries and ends after `after`:
every acknowledgement carries the number of payloads written so far, and every
answer advertises the slots that are free when it is sent, which are never none. -/
def Sound (host : Host) : Nat → List (Event Ref) → Nat → Prop
  | before, [], after => before = after
  | before, .writePayload _ :: rest, after => Sound host (before + 1) rest after
  | before, .sendAck datagram slots :: rest, after =>
      ((1 ≤ freeSlots slots ∧ freeSlots slots ≤ 31) ∧
        datagram = ackDatagram host before (freeSlots slots)) ∧
        Sound host before rest after
  | before, .sendNack datagram slots :: rest, after =>
      ((1 ≤ freeSlots slots ∧ freeSlots slots ≤ 31) ∧
        ∃ number, datagram = nackDatagram host number (freeSlots slots)) ∧
        Sound host before rest after
  | before, .pktDel _ :: rest, after => Sound host before rest after
  | before, .free _ :: rest, after => Sound host before rest after

/-- Two sound traces, the second from where the first ends, make one. Induction on the first. -/
theorem sound_append (host : Host) (before middle after : Nat) (front back : List (Event Ref))
    (first : Sound host before front middle) (second : Sound host middle back after) :
    Sound host before (front ++ back) after := by
  induction front generalizing before with
  | nil => exact first ▸ second
  | cons event rest inductionHypothesis =>
    cases event with
    | writePayload payload => exact inductionHypothesis _ first
    | sendAck datagram slots => exact ⟨first.1, inductionHypothesis _ first.2⟩
    | sendNack datagram slots => exact ⟨first.1, inductionHypothesis _ first.2⟩
    | pktDel pkt => exact inductionHypothesis _ first
    | free pkt => exact inductionHypothesis _ first

/-! ## Draining -/

/-- An acknowledgement shows its number modulo 256. -/
theorem ackDatagram_mod (host : Host) (number window : Nat) :
    ackDatagram host (number % 256) window = ackDatagram host number window := by
  have same : BitVec.ofNat 8 (number % 256) = BitVec.ofNat 8 number := by
    apply BitVec.eq_of_toNat_eq
    simp
  simp only [ackDatagram, answerPkt, same]

/-- The state in the draining loop before index `i`: the packet with index `first`
is expected, and the `fuel` indices from it on are scanned for what is held. -/
structure Draining (held : Nat → Option (List Byte)) (i fuel first : Nat) (items : List Ref)
    (state : RecvState Ref) : Prop where
  lastack : state.lastack = (first + 255) % 256
  buffer : state.receiveBuffer = List.replicate i none ++ packed (maxWindowSize - i) items
  labels : items.map (label deref) = (scan held first fuel).map shown
  window : state.windowSize = ((31 - items.length : Nat) : Int)
  room : i + fuel = 30

variable {deref}

/-- No more is held than there are indices to scan. -/
theorem Draining.length {held : Nat → Option (List Byte)} {i fuel first : Nat} {items : List Ref}
    {state : RecvState Ref} (draining : Draining deref held i fuel first items state) :
    items.length ≤ fuel := by
  have same := congrArg List.length draining.labels
  simp only [List.length_map] at same
  rw [same]
  exact scan_length held first fuel

/-- All slots are empty but those of the packets still held. -/
theorem Draining.free {held : Nat → Option (List Byte)} {i fuel first : Nat} {items : List Ref}
    {state : RecvState Ref} (draining : Draining deref held i fuel first items state) :
    freeSlots state.receiveBuffer = 31 - items.length := by
  have short := draining.length
  have room := draining.room
  rw [draining.buffer, freeSlots, List.countP_append, packed_free]
  simp only [List.countP_replicate, Option.isNone_none, if_true, maxWindowSize]
  omega

/-- Slot 30 stays free, so there is always a window to advertise. -/
theorem Draining.free_bounded {held : Nat → Option (List Byte)} {i fuel first : Nat}
    {items : List Ref} {state : RecvState Ref}
    (draining : Draining deref held i fuel first items state) :
    1 ≤ freeSlots state.receiveBuffer ∧ freeSlots state.receiveBuffer ≤ 31 := by
  have short := draining.length
  have room := draining.room
  rw [draining.free]
  omega

/-- The acknowledgement sent in such a state. -/
theorem Draining.ack {held : Nat → Option (List Byte)} {i fuel first : Nat} {items : List Ref}
    {state : RecvState Ref} (draining : Draining deref held i fuel first items state)
    (host : Host) (block : Pkt) (junk : Nat → Byte) :
    sendAck host block junk state.lastack state.windowSize =
      .ok (ackDatagram host first (freeSlots state.receiveBuffer)) := by
  have number : ((first + 255) % 256 + 1) % 256 = first % 256 := by omega
  rw [draining.window, draining.lastack, sendAck_exact host block junk _ _ (by omega), number,
    ackDatagram_mod, draining.free]

/-- The slot the loop looks at holds the first remaining item. -/
theorem Draining.slot {held : Nat → Option (List Byte)} {i fuel first : Nat} {items : List Ref}
    {state : RecvState Ref} (draining : Draining deref held i fuel first items state) :
    slot state.receiveBuffer i = items.head? := by
  rw [draining.buffer, slot_replicate_append, if_neg (Nat.lt_irrefl i), Nat.sub_self, slot_packed,
    List.head?_eq_getElem?]

/-- If the expected packet is not held, it is not in front: a held index further on is at
most 30 ahead, so its number differs. -/
theorem Draining.gap {held : Nat → Option (List Byte)} {i fuel first : Nat} {items : List Ref}
    {state : RecvState Ref} (draining : Draining deref held i fuel first items state)
    (absent : held first = none) :
    ∀ entry ∈ items.head?, pktGetSeqnum (deref entry) ≠ first % 256 := by
  intro entry front same
  have room := draining.room
  have listed : label deref entry ∈ (scan held first fuel).map shown := by
    rw [← draining.labels]
    exact List.mem_map_of_mem (List.mem_of_mem_head? front)
  obtain ⟨⟨index, payload⟩, inside, shows⟩ := List.mem_map.mp listed
  obtain ⟨⟨low, high⟩, present⟩ := (mem_scan _ _ _ _ _).mp inside
  have other : index ≠ first := by
    rintro rfl
    rw [absent] at present
    simp at present
  have number : index % 256 = pktGetSeqnum (deref entry) := congrArg Prod.fst shows
  omega

/-- Without the expected packet in front, the loop acknowledges and ends. -/
theorem drainLoop_stops (host : Host) (ambient : Ambient) {held : Nat → Option (List Byte)}
    {i fuel first : Nat} {items : List Ref} {state : RecvState Ref}
    (draining : Draining deref held i fuel first items state)
    (other : ∀ entry ∈ items.head?, pktGetSeqnum (deref entry) ≠ first % 256) :
    drainLoop deref host ambient (fuel + 1) i state =
      .ok (state, [.sendAck (ackDatagram host first (freeSlots state.receiveBuffer))
        state.receiveBuffer]) := by
  have expected : (state.lastack + 1) % 256 = first % 256 := by
    rw [draining.lastack]
    omega
  rw [drainLoop, draining.slot]
  cases front : items.head? with
  | none => simp only [draining.ack, bind, Except.bind, pure, Except.pure]
  | some entry =>
    simp only [expected, other entry front, if_false, draining.ack, bind, Except.bind, pure,
      Except.pure]

/-- With it, the packet is written, its slot emptied, and the next one expected. -/
theorem Draining.advance {held : Nat → Option (List Byte)} {i fuel first : Nat} {entry : Ref}
    {rest : List Ref} {state : RecvState Ref} {payload : List Byte}
    (draining : Draining deref held i (fuel + 1) first (entry :: rest) state)
    (present : held first = some payload) :
    label deref entry = (first % 256, payload) ∧
      Draining deref held (i + 1) fuel (first + 1) rest { state with
        receiveBuffer := state.receiveBuffer.set i none
        windowSize := state.windowSize + 1
        lastack := (state.lastack + 1) % 256 } := by
  have labels := draining.labels
  have short := draining.length
  have room := draining.room
  simp only [scan_succ, present, List.map_cons, List.cons.injEq, shown] at labels
  simp only [List.length_cons] at short
  refine ⟨labels.1, ?_, ?_, labels.2, ?_, by omega⟩
  · simp only [draining.lastack]
    omega
  · obtain ⟨spare, capacity⟩ : ∃ spare, maxWindowSize - i = spare + 1 := ⟨30 - i, by simp; omega⟩
    have smaller : maxWindowSize - (i + 1) = spare := by omega
    simp only [draining.buffer, capacity, smaller]
    rw [List.set_append_right _ _ (by simp), List.length_replicate, Nat.sub_self,
      List.replicate_succ', List.append_assoc]
    simp [packed]
  · simp only [draining.window, List.length_cons]
    omega

/-- While the next packet is held, it is in front. -/
theorem Draining.front {held : Nat → Option (List Byte)} {i fuel first : Nat} {items : List Ref}
    {state : RecvState Ref} {payload : List Byte}
    (draining : Draining deref held i (fuel + 1) first items state)
    (present : held first = some payload) : ∃ entry rest, items = entry :: rest ∧
      pktGetSeqnum (deref entry) = (state.lastack + 1) % 256 := by
  have labels := draining.labels
  cases items with
  | nil => simp [scan_succ, present] at labels
  | cons entry rest =>
    have number : pktGetSeqnum (deref entry) = first % 256 :=
      congrArg Prod.fst (draining.advance present).1
    refine ⟨entry, rest, rfl, ?_⟩
    rw [number, draining.lastack]
    omega

/-- What the draining loop ends with: the held run from `first` on is written, each
packet of it is acknowledged, and the last event is an acknowledgement of all of it. -/
structure Drained (deref : Ref → Pkt) (host : Host) (held : Nat → Option (List Byte))
    (i fuel first : Nat) (items : List Ref) (state last : RecvState Ref)
    (events : List (Event Ref)) : Prop where
  final : Draining deref held (i + (run held fuel first).length)
    (fuel - (run held fuel first).length) (first + (run held fuel first).length)
    (items.drop (run held fuel first).length) last
  pktBuffer : last.pktBuffer = state.pktBuffer
  payloads : payloads events = run held fuel first
  nacks : nacks events = []
  sound : Sound host first events (first + (run held fuel first).length)
  closes : ∃ front datagram slots, events = front ++ [.sendAck datagram slots]

/-- Where the expected packet is not held, the loop ends with the acknowledgement of what came
before it. -/
theorem drained_here (host : Host) {held : Nat → Option (List Byte)} {i fuel first : Nat}
    {items : List Ref} {state : RecvState Ref}
    (draining : Draining deref held i fuel first items state) (nothing : run held fuel first = []) :
    Drained deref host held i fuel first items state state
      [.sendAck (ackDatagram host first (freeSlots state.receiveBuffer)) state.receiveBuffer] := by
  have bounded := draining.free_bounded
  refine ⟨by simpa [nothing] using draining, rfl, by simp [payloads, nothing], rfl, ?_, ?_⟩
  · rw [nothing]
    exact ⟨⟨bounded, rfl⟩, rfl⟩
  · exact ⟨[], _, _, rfl⟩

/-- The draining loop delivers the run of held packets and always ends through one
of its breaks: induction on the number of indices the window still allows. -/
theorem drainLoop_drains (host : Host) (ambient : Ambient) {held : Nat → Option (List Byte)}
    {i fuel first : Nat} {items : List Ref} {state : RecvState Ref}
    (draining : Draining deref held i fuel first items state) :
    ∃ last events, drainLoop deref host ambient (fuel + 1) i state = .ok (last, events) ∧
      Drained deref host held i fuel first items state last events := by
  induction fuel generalizing i first items state with
  | zero =>
    have empty : items = [] := List.length_eq_zero_iff.mp (by have := draining.length; omega)
    exact ⟨_, _, drainLoop_stops host ambient draining (by simp [empty]),
      drained_here host draining rfl⟩
  | succ fuel inductionHypothesis =>
    cases present : held first with
    | none =>
      exact ⟨_, _, drainLoop_stops host ambient draining (draining.gap present),
        drained_here host draining (by simp [run, present])⟩
    | some payload =>
      obtain ⟨entry, rest, rfl, expected⟩ := draining.front present
      obtain ⟨labelled, next⟩ := draining.advance present
      obtain ⟨last, events, drains, drained⟩ := inductionHypothesis next
      have written : writePayload (deref entry) = payload := congrArg Prod.snd labelled
      have length : (run held (fuel + 1) first).length =
          (run held fuel (first + 1)).length + 1 := by
        simp [run, present]
      have free : 1 ≤ freeSlots (state.receiveBuffer.set i none) ∧
          freeSlots (state.receiveBuffer.set i none) ≤ 31 := next.free_bounded
      refine ⟨last, .writePayload payload :: .pktDel entry ::
        .sendAck (ackDatagram host (first + 1) (freeSlots (state.receiveBuffer.set i none)))
          (state.receiveBuffer.set i none) :: events, ?_, ?_⟩
      · rw [drainLoop, draining.slot]
        simp only [List.head?_cons, expected, if_true]
        rw [next.ack]
        simp only [bind, Except.bind, pure, Except.pure, drains, written]
      · obtain ⟨front, datagram, slots, closes⟩ := drained.closes
        have forward : first + 1 + (run held fuel (first + 1)).length =
            first + (run held (fuel + 1) first).length := by omega
        refine ⟨?_, drained.pktBuffer, ?_, drained.nacks, ?_, ?_⟩
        · have further : i + 1 + (run held fuel (first + 1)).length =
              i + (run held (fuel + 1) first).length := by omega
          have fewer : fuel - (run held fuel (first + 1)).length =
              fuel + 1 - (run held (fuel + 1) first).length := by omega
          have dropped : rest.drop (run held fuel (first + 1)).length =
              (entry :: rest).drop (run held (fuel + 1) first).length := by
            rw [length, List.drop_succ_cons]
          rw [← forward, ← further, ← fewer, ← dropped]
          exact drained.final
        · have rest := drained.payloads
          simp only [payloads] at rest
          simp [payloads, run, present, rest]
        · rw [← forward]
          exact ⟨⟨free, rfl⟩, drained.sound⟩
        · exact ⟨_ :: _ :: _ :: front, datagram, slots, by rw [closes]; rfl⟩

end SelectiveRepeat
