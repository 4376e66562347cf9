import SelectiveRepeat.Sender.Invariant

/-!
# Answers the sender does not expect

The receiver tests with `compare_seqnums` that a number lies in its window before it
acts on it. The sender has no such test: for an acknowledgement of packets it removed
already or never built, and for a negative one of a packet that is not in the window,
`get_ack_position` returns a position in front of the array, and the window is accessed
there.
-/

namespace SelectiveRepeat

open PackedSlots Transition

/-- An intact answer whose number is none of those the sender waits for. -/
def ForeignAnswer (host : Host) (run : SendRun) (datagram : List Byte) : Prop :=
  (∃ number window, Announces host datagram ptypeAck number window ∧
      ∀ index, run.base ≤ index → index ≤ run.built.length → index % 256 ≠ number) ∨
    (∃ number window, Announces host datagram ptypeNack number window ∧
      ∀ index, run.base ≤ index → index < run.built.length → index % 256 ≠ number)

/-- Processing the datagram sends nothing and leaves the sequence number, the number of
packets in the window and the packets as they are. -/
def Harmless (host : Host) (ambient : Ambient) (datagram : List Byte) (state : SendState) : Prop :=
  ∃ served, readSocket host ambient (some datagram) state = .ok served ∧ served.sent = [] ∧
    served.exited = false ∧ served.state.seqnum = state.seqnum ∧
    served.state.currentIndexWindow = state.currentIndexWindow ∧
    windowPackets served.state = windowPackets state

/-- A position below -1 makes the second loop of `modify_buffer` read in front of the
array: the first one has nothing to release. -/
theorem modifyBuffer_outside {Elem : Type} (ack last : Int) (run : BufferRun Elem)
    (below : ack < -1) (short : -1 ≤ last) :
    BufferRun.modifyBuffer ack last run = .error (.outOfRange (ack + 1)) := by
  have nothing : (ack + 1).toNat = 0 := by omega
  obtain ⟨count, more⟩ : ∃ count, (last - ack).toNat = count + 1 :=
    ⟨(last - ack).toNat - 1, by omega⟩
  have outside : ¬ (0 ≤ ack + 1 ∧ ack + 1 < run.slots.length) := by omega
  rw [BufferRun.modifyBuffer, nothing, more]
  simp only [BufferRun.releaseLoop, BufferRun.shiftLoop, bind, Except.bind,
    BufferRun.fetch, outside, if_false, Int.add_zero]

/-- An announced number is the byte of a header. -/
theorem announced_number (host : Host) {datagram : List Byte} {type : BitVec 32}
    {number window : Nat} (announces : Announces host datagram type number window) :
    number < 256 := by
  obtain ⟨pkt, _, _, rfl, _⟩ := announces.2 _ blankPkt (holds_getElem datagram (fun _ => 0))
  exact pkt.seqnum.isLt

/-- A number that no index up to `next` has, from `base` on, lies further back. -/
theorem foreign_distance {base next number : Nat} (small : number < 256)
    (foreign : ∀ index, base ≤ index → index ≤ next → index % 256 ≠ number) (near : base ≤ next) :
    (next - base : Nat) < ((next % 256 : Nat) - number : Int) % 256 := by
  by_contra within
  have back : ((next % 256 : Nat) - number : Int) % 256 ≤ (next - base : Nat) := by omega
  obtain ⟨distance, same⟩ : ∃ distance : Nat,
      ((next % 256 : Nat) - number : Int) % 256 = distance :=
    ⟨(((next % 256 : Nat) - number : Int) % 256).toNat, by omega⟩
  exact foreign (next - distance) (by omega) (by omega) (by omega)

/-- A foreign acknowledgement reads the window in front of its first slot. -/
theorem foreign_ack_faults (host : Host) (ambient : Ambient) {run : SendRun}
    (inv : SendInv host run) {datagram : List Byte} {number window : Nat}
    (announces : Announces host datagram ptypeAck number window)
    (foreign : ∀ index, run.base ≤ index → index ≤ run.built.length → index % 256 ≠ number) :
    ∃ index < 0, readSocket host ambient (some datagram) run.state =
      .error (.outOfRange index) := by
  have small := announced_number host announces
  have far := foreign_distance small foreign inv.behind
  have count := inv.index.1
  have seqnum := inv.number
  obtain ⟨packet, _, numbered, _, serves⟩ := readSocket_answer host ambient announces run.state
  have position := ack_position run.state.seqnum.toNat number (run.state.currentIndexWindow - 1)
    run.state.seqnum.isLt small
  rw [seqnum] at position
  refine ⟨getAckPosition ((run.state.seqnum.toNat : Int) - 1) (number - 1)
    (run.state.currentIndexWindow - 1) + 1, by rw [seqnum, position]; omega, ?_⟩
  rw [serves, if_pos rfl, handleAck, numbered,
    modifyBuffer_outside _ _ _ (by rw [seqnum, position]; omega) (by omega)]
  rfl

/-- A foreign negative acknowledgement reads the window in front of its first slot. -/
theorem foreign_nack_faults (host : Host) (ambient : Ambient) {run : SendRun}
    (inv : SendInv host run) {datagram : List Byte} {number window : Nat}
    (announces : Announces host datagram ptypeNack number window)
    (foreign : ∀ index, run.base ≤ index → index < run.built.length → index % 256 ≠ number) :
    ∃ index < 0, readSocket host ambient (some datagram) run.state =
      .error (.outOfRange index) := by
  have small := announced_number host announces
  have count := inv.index.1
  have near := inv.index.2
  have behind := inv.behind
  have seqnum := inv.number
  obtain ⟨packet, _, numbered, _, serves⟩ := readSocket_answer host ambient announces run.state
  have position := nack_position run.state.seqnum.toNat number (run.state.currentIndexWindow - 1)
    run.state.seqnum.isLt small
  rw [seqnum] at position
  have far : ((run.built.length - run.base : Nat) : Int) ≤
      (((run.built.length % 256 : Nat) : Int) - 1 - number) % 256 := by
    by_contra within
    obtain ⟨distance, same⟩ : ∃ distance : Nat,
        (((run.built.length % 256 : Nat) : Int) - 1 - number) % 256 = distance :=
      ⟨((((run.built.length % 256 : Nat) : Int) - 1 - number) % 256).toNat, by omega⟩
    exact foreign (run.built.length - 1 - distance) (by omega) (by omega) (by omega)
  have below : getAckPosition ((run.state.seqnum.toNat : Int) - 1) number
      (run.state.currentIndexWindow - 1) < 0 := by
    rw [seqnum, position]
    omega
  refine ⟨_, below, ?_⟩
  rw [serves, if_neg (by decide), if_pos rfl, handleNack, numbered, timerAt, if_neg (by omega)]
  rfl

/-- The part of a pass that reads the socket stops at a negative index, for an acknowledgement as
for a negative one. -/
theorem foreign_answer_faults (host : Host) (ambient : Ambient) {run : SendRun}
    (inv : SendInv host run) {datagram : List Byte} (foreign : ForeignAnswer host run datagram) :
    ∃ index < 0, readSocket host ambient (some datagram) run.state =
      .error (.outOfRange index) := by
  rcases foreign with ⟨number, window, announces, foreign⟩ | ⟨number, window, announces, foreign⟩
  · exact foreign_ack_faults host ambient inv announces foreign
  · exact foreign_nack_faults host ambient inv announces foreign

/-- In every reachable state every foreign answer makes the sender access the window in
front of its first slot, so none is harmless.

The position that `get_ack_position` computes for a foreign answer lies in front of the
first slot, and the window is accessed from there on. Which numbers are not foreign is
said by the sender's invariant. -/
theorem foreign_answer_never_harmless (host : Host) (ambient : Ambient) (run : SendRun)
    (reached : (sendSystem host).Reachable run) (datagram : List Byte)
    (foreign : ForeignAnswer host run datagram) :
    (∃ index < 0, readSocket host ambient (some datagram) run.state = .error (.outOfRange index)) ∧
      ¬ Harmless host ambient datagram run.state := by
  obtain ⟨index, negative, faults⟩ :=
    foreign_answer_faults host ambient (reachable_inv host reached) foreign
  refine ⟨⟨index, negative, faults⟩, ?_⟩
  rintro ⟨served, serves, _⟩
  rw [faults] at serves
  cases serves

/-- When two packets are acknowledged, the acknowledgement of the first alone is foreign:
it was overtaken by the one of both. -/
theorem overtaken_foreign {run : SendRun} (base : run.base = 2) (built : run.built.length = 2) :
    ForeignAnswer zlibHost run (ackDatagram zlibHost 1 30) := by
  refine .inl ⟨1, 30, announces_ack zlibHost 1 30 (by decide), ?_⟩
  intro index low high
  omega

/-- The acknowledgement of one packet, overtaken by that of two. -/
theorem overtaken_ack_harms : ∃ ambient run, (sendSystem zlibHost).Reachable run ∧
    run.chunks = [[0x41], [0x42]] ∧ run.base = 2 ∧
    ForeignAnswer zlibHost run (ackDatagram zlibHost 1 30) ∧
    ¬ Harmless zlibHost ambient (ackDatagram zlibHost 1 30) run.state := by
  obtain ⟨run, reached, chunks, base, built⟩ :=
    acknowledged_run quietAmbient [0x41] [0x42] (by decide)
      (by decide)
  have foreign := overtaken_foreign base built
  refine ⟨quietAmbient, run, reached, chunks, base, foreign, ?_⟩
  obtain ⟨index, _, faults⟩ := foreign_answer_faults zlibHost
    quietAmbient (reachable_inv zlibHost reached) foreign
  rintro ⟨served, serves, _⟩
  rw [faults] at serves
  cases serves

/-- What that acknowledgement does. -/
theorem overtaken_ack_case : ∃ run : SendRun, run.chunks = [[0x41], [0x42]] ∧ ∃ index < 0,
    readSocket zlibHost quietAmbient
      (some (ackDatagram zlibHost 1 30)) run.state = .error (.outOfRange index) := by
  obtain ⟨run, reached, chunks, base, built⟩ :=
    acknowledged_run quietAmbient [0x41] [0x42] (by decide)
      (by decide)
  exact ⟨run, chunks, (foreign_answer_never_harmless zlibHost
    quietAmbient run reached _
    (overtaken_foreign base built)).1⟩

end SelectiveRepeat
