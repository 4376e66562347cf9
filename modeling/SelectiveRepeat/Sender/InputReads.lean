import SelectiveRepeat.Library.Transition
import SelectiveRepeat.Sender.Parts

/-!
# What a read of the input does

`sel_repeat_write` compares the result of `read` with 0, and hands it, truncated to 16
bits, to two setters whose statuses it ignores. The passes here may read anything from
either descriptor, and either read may fail; what all of them keep is that the window
has 31 slots, that its index is not negative, and that the receiver grants at most 31.

A read that succeeds sends one datagram with the bytes that were read. A read that
fails takes the path of one that succeeds: both setters refuse 65535, so the length of
the packet is the one `malloc` left there, and its payload pointer was never set.
-/

namespace SelectiveRepeat

open PackedSlots Transition

/-! ## Bounds of every pass -/

/-- What the index and the window are in every pass, whatever was read. -/
structure Bounded (state : SendState) : Prop where
  size : state.window.length = 31
  index : 0 ≤ state.currentIndexWindow
  limited : state.limitedWindowSize ≤ 31

/-- The bounds hold before the first pass. -/
theorem sendStart_bounded (junk : Nat → Byte) (clock : Int) : Bounded (sendStart junk clock) where
  size := List.length_replicate
  index := Int.le_refl 0
  limited := Int.le_refl 31

/-- If the input may be read, the index is inside the window. -/
theorem Bounded.inside {state : SendState} (bounded : Bounded state) (canRead : CanRead state) :
    0 ≤ state.currentIndexWindow ∧ state.currentIndexWindow < state.window.length := by
  have low := bounded.index
  have size := bounded.size
  have limited := bounded.limited
  rcases canRead with ⟨room, _⟩ | ⟨_, empty, _⟩
  · omega
  · omega

/-- A store keeps the size of the window. -/
theorem setTimer_size {window next : List (Option PktTimer)} {i : Int} {element : PktTimer}
    (stores : setTimer window i element = .ok next) : next.length = window.length := by
  rw [setTimer] at stores
  split at stores
  · cases stores
    exact List.length_set
  · cases stores

/-- The scan writes the timers and the clock, and the window keeps its size. -/
theorem timerLoop_frame (host : Host) (ambient : Ambient) (remaining i : Nat)
    {state last : SendState} {sent : List Sent}
    (ends : timerLoop host ambient remaining i state = .ok (last, sent)) :
    SameButTimers state last ∧ last.window.length = state.window.length := by
  induction remaining generalizing i state last sent with
  | zero =>
    cases ends
    exact ⟨⟨_, _, rfl⟩, rfl⟩
  | succ remaining inductionHypothesis =>
    rw [timerLoop] at ends
    obtain ⟨element, _, ends⟩ := run_bind ends
    dsimp only at ends
    split at ends
    · obtain ⟨data, _, ends⟩ := run_bind ends
      obtain ⟨window, stores, ends⟩ := run_bind ends
      obtain ⟨⟨final, later⟩, loops, same⟩ := run_bind ends
      cases same
      obtain ⟨⟨slots, clock, rfl⟩, size⟩ := inductionHypothesis (i + 1) loops
      exact ⟨⟨slots, clock, rfl⟩, size.trans (setTimer_size stores)⟩
    · obtain ⟨window, stores, loops⟩ := run_bind ends
      obtain ⟨⟨slots, clock, rfl⟩, size⟩ := inductionHypothesis (i + 1) loops
      exact ⟨⟨slots, clock, rfl⟩, size.trans (setTimer_size stores)⟩

/-- The scan keeps the bounds, -/
theorem scanTimers_bounded (host : Host) (ambient : Ambient) {state last : SendState}
    {sent : List Sent} (bounded : Bounded state)
    (scans : scanTimers host ambient state = .ok (last, sent)) : Bounded last := by
  obtain ⟨⟨slots, clock, rfl⟩, size⟩ := timerLoop_frame host ambient _ _ scans
  exact ⟨size.trans bounded.size, bounded.index, bounded.limited⟩

/-- and so does the read of the input, -/
theorem readInput_bounded (host : Host) (ambient : Ambient) (result : Option (List Byte))
    {state last : SendState} {sent : List Sent} (bounded : Bounded state)
    (reads : readInput host ambient result state = .ok (last, sent)) : Bounded last := by
  rw [readInput] at reads
  obtain ⟨data, _, reads⟩ := run_bind reads
  obtain ⟨window, stores, same⟩ := run_bind reads
  cases same
  have low := bounded.index
  exact ⟨(setTimer_size stores).trans bounded.size, by simp only; omega, bounded.limited⟩

/-- The index that an acknowledgement leaves is the distance back from the next number. -/
theorem handleAck_bounded (packet : Pkt) {state : SendState} {served : Served}
    (bounded : Bounded state)
    (handles : handleAck packet (state.seqnum.toNat - 1) (state.currentIndexWindow - 1) state =
      .ok served) : Bounded served.state := by
  rw [handleAck] at handles
  obtain ⟨run, modifies, handles⟩ := run_bind handles
  obtain ⟨_, _, same⟩ := run_bind handles
  cases same
  have window := packet.window.isLt
  have position := ack_position state.seqnum.toNat (pktGetSeqnum packet)
    (state.currentIndexWindow - 1) state.seqnum.isLt packet.seqnum.isLt
  refine ⟨(BufferRun.modifyBuffer_size _ _ modifies).trans bounded.size, ?_, ?_⟩
  · simp only [position]
    omega
  · simp only [pktGetWindow]
    omega

/-- the handling of a negative answer, -/
theorem handleNack_bounded (host : Host) (ambient : Ambient) (packet : Pkt) (sent last : Int)
    {state : SendState} {served : Served} (bounded : Bounded state)
    (handles : handleNack host ambient packet sent last state = .ok served) :
    Bounded served.state := by
  rw [handleNack] at handles
  obtain ⟨element, _, handles⟩ := run_bind handles
  obtain ⟨data, _, handles⟩ := run_bind handles
  obtain ⟨window, stores, same⟩ := run_bind handles
  cases same
  have narrow := packet.window.isLt
  refine ⟨(setTimer_size stores).trans bounded.size, bounded.index, ?_⟩
  simp only [pktGetWindow]
  omega

/-- the read of the socket, -/
theorem readSocket_bounded (host : Host) (ambient : Ambient) (result : Option (List Byte))
    {state : SendState} {served : Served} (bounded : Bounded state)
    (serves : readSocket host ambient result state = .ok served) : Bounded served.state := by
  simp only [readSocket] at serves
  split at serves
  · split at serves
    · exact handleAck_bounded _ bounded serves
    · split at serves
      · exact handleNack_bounded host ambient _ _ _ bounded serves
      · cases serves
        exact bounded
  · cases serves
    exact bounded

/-- what follows `select`, -/
theorem afterSelect_bounded (host : Host) (ambient : Ambient) (select : Select)
    {state last : SendState} {sent : List Sent} {ending : Ending} (bounded : Bounded state)
    (ends : afterSelect host ambient select state = .ok (last, sent, ending)) : Bounded last := by
  cases select with
  | error =>
    cases ends
    exact bounded
  | ready input socket =>
    rw [afterSelect] at ends
    obtain ⟨⟨middle, fromInput⟩, inputs, ends⟩ := run_bind ends
    obtain ⟨⟨final, answered, how⟩, sockets, same⟩ := run_bind ends
    cases same
    have kept : Bounded middle := by
      cases input with
      | none =>
        cases inputs
        exact bounded
      | some result =>
        rw [serveInput] at inputs
        split at inputs
        · exact readInput_bounded host ambient result bounded inputs
        · cases inputs
          exact bounded
    cases socket with
    | none =>
      cases sockets
      exact kept
    | some result =>
      rw [serveSocket] at sockets
      obtain ⟨served, serves, same⟩ := run_bind sockets
      cases same
      exact readSocket_bounded host ambient result kept serves

/-- and a whole pass. -/
theorem selRepeatWriteBody_bounded (host : Host) (ambient : Ambient) (select : Select)
    {state last : SendState} {sent : List Sent} {ending : Ending} (bounded : Bounded state)
    (ends : selRepeatWriteBody host ambient select state = .ok (last, sent, ending)) :
    Bounded last := by
  rw [selRepeatWriteBody] at ends
  obtain ⟨⟨scanned, resent⟩, scans, ends⟩ := run_bind ends
  obtain ⟨⟨final, later, how⟩, selects, same⟩ := run_bind ends
  cases same
  exact afterSelect_bounded host ambient select (scanTimers_bounded host ambient bounded scans)
    selects

/-! ## Passes with any reads -/

/-- Passes of `sel_repeat_write` that end without a fault and without an exit. -/
def passSystem (host : Host) : System SendState (Ambient × Select) where
  initial state := ∃ junk clock, state = sendStart junk clock
  step state label next :=
    ∃ sent, selRepeatWriteBody host label.1 label.2 state = .ok (next, sent, .again)

/-- The bounds hold before every pass, whatever the passes before it read. -/
theorem pass_bounded (host : Host) {state : SendState}
    (reached : (passSystem host).Reachable state) : Bounded state := by
  refine System.reachable_invariant ?_ ?_ reached
  · rintro first ⟨junk, clock, rfl⟩
    exact sendStart_bounded junk clock
  · rintro before label after bounded ⟨sent, ends⟩
    exact selRepeatWriteBody_bounded host label.1 label.2 bounded ends

/-- A state in which the input may be read: after the scan of some pass. -/
def AtRead (host : Host) (state : SendState) : Prop :=
  ∃ before ambient resent, (passSystem host).Reachable before ∧
    scanTimers host ambient before = .ok (state, resent) ∧ CanRead state

/-- Where the input may be read, the next slot lies inside the window. -/
theorem AtRead.inside {host : Host} {state : SendState} (reached : AtRead host state) :
    0 ≤ state.currentIndexWindow ∧ state.currentIndexWindow < state.window.length := by
  obtain ⟨before, ambient, resent, earlier, scans, canRead⟩ := reached
  exact (scanTimers_bounded host ambient (pass_bounded host earlier) scans).inside canRead

/-! ## The read -/

/-- The peer's decoder accepts the datagram as DATA, with this number and these bytes. -/
def Carries (host : Host) (datagram : List Byte) (number : Nat) (chunk : List Byte) : Prop :=
  ∀ (data : Nat → Byte) (prior : Pkt), Holds data datagram →
    ∃ pkt, pktDecode host data datagram.length prior = (.pktOk, pkt) ∧
      pktGetType pkt = ptypeData ∧ pktGetSeqnum pkt = number ∧
      pktGetLength pkt = chunk.length ∧ pkt.body = chunk

/-- What is sent for a DATA packet carries its payload under its number: the round trip through
`pkt_encode` and `pkt_decode`. -/
theorem carries_wire (host : Host) (pkt : Pkt) (valid : Valid pkt) (isData : pkt.type = 1) :
    Carries host (wire host pkt) (pktGetSeqnum pkt) pkt.body := by
  intro data prior held
  have size := body_length pkt valid.readable
  refine ⟨_, decode_wire host pkt valid data held prior, ?_, rfl, size.symm, ?_⟩
  · simp only [pktGetType, isData]
    rfl
  · simp only [Pkt.body, Option.getD_some]
    rw [List.take_append_of_le_length (by rw [← Pkt.body, size]), ← Pkt.body, ← size]
    exact List.take_length

/-- Exactly one datagram is sent, it carries the chunk under the current number, and
its packet is appended to the window. -/
def SendsChunk (host : Host) (ambient : Ambient) (chunk : List Byte) (state : SendState) : Prop :=
  ∃ next datagram element, readInput host ambient (some chunk) state =
      .ok (next, [⟨state.currentIndexWindow, datagram⟩]) ∧
    Carries host datagram state.seqnum.toNat chunk ∧ datagram = wire host element.packet ∧
    next.window = state.window.set state.currentIndexWindow.toNat (some element) ∧
    slot next.window state.currentIndexWindow.toNat = some element ∧
    next.currentIndexWindow = state.currentIndexWindow + 1 ∧ next.seqnum = state.seqnum + 1

/-- Nothing is sent, and no number is consumed. -/
def LeavesAlone (host : Host) (ambient : Ambient) (state : SendState) : Prop :=
  ∃ next, readInput host ambient none state = .ok (next, []) ∧ next.seqnum = state.seqnum ∧
    next.currentIndexWindow = state.currentIndexWindow ∧ next.window = state.window

/-- What a read of the input ought to do. -/
def ReadFaithful (host : Host) (ambient : Ambient) (result : Option (List Byte))
    (state : SendState) : Prop :=
  match result with
  | some chunk => SendsChunk host ambient chunk state
  | none => LeavesAlone host ambient state

/-- A successful read sends its chunk, if the next slot lies inside the window. -/
theorem sendsChunk_inside (host : Host) (ambient : Ambient) (chunk : List Byte)
    (bounded : chunk.length ≤ 512) {state : SendState}
    (inside : 0 ≤ state.currentIndexWindow ∧ state.currentIndexWindow < state.window.length) :
    SendsChunk host ambient chunk state := by
  have reads := readInput_sendable host ambient (some chunk) state
    (builtPacket_sendable ambient chunk state bounded) inside
  have built := builtPacket_chunk ambient chunk state bounded state.seqnum.toNat (by simp)
  have carries := carries_wire host _
    (chunk_valid state.seqnum.toNat chunk (ambient.fresh 0).crc bounded) rfl
  rw [chunk_body _ _ _ bounded, ← built] at carries
  have numbered : pktGetSeqnum (builtPacket ambient (some chunk) state) = state.seqnum.toNat := by
    rw [built, pktGetSeqnum, chunkPacket, BitVec.toNat_ofNat]
    exact Nat.mod_eq_of_lt state.seqnum.isLt
  rw [numbered] at carries
  refine ⟨_, wire host (builtPacket ambient (some chunk) state),
    ⟨state.clock + ambient.elapsed 62, ambient.stale, builtPacket ambient (some chunk) state⟩,
    reads, carries, rfl, rfl, ?_, rfl, rfl⟩
  rw [slot_set _ _ _ _ (by omega), if_pos rfl]

/-! ## The failed read -/

/-- Both setters refuse 65535. -/
theorem builtPacket_failed (ambient : Ambient) (state : SendState) :
    builtPacket ambient none state = { pktNew (ambient.fresh 0) with
      type := 1
      window := 0
      seqnum := state.seqnum } := by
  have size : BitVec.ofInt 16 (readSize maxPayloadSize none) = 65535 := by decide
  simp only [builtPacket, dataPacket, size, pktSetType, pktSetSeqnum, pktSetWindow, pktSetLength,
    pktSetPayload]
  rfl

/-- A packet that claims a length but has no payload makes the encoder read through a
pointer that was never set. -/
theorem transmit_wild (host : Host) (pkt : Pkt) (data : CharBuf) (capacity : Nat)
    (absent : pkt.payload = none) (claimed : pkt.length.toNat ≠ 0) :
    transmit host pkt data capacity = .error .wildPointer := by
  obtain ⟨remaining, positive⟩ := Nat.exists_eq_succ_of_ne_zero claimed
  simp only [transmit, pktEncode, pktGetLength, positive, absent, copyPayload, bind, Except.bind]

/-- What a failed read does: if the block from `malloc` has length 0, the empty DATA
packet that ends a transfer is sent and kept in the window; otherwise the program reads
through a pointer that was never set. -/
theorem readInput_failed (host : Host) (ambient : Ambient) {state : SendState}
    (inside : 0 ≤ state.currentIndexWindow ∧ state.currentIndexWindow < state.window.length) :
    readInput host ambient none state = .error .wildPointer ∨
      ∃ next datagram, readInput host ambient none state =
          .ok (next, [⟨state.currentIndexWindow, datagram⟩]) ∧
        Carries host datagram state.seqnum.toNat [] ∧
        next.currentIndexWindow = state.currentIndexWindow + 1 ∧
        next.seqnum = state.seqnum + 1 := by
  have failed := builtPacket_failed ambient state
  by_cases empty : (builtPacket ambient none state).length.toNat = 0
  · right
    have valid : Valid (builtPacket ambient none state) :=
      { known := .inl (by rw [failed])
        bounded := by omega
        dataOnly := fun _ => empty
        readable := .inl empty }
    have carries := carries_wire host _ valid (by rw [failed])
    have nothing : (builtPacket ambient none state).body = [] := by
      rw [Pkt.body, empty, List.take_zero]
    have number : pktGetSeqnum (builtPacket ambient none state) = state.seqnum.toNat := by
      rw [failed]
      rfl
    rw [nothing, number] at carries
    exact ⟨_, _, readInput_sendable host ambient none state ⟨valid.readable, valid.bounded⟩ inside,
      carries, rfl, rfl⟩
  · left
    simp only [readInput, bind, Except.bind]
    rw [transmit_wild host _ _ _ (by rw [failed]; rfl) empty]

/-- A failed read does not leave the state alone: a packet is sent and counted, or the
program reads through a pointer that was never set. -/
theorem failed_not_alone (host : Host) (ambient : Ambient) {state : SendState}
    (inside : 0 ≤ state.currentIndexWindow ∧ state.currentIndexWindow < state.window.length) :
    ¬ LeavesAlone host ambient state := by
  rintro ⟨after, silent, _⟩
  rcases readInput_failed host ambient inside with faults | ⟨next, datagram, sends, _⟩
  · rw [faults] at silent
    cases silent
  · rw [sends] at silent
    cases silent

/-- In every state in which the input may be read, whatever was read and answered before,
the read is faithful if and only if it does not fail.

A failed read sends or faults, and never leaves the state alone; a successful one builds
the packet of its chunk in a slot that the bounds of every pass put inside the window. -/
theorem read_faithful_iff (host : Host) (ambient : Ambient) (state : SendState)
    (reached : AtRead host state) (result : Option (List Byte))
    (fits : ∀ chunk, result = some chunk → chunk.length ≤ 512) :
    ReadFaithful host ambient result state ↔ result ≠ none := by
  constructor
  · rintro faithful rfl
    exact failed_not_alone host ambient reached.inside faithful
  · intro successful
    obtain ⟨chunk, rfl⟩ := Option.ne_none_iff_exists'.mp successful
    exact sendsChunk_inside host ambient chunk (fits chunk rfl) reached.inside

/-- The first read of a run. -/
theorem atRead_start (host : Host) (junk : Nat → Byte) (clock : Int) :
    AtRead host (sendStart junk clock) := by
  refine ⟨sendStart junk clock, quietAmbient, [],
    System.reachable_initial ⟨junk, clock, rfl⟩, rfl, ?_⟩
  exact .inl ⟨show (0 : Int) < 31 by decide, rfl⟩

/-- A first read of two bytes. -/
theorem first_read_faithful :
    ReadFaithful zlibHost quietAmbient (some [0x80, 0x41]) (sendStart (fun _ => 0) 0) ↔
      some [(0x80 : Byte), 0x41] ≠ none :=
  read_faithful_iff zlibHost quietAmbient _ (atRead_start zlibHost _ 0) _ (by
    rintro chunk same
    cases same
    decide)

/-- A first read that fails, with cleared memory: the end of the transfer is sent. -/
theorem failed_read_sends :
    AtRead zlibHost (sendStart (fun _ => 0) 0) ∧
    ¬ ReadFaithful zlibHost quietAmbient none
      (sendStart (fun _ => 0) 0) :=
  ⟨atRead_start zlibHost _ 0, failed_not_alone zlibHost _ (atRead_start zlibHost _ 0).inside⟩

end SelectiveRepeat
