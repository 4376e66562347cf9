import SelectiveRepeat.Packet.Answers
import SelectiveRepeat.Sender.Loop

/-!
# What the parts of a pass do to the window

The window is a queue of timers: occupied slots in front, as many as
`current_index_window` says. Each part of a pass has one lemma, which gives its
result on such a queue: the scan keeps the packets and resends some of them, a read
appends one packet, an acknowledgement drops a front, and a negative one resends one.
-/

namespace SelectiveRepeat

open PackedSlots

/-! ## Data packets -/

/-- The packet with a given number and payload, as it is built: the payload block is
padded, and the CRC field is whatever `malloc` left in it. -/
def chunkPacket (number : Nat) (chunk : List Byte) (crc : BitVec 32) : Pkt where
  type := 1
  window := 0
  seqnum := BitVec.ofNat 8 number
  length := BitVec.ofNat 16 chunk.length
  payload := some (chunk ++ List.replicate (paddingOf chunk.length) 0)
  crc := crc

/-- The length of a built packet is that of its chunk, -/
theorem chunk_length (number : Nat) (chunk : List Byte) (crc : BitVec 32)
    (bounded : chunk.length ≤ 512) :
    (chunkPacket number chunk crc).length.toNat = chunk.length := by
  rw [chunkPacket, BitVec.toNat_ofNat]
  exact Nat.mod_eq_of_lt (by omega)

/-- its payload is the chunk, -/
theorem chunk_body (number : Nat) (chunk : List Byte) (crc : BitVec 32)
    (bounded : chunk.length ≤ 512) : (chunkPacket number chunk crc).body = chunk := by
  rw [Pkt.body, chunk_length number chunk crc bounded]
  simp [chunkPacket]

/-- and it is one the protocol exchanges. -/
theorem chunk_valid (number : Nat) (chunk : List Byte) (crc : BitVec 32)
    (bounded : chunk.length ≤ 512) : Valid (chunkPacket number chunk crc) where
  known := .inl rfl
  bounded := by rw [chunk_length number chunk crc bounded]; exact bounded
  dataOnly := fun foreign => absurd rfl foreign
  readable := .inr ⟨_, rfl, by rw [chunk_length number chunk crc bounded]; simp⟩

/-- What `pkt_encode` can send from the window. -/
def Sendable (pkt : Pkt) : Prop := Readable pkt ∧ pkt.length.toNat ≤ 512

/-- A packet of the window fits into the 520 bytes its datagram gets. -/
theorem transmit_sendable (host : Host) (pkt : Pkt) (data : CharBuf) (sendable : Sendable pkt) :
    transmit host pkt data 520 = .ok (wire host pkt) :=
  transmit_exact host pkt data 520 sendable.1 (wire_bounded host pkt sendable.1 sendable.2)
    (by decide)

/-- A successful read of a chunk builds its packet. -/
theorem builtPacket_chunk (ambient : Ambient) (chunk : List Byte) (state : SendState)
    (bounded : chunk.length ≤ 512) (number : Nat) (next : state.seqnum = BitVec.ofNat 8 number) :
    builtPacket ambient (some chunk) state = chunkPacket number chunk (ambient.fresh 0).crc := by
  have whole : chunk.take maxPayloadSize = chunk := List.take_of_length_le bounded
  have size : BitVec.ofInt 16 (readSize maxPayloadSize (some chunk)) =
      BitVec.ofNat 16 chunk.length := by
    rw [readSize, whole]
    exact BitVec.ofInt_natCast ..
  have small : ¬ chunk.length > maxPayloadSize := Nat.not_lt.mpr bounded
  have length : (BitVec.ofNat 16 chunk.length).toNat = chunk.length := by
    rw [BitVec.toNat_ofNat, Nat.mod_eq_of_lt (by omega)]
  have content : bytesAt (readInto maxPayloadSize (some chunk) state.buffer) chunk.length = chunk :=
    holds_read maxPayloadSize chunk state.buffer bounded
  simp only [builtPacket, dataPacket, size, pktSetType, pktSetSeqnum, pktSetWindow, pktSetLength,
    pktSetPayload, pktNew, small, if_false, length, content, next]
  rfl

/-! ## The queue -/

/-- The first slots of the window hold these timers, and no more are counted. -/
structure Queued (timers : List PktTimer) (state : SendState) : Prop where
  window : ∃ rest, state.window = timers.map some ++ rest
  size : state.window.length = 31
  index : state.currentIndexWindow = timers.length
  sendable : ∀ element ∈ timers, Sendable element.packet
  started : ∀ element ∈ timers, element.start ≤ state.clock

/-- The window has 31 slots. -/
theorem Queued.short {timers : List PktTimer} {state : SendState} (queued : Queued timers state) :
    timers.length ≤ 31 := by
  obtain ⟨rest, window⟩ := queued.window
  have size := queued.size
  rw [window, List.length_append, List.length_map] at size
  omega

/-- The timer behind the front is read at the front's length, -/
theorem timerAt_split (front back : List (Option PktTimer)) (element : PktTimer) :
    timerAt (front ++ some element :: back) front.length = .ok element := by
  rw [timerAt, if_pos (by simp), Int.toNat_natCast, slot_split]

/-- and a store there replaces it alone. -/
theorem setTimer_split (front back : List (Option PktTimer)) (entry : Option PktTimer)
    (element : PktTimer) :
    setTimer (front ++ entry :: back) front.length element =
      .ok (front ++ some element :: back) := by
  rw [setTimer, if_pos (by simp), Int.toNat_natCast, set_split]

/-- What the scan sends: packets of the queue, under the slots they are in. -/
def FromQueue (host : Host) (offset : Nat) (timers : List PktTimer) (sent : List Sent) : Prop :=
  ∀ item ∈ sent, ∃ (i : Nat) (element : PktTimer), timers[i]? = some element ∧
    item = ⟨((offset + i : Nat) : Int), wire host element.packet⟩

/-- The scan sends every packet of the queue. -/
def ResendsAll (host : Host) (offset : Nat) (timers : List PktTimer) (sent : List Sent) : Prop :=
  ∀ (i : Nat) (element : PktTimer), timers[i]? = some element →
    ⟨((offset + i : Nat) : Int), wire host element.packet⟩ ∈ sent

/-- What comes from the rest of the queue comes from the queue. -/
theorem fromQueue_later (host : Host) {offset : Nat} {element : PktTimer} {rest : List PktTimer}
    {sent : List Sent} (later : FromQueue host (offset + 1) rest sent) :
    FromQueue host offset (element :: rest) sent := by
  intro item listed
  obtain ⟨i, other, found, same⟩ := later item listed
  exact ⟨i + 1, other, by simpa using found, by rw [same]; congr 2; omega⟩

/-- What the scan does from slot `first` on. The packets stay, and no start lies ahead of
the clock; what is sent again are packets of the queue, and all of them if six seconds
pass before each reading of the clock. -/
structure Scanned (host : Host) (ambient : Ambient) (first : Nat) (timers after : List PktTimer)
    (before clock : Int) (sent : List Sent) : Prop where
  packets : after.map PktTimer.packet = timers.map PktTimer.packet
  later : before ≤ clock
  started : ∀ element ∈ after, element.start ≤ clock
  fromQueue : FromQueue host first timers sent
  resends : (∀ reading, ambient.elapsed reading = 6) → ResendsAll host first timers sent

/-- Nothing is left to scan. -/
theorem scanned_nil (host : Host) (ambient : Ambient) (first : Nat) (clock : Int) :
    Scanned host ambient first [] [] clock clock [] where
  packets := rfl
  later := Int.le_refl _
  started := by simp
  fromQueue := by simp [FromQueue]
  resends := by simp [ResendsAll]

/-- The timer in front expired: its packet is sent, and its start set anew. -/
theorem Scanned.resent {host : Host} {ambient : Ambient} {first : Nat}
    {timers after : List PktTimer}
    {before middle clock : Int} {sent : List Sent}
    (rest : Scanned host ambient (first + 1) timers after middle clock sent)
    {element reset : PktTimer} (packet : reset.packet = element.packet) (passes : before ≤ middle)
    (start : reset.start ≤ middle) :
    Scanned host ambient first (element :: timers) (reset :: after) before clock
      (⟨first, wire host element.packet⟩ :: sent) where
  packets := by rw [List.map_cons, List.map_cons, rest.packets, packet]
  later := Int.le_trans passes rest.later
  started := List.forall_mem_cons.mpr ⟨Int.le_trans start rest.later, rest.started⟩
  fromQueue := by
    intro item listed
    rcases List.mem_cons.mp listed with rfl | inside
    · exact ⟨0, element, rfl, rfl⟩
    · exact fromQueue_later host rest.fromQueue item inside
  resends := by
    intro slow i other found
    cases i with
    | zero =>
      obtain rfl : element = other := by simpa using found
      exact List.mem_cons_self ..
    | succ i =>
      have later := rest.resends slow i other (by simpa using found)
      rw [Nat.add_assoc, Nat.add_comm 1] at later
      exact List.mem_cons_of_mem _ later

/-- The timer in front did not expire, so not enough time passed. -/
theorem Scanned.kept {host : Host} {ambient : Ambient} {first : Nat} {timers after : List PktTimer}
    {before middle clock : Int} {sent : List Sent}
    (rest : Scanned host ambient (first + 1) timers after middle clock sent)
    {element seen : PktTimer} (packet : seen.packet = element.packet) (passes : before ≤ middle)
    (start : seen.start ≤ middle) (fast : ¬ ∀ reading, ambient.elapsed reading = 6) :
    Scanned host ambient first (element :: timers) (seen :: after) before clock sent where
  packets := by rw [List.map_cons, List.map_cons, rest.packets, packet]
  later := Int.le_trans passes rest.later
  started := List.forall_mem_cons.mpr ⟨Int.le_trans start rest.later, rest.started⟩
  fromQueue := fromQueue_later host rest.fromQueue
  resends := fun slow => absurd slow fast

/-- The loop over the timers, from slot `front.length` to the end of the queue. -/
theorem timerLoop_exact (host : Host) (ambient : Ambient) (front : List (Option PktTimer))
    (timers : List PktTimer) (rest : List (Option PktTimer)) (state : SendState)
    (window : state.window = front ++ (timers.map some ++ rest))
    (sendable : ∀ element ∈ timers, Sendable element.packet)
    (started : ∀ element ∈ timers, element.start ≤ state.clock) :
    ∃ (after : List PktTimer) (clock : Int) (sent : List Sent),
      timerLoop host ambient timers.length front.length state =
        .ok ({ state with window := front ++ (after.map some ++ rest), clock := clock }, sent) ∧
      Scanned host ambient front.length timers after state.clock clock sent := by
  induction timers generalizing front state with
  | nil =>
    refine ⟨[], state.clock, [], ?_, scanned_nil host ambient _ _⟩
    rw [← window]
    rfl
  | cons element timers inductionHypothesis =>
    rw [List.map_cons, List.cons_append] at window
    have startedHere := started element (List.mem_cons_self ..)
    have sendableHere := sendable element (List.mem_cons_self ..)
    have position (entry : PktTimer) : (front ++ [some entry]).length = front.length + 1 := by simp
    -- the other timers, once the slot of this one is written
    have others (entry : PktTimer) (clock : Int) (passes : state.clock ≤ clock) :=
      inductionHypothesis (front ++ [some entry])
        { state with window := front ++ some entry :: (timers.map some ++ rest), clock := clock }
        (by simp) (fun other listed => sendable other (List.mem_cons_of_mem _ listed))
        (fun other listed => Int.le_trans (started other (List.mem_cons_of_mem _ listed)) passes)
    obtain ⟨now, reads⟩ : ∃ now, state.clock + (ambient.elapsed (2 * front.length) : Int) = now :=
      ⟨_, rfl⟩
    rw [List.length_cons, timerLoop, window, timerAt_split]
    by_cases expired : now - element.start > 5
    · obtain ⟨reset, resets⟩ : ∃ reset : PktTimer, { element with
          finish := now
          start := now + ambient.elapsed (2 * front.length + 1) } = reset := ⟨_, rfl⟩
      obtain ⟨after, clock, sent, loops, scanned⟩ :=
        others reset (now + ambient.elapsed (2 * front.length + 1)) (by omega)
      rw [position] at loops scanned
      refine ⟨reset :: after, clock, ⟨front.length, wire host element.packet⟩ :: sent, ?_,
        scanned.resent (by rw [← resets]) (by simp only; omega) (by rw [← resets])⟩
      simp only [bind, Except.bind, reads, expired, if_true,
        transmit_sendable host element.packet _ sendableHere, setTimer_split, resets, loops]
      simp [pure, Except.pure]
    · obtain ⟨seen, sees⟩ : ∃ seen : PktTimer, { element with finish := now } = seen := ⟨_, rfl⟩
      obtain ⟨after, clock, sent, loops, scanned⟩ := others seen now (by omega)
      rw [position] at loops scanned
      have fast : ¬ ∀ reading, ambient.elapsed reading = 6 := by
        intro slow
        rw [slow] at reads
        omega
      refine ⟨seen :: after, clock, sent, ?_, scanned.kept (by rw [← sees]) (by simp only; omega)
        (by rw [← sees]; simp only; omega) fast⟩
      simp only [bind, Except.bind, reads, expired, if_false, setTimer_split, sees, loops]
      simp

/-! ## The parts -/

/-- The fields the scan does not write. -/
def SameButTimers (state other : SendState) : Prop :=
  ∃ window clock, other = { state with window := window, clock := clock }

/-- The scan never faults; it keeps the packets of the queue and sends some of them. -/
theorem scanTimers_exact (host : Host) (ambient : Ambient) {timers : List PktTimer}
    {state : SendState} (queued : Queued timers state) :
    ∃ (after : List PktTimer) (next : SendState) (sent : List Sent),
      scanTimers host ambient state = .ok (next, sent) ∧ Queued after next ∧
      SameButTimers state next ∧ after.map PktTimer.packet = timers.map PktTimer.packet ∧
      FromQueue host 0 timers sent ∧
      ((∀ reading, ambient.elapsed reading = 6) → ResendsAll host 0 timers sent) := by
  obtain ⟨rest, window⟩ := queued.window
  obtain ⟨after, clock, sent, loops, scanned⟩ :=
    timerLoop_exact host ambient [] timers rest state window queued.sendable queued.started
  have packets := scanned.packets
  have count : state.currentIndexWindow.toNat = timers.length := by
    rw [queued.index, Int.toNat_natCast]
  have same : after.length = timers.length := by simpa using congrArg List.length packets
  have size := queued.size
  rw [window, List.length_append, List.length_map] at size
  refine ⟨after, _, sent, by rw [scanTimers, count]; exact loops,
    ⟨⟨rest, rfl⟩, ?_, ?_, ?_, scanned.started⟩, ⟨_, _, rfl⟩, packets, scanned.fromQueue,
    scanned.resends⟩
  · simp only [List.length_append, List.length_map]
    omega
  · simp only [queued.index, same]
  · intro element listed
    have packet := List.mem_map_of_mem (f := PktTimer.packet) listed
    rw [packets] at packet
    obtain ⟨original, member, equal⟩ := List.mem_map.mp packet
    exact equal ▸ queued.sendable original member

/-- Whatever was read: a packet that can be sent is sent, and put into the slot at the
index, if there is one. -/
theorem readInput_sendable (host : Host) (ambient : Ambient) (result : Option (List Byte))
    (state : SendState) (sendable : Sendable (builtPacket ambient result state))
    (inside : 0 ≤ state.currentIndexWindow ∧ state.currentIndexWindow < state.window.length) :
    readInput host ambient result state = .ok ({ state with
        buffer := readInto maxPayloadSize result state.buffer
        seqnum := state.seqnum + 1
        window := state.window.set state.currentIndexWindow.toNat
          (some ⟨state.clock + ambient.elapsed 62, ambient.stale,
            builtPacket ambient result state⟩)
        currentIndexWindow := state.currentIndexWindow + 1
        finish := if readSize maxPayloadSize result = 0 then 1 else state.finish
        clock := state.clock + ambient.elapsed 62 },
      [⟨state.currentIndexWindow, wire host (builtPacket ambient result state)⟩]) := by
  simp only [readInput, bind, Except.bind, transmit_sendable host _ _ sendable, setTimer,
    if_pos inside, pure, Except.pure]

/-- What is built from a chunk can be sent. -/
theorem builtPacket_sendable (ambient : Ambient) (chunk : List Byte) (state : SendState)
    (bounded : chunk.length ≤ 512) : Sendable (builtPacket ambient (some chunk) state) := by
  rw [builtPacket_chunk ambient chunk state bounded state.seqnum.toNat (by simp)]
  have valid := chunk_valid state.seqnum.toNat chunk (ambient.fresh 0).crc bounded
  exact ⟨valid.readable, valid.bounded⟩

/-- A successful read that the window has room for appends its packet, and sends it. -/
theorem readInput_exact (host : Host) (ambient : Ambient) {timers : List PktTimer}
    {state : SendState} (queued : Queued timers state) (room : timers.length < 31)
    (chunk : List Byte) (bounded : chunk.length ≤ 512) (number : Nat)
    (next : state.seqnum = BitVec.ofNat 8 number) :
    ∃ (element : PktTimer) (window : List (Option PktTimer)) (buffer : Nat → Byte) (clock : Int),
      readInput host ambient (some chunk) state = .ok ({ state with
          buffer := buffer
          seqnum := BitVec.ofNat 8 (number + 1)
          window := window
          currentIndexWindow := timers.length + 1
          finish := if chunk.length = 0 then 1 else state.finish
          clock := clock },
        [⟨timers.length, wire host element.packet⟩]) ∧
      element.packet = builtPacket ambient (some chunk) state ∧
      Queued (timers ++ [element]) { state with
          buffer := buffer
          seqnum := BitVec.ofNat 8 (number + 1)
          window := window
          currentIndexWindow := timers.length + 1
          finish := if chunk.length = 0 then 1 else state.finish
          clock := clock } := by
  obtain ⟨rest, window⟩ := queued.window
  have size := queued.size
  have index := queued.index
  have sendable := builtPacket_sendable ambient chunk state bounded
  have reads := readInput_sendable host ambient (some chunk) state sendable (by omega)
  have advanced : state.seqnum + 1 = BitVec.ofNat 8 (number + 1) := by
    rw [next, BitVec.ofNat_add]
    rfl
  have sizeRead : readSize maxPayloadSize (some chunk) = chunk.length := by
    rw [readSize, List.take_of_length_le (show chunk.length ≤ maxPayloadSize from bounded)]
  simp only [advanced, sizeRead, Int.natCast_eq_zero, index] at reads
  rw [window, List.length_append, List.length_map] at size
  obtain ⟨entry, others, split⟩ : ∃ entry others, rest = entry :: others :=
    List.exists_cons_of_length_pos (by omega)
  refine ⟨⟨state.clock + ambient.elapsed 62, ambient.stale, builtPacket ambient (some chunk) state⟩,
    _, _, _, reads, rfl, ⟨⟨others, ?_⟩, ?_, ?_, ?_, ?_⟩⟩
  · simp only [window, split, Int.toNat_natCast]
    rw [set_items, List.map_append, List.append_assoc]
    rfl
  · exact List.length_set.trans queued.size
  · simp
  · intro element listed
    rcases List.mem_append.mp listed with earlier | new
    · exact queued.sendable element earlier
    · rw [List.mem_singleton.mp new]
      exact sendable
  · intro element listed
    simp only
    rcases List.mem_append.mp listed with earlier | new
    · have started := queued.started element earlier
      omega
    · rw [List.mem_singleton.mp new]

/-- What the part that reads the socket makes of an intact answer. -/
theorem readSocket_answer (host : Host) (ambient : Ambient) {datagram : List Byte}
    {type : BitVec 32} {number window : Nat}
    (announces : Announces host datagram type number window) (state : SendState) :
    ∃ packet, pktGetType packet = type ∧ pktGetSeqnum packet = number ∧
      pktGetWindow packet = window ∧
      readSocket host ambient (some datagram) state =
        if type = ptypeAck then
          handleAck packet (state.seqnum.toNat - 1) (state.currentIndexWindow - 1) state
        else if type = ptypeNack then
          handleNack host ambient packet (state.seqnum.toNat - 1)
            (state.currentIndexWindow - 1) state
        else .ok ⟨state, [], false⟩ := by
  obtain ⟨size, decodes⟩ := announces
  obtain ⟨packet, decoded, typed, numbered, windowed⟩ :=
    decodes _ (pktNew (ambient.fresh 1)) (holds_read 8 datagram (ambient.junk 1) (by omega))
  refine ⟨packet, typed, numbered, windowed, ?_⟩
  rw [readSocket, asSize_read 8 datagram (by omega) (by omega), size, decoded]
  simp only [if_true, typed]

/-- An acknowledgement whose position is inside drops the front of the queue. -/
theorem readSocket_ack (host : Host) (ambient : Ambient) {timers : List PktTimer}
    {state : SendState} (queued : Queued timers state) {datagram : List Byte} {number window : Nat}
    (announces : Announces host datagram ptypeAck number window) (small : number < 256)
    (dropped : Nat) (enough : dropped ≤ timers.length)
    (position : ((state.seqnum.toNat : Int) - number) % 256 = timers.length - dropped) :
    ∃ slots, readSocket host ambient (some datagram) state = .ok
        ⟨{ state with
            limitedWindowSize := window
            window := slots
            currentIndexWindow := (timers.length - dropped : Nat) },
          [], timers.length = dropped ∧ state.finish = 1⟩ ∧
      Queued (timers.drop dropped) { state with
            limitedWindowSize := window
            window := slots
            currentIndexWindow := (timers.length - dropped : Nat) } := by
  obtain ⟨packet, _, numbered, windowed, serves⟩ := readSocket_answer host ambient announces state
  obtain ⟨rest, slots⟩ := queued.window
  have short := queued.short
  have front : (timers.take dropped).length = dropped := by simp [enough]
  have located : getAckPosition ((state.seqnum.toNat : Int) - 1) ((pktGetSeqnum packet : Int) - 1)
      (state.currentIndexWindow - 1) = ((timers.take dropped).length - 1 : Int) := by
    rw [numbered, ack_position _ _ _ state.seqnum.isLt small, position, queued.index, front]
    omega
  have whole : timers.take dropped ++ timers.drop dropped = timers := List.take_append_drop ..
  have last : state.currentIndexWindow - 1 =
      ((timers.take dropped ++ timers.drop dropped).length - 1 : Int) := by
    rw [whole, queued.index]
  obtain ⟨after, modifies, kept, _, continues⟩ := BufferRun.modifyBuffer_exact (timers.take dropped)
    (timers.drop dropped) rest ⟨state.window, [], []⟩ (by rw [whole]; exact slots)
  have size : after.slots.length = 31 := continues.1.trans queued.size
  have remaining : state.currentIndexWindow - ((timers.take dropped).length - 1) - 1 =
      ((timers.length - dropped : Nat) : Int) := by
    rw [queued.index, front]
    omega
  refine ⟨after.slots, ?_, ⟨⟨_, by rw [List.append_assoc] at kept; exact kept⟩, size, ?_, ?_, ?_⟩⟩
  · rw [serves, if_pos rfl, handleAck, located, last, modifies]
    have printable : ((timers.length - dropped : Nat) : Int) ≤ after.slots.length := by omega
    have emptied : ((timers.length - dropped : Nat) : Int) = 0 ↔ timers.length = dropped := by omega
    simp only [bind, Except.bind, printBuffer, remaining, printable, if_true, pure, Except.pure,
      windowed, emptied]
  · simp
  · exact fun element listed => queued.sendable element (List.mem_of_mem_drop listed)
  · exact fun element listed => queued.started element (List.mem_of_mem_drop listed)

/-- A negative acknowledgement whose position is inside resends that packet. -/
theorem readSocket_nack (host : Host) (ambient : Ambient) {timers : List PktTimer}
    {state : SendState} (queued : Queued timers state) {datagram : List Byte} {number window : Nat}
    (announces : Announces host datagram ptypeNack number window) (small : number < 256)
    (index : Nat) (element : PktTimer) (found : timers[index]? = some element)
    (position : ((state.seqnum.toNat : Int) - 1 - number) % 256 = timers.length - 1 - index) :
    ∃ (slots : List (Option PktTimer)) (clock : Int) (replaced : PktTimer),
      readSocket host ambient (some datagram) state = .ok
        ⟨{ state with limitedWindowSize := window, window := slots, clock := clock },
          [⟨index, wire host element.packet⟩], false⟩ ∧
      replaced.packet = element.packet ∧
      Queued (timers.set index replaced)
        { state with limitedWindowSize := window, window := slots, clock := clock } := by
  obtain ⟨packet, _, numbered, windowed, serves⟩ := readSocket_answer host ambient announces state
  obtain ⟨rest, slots⟩ := queued.window
  obtain ⟨inside, same⟩ := List.getElem?_eq_some_iff.mp found
  have sendable := queued.sendable element (List.mem_of_getElem? found)
  have located : getAckPosition ((state.seqnum.toNat : Int) - 1) (pktGetSeqnum packet)
      (state.currentIndexWindow - 1) = index := by
    rw [numbered, nack_position _ _ _ state.seqnum.isLt small, position, queued.index]
    omega
  have within : 0 ≤ (index : Int) ∧ (index : Int) < state.window.length := by
    have short := queued.short
    have size := queued.size
    omega
  have read : timerAt state.window index = .ok element := by
    rw [timerAt, if_pos within, Int.toNat_natCast, slots]
    simp [slot, List.getElem?_append_left, inside, same]
  have stored (replaced : PktTimer) : setTimer state.window index replaced =
      .ok ((timers.set index replaced).map some ++ rest) := by
    rw [setTimer, if_pos within, Int.toNat_natCast, slots,
      List.set_append_left _ _ (by simpa using inside), List.map_set]
  have size := queued.size
  rw [slots, List.length_append, List.length_map] at size
  refine ⟨_, state.clock + ambient.elapsed 63,
    { element with start := state.clock + ambient.elapsed 63 }, ?_, rfl,
    ⟨⟨rest, rfl⟩, ?_, ?_, ?_, ?_⟩⟩
  · rw [serves, if_neg (by decide), if_pos rfl, handleNack, located, read]
    simp only [bind, Except.bind, transmit_sendable host _ _ sendable, stored, pure, Except.pure,
      windowed]
  · simp only [List.length_append, List.length_map, List.length_set]
    omega
  · simp [queued.index]
  · intro other listed
    rcases List.mem_or_eq_of_mem_set listed with earlier | rfl
    · exact queued.sendable other earlier
    · exact sendable
  · intro other listed
    simp only
    rcases List.mem_or_eq_of_mem_set listed with earlier | rfl
    · have started := queued.started other earlier
      omega
    · exact Int.le_refl _

end SelectiveRepeat
