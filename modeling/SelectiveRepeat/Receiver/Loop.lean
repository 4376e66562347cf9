import SelectiveRepeat.Packet.Answers
import SelectiveRepeat.Packet.Transfer
import SelectiveRepeat.Receiver.Buffer

/-!
# sel_repeat_read

One pass through the loop of `sel_repeat_read`, and a run of passes over a list of
arrivals. `printf` is left out. A pointer to a packet is allocated by `pkt_new`
once per pass; the two packets of `send_ack` and `send_nack` live and die inside
the call.

`pkt_del` is reported as an event and has no other effect here. What the C library
does when it is handed a packet whose payload pointer was never set is a question
about the heap, not about the values this model follows.
-/

namespace SelectiveRepeat

open PackedSlots

/-- How `pkt_new` makes pointers: what is allocated is what a dereference reads. -/
structure Allocator {Ref : Type} (deref : Ref → Pkt) where
  alloc : Pkt → Ref
  deref_alloc : ∀ pkt, deref (alloc pkt) = pkt

/-- Pointers that are the packets themselves. -/
def Allocator.values : Allocator (id : Pkt → Pkt) := ⟨id, fun _ => rfl⟩

/-- The locals of `sel_repeat_read` that live across passes. `lastack` starts at 255
and is only ever assigned `(lastack + 1) % 256`. -/
structure RecvState (Ref : Type) where
  lastack : Nat
  windowSize : Int
  pktBuffer : Nat → Byte
  receiveBuffer : List (Option Ref)

/-- The state before the first pass; `pkt_buffer` is not initialised. -/
def recvStart (Ref : Type) (junk : Nat → Byte) : RecvState Ref where
  lastack := 255
  windowSize := maxWindowSize
  pktBuffer := junk
  receiveBuffer := List.replicate maxWindowSize none

/-- The answer of the given type: `send_ack` and `send_nack` after their packet is
allocated, up to the datagram they write. -/
def sendAnswer (host : Host) (type : BitVec 32) (block : Pkt) (junk : Nat → Byte)
    (seqnum : Nat) (windowSize : Int) : Run (List Byte) :=
  let pkt := pktNew block
  let pkt := (pktSetType pkt type).2
  let pkt := (pktSetWindow pkt (BitVec.ofInt 8 windowSize)).2
  let pkt := (pktSetSeqnum pkt (BitVec.ofNat 8 seqnum)).2
  let pkt := (pktSetLength pkt 0).2
  transmit host pkt ⟨junk, []⟩ 8

/-- `send_ack` -/
def sendAck (host : Host) (block : Pkt) (junk : Nat → Byte) (lastack : Nat) (windowSize : Int) :
    Run (List Byte) :=
  sendAnswer host ptypeAck block junk ((lastack + 1) % 256) windowSize

/-- `send_nack` -/
def sendNack (host : Host) (block : Pkt) (junk : Nat → Byte) (seqnum : Nat) (windowSize : Int) :
    Run (List Byte) :=
  sendAnswer host ptypeNack block junk seqnum windowSize

/-- `write_payload` passes the payload and its length to `write`. -/
def writePayload (pkt : Pkt) : List Byte :=
  ((pktGetPayload pkt).getD []).take (pktGetLength pkt)

variable {Ref : Type} (deref : Ref → Pkt)

/-- The loop that writes the buffered packets that follow the delivered one, at
index `i` with `remaining` indices to go. -/
def drainLoop (host : Host) (ambient : Ambient) :
    Nat → Nat → RecvState Ref → Run (RecvState Ref × List (Event Ref))
  | 0, _, state => .ok (state, [])
  | remaining + 1, i, state =>
    match slot state.receiveBuffer i with
    | none => do
      let ack ← sendAck host (ambient.fresh (i + 1)) (ambient.junk (i + 1)) state.lastack
        state.windowSize
      return (state, [.sendAck ack state.receiveBuffer])
    | some entry =>
      if pktGetSeqnum (deref entry) = (state.lastack + 1) % 256 then do
        let state := { state with
          receiveBuffer := state.receiveBuffer.set i none
          windowSize := state.windowSize + 1
          lastack := (state.lastack + 1) % 256 }
        let ack ← sendAck host (ambient.fresh (i + 1)) (ambient.junk (i + 1)) state.lastack
          state.windowSize
        let (last, events) ← drainLoop host ambient remaining (i + 1) state
        return (last, .writePayload (writePayload (deref entry)) :: .pktDel entry ::
          .sendAck ack state.receiveBuffer :: events)
      else do
        let ack ← sendAck host (ambient.fresh (i + 1)) (ambient.junk (i + 1)) state.lastack
          state.windowSize
        return (state, [.sendAck ack state.receiveBuffer])

/-- The branch of the packet that is expected next. -/
def deliverExpected (host : Host) (ambient : Ambient) (pkt : Ref) (state : RecvState Ref) :
    Run (RecvState Ref × List (Event Ref)) := do
  let (buffer, windowSize, removed) :=
    removeFromBuffer deref state.receiveBuffer ((state.lastack + 1) % 256) state.windowSize
  let state := { state with
    receiveBuffer := buffer
    windowSize := windowSize
    lastack := (state.lastack + 1) % 256 }
  let (last, drained) ← drainLoop deref host ambient maxWindowSize 0 state
  return (last, .writePayload (writePayload (deref pkt)) :: .pktDel pkt :: (removed ++ drained))

/-- The `if` statement on a datagram whose header was read. -/
def handlePacket (host : Host) (ambient : Ambient) (err : PktStatusCode) (sduSize : Int)
    (pkt : Ref) (state : RecvState Ref) : Run (RecvState Ref × List (Event Ref)) := do
  let seqnum := pktGetSeqnum (deref pkt)
  let expected : Int := ((state.lastack + 1) % 256 : Nat)
  if compareSeqnums state.lastack seqnum expected < maxWindowSize then
    if err ≠ .pktOk then
      if err = .eUnconsistent ∧ sduSize = 4 then
        let nack ← sendNack host (ambient.fresh 1) (ambient.junk 1) seqnum state.windowSize
        return (state, [.sendNack nack state.receiveBuffer, .free pkt])
      else
        return (state, [.free pkt])
    else if seqnum = (state.lastack + 1) % 256 then
      deliverExpected deref host ambient pkt state
    else
      let (buffer, windowSize, events) :=
        insertPkt deref state.lastack state.receiveBuffer pkt state.windowSize
      return ({ state with receiveBuffer := buffer, windowSize := windowSize }, events)
  else
    return (state, [])

/-- `max_sdu_size` -/
def maxSduSize : Nat := maxPayloadSize + 8

/-- One pass through the loop of `sel_repeat_read`. What it releases it reports as events.
On a datagram of fewer than four bytes it calls `pkt_del` on a packet whose payload
pointer was never set. The pass over values goes on behind that call, for which the code
promises nothing: the life cycle and the refinement on the heap look at that. -/
def selRepeatReadBody (host : Host) (allocator : Allocator deref) (ambient : Ambient)
    (result : Option (List Byte)) (state : RecvState Ref) :
    Run (RecvState Ref × List (Event Ref)) := do
  let state := { state with pktBuffer := readInto maxSduSize result state.pktBuffer }
  let sduSize := readSize maxSduSize result
  let (err, content) := pktDecode host state.pktBuffer (asSize sduSize) (pktNew (ambient.fresh 0))
  let pkt := allocator.alloc content
  let (state, events) ←
    if err = .eNoheader then pure (state, [.pktDel pkt])
    else handlePacket deref host ambient err sduSize pkt state
  return ({ state with receiveBuffer := refresh state.receiveBuffer }, events)

/-- What one pass depends on besides the state. -/
structure Arrival where
  ambient : Ambient
  result : Option (List Byte)

/-- `sel_repeat_read` on a sequence of arrivals, with the events of each pass. -/
def selRepeatRead (host : Host) :
    List Arrival → RecvState Pkt → Run (RecvState Pkt × List (List (Event Pkt)))
  | [], state => .ok (state, [])
  | arrival :: rest, state => do
    let (next, events) ←
      selRepeatReadBody id host Allocator.values arrival.ambient arrival.result state
    let (last, passes) ← selRepeatRead host rest next
    return (last, events :: passes)

/-- What is written is the payload without its padding. -/
theorem writePayload_body (pkt : Pkt) : writePayload pkt = pkt.body := rfl

/-! ## Answers -/

/-- Both answers write a well-formed datagram of 8 bytes, whatever the allocated
block and the local array held. -/
theorem sendAnswer_exact (host : Host) (type : BitVec 3) (block : Pkt) (junk : Nat → Byte)
    (number window : Nat) (known : type = 2 ∨ type = 4) (bounded : window ≤ 31) :
    sendAnswer host (type.setWidth 32) block junk number window =
      .ok (wire host (answerPkt type number window)) := by
  have typeSet (pkt : Pkt) : pktSetType pkt (type.setWidth 32) =
      (.pktOk, { pkt with type := type }) := by
    rcases known with rfl | rfl <;> rfl
  have windowSet (pkt : Pkt) : pktSetWindow pkt (BitVec.ofInt 8 window) =
      (.pktOk, { pkt with window := BitVec.ofNat 5 window }) := by
    have values : ∀ value ≤ 31, ¬ (BitVec.ofNat 8 value).toNat > 31 ∧
        (BitVec.ofNat 8 value).setWidth 5 = BitVec.ofNat 5 value := by decide
    simp only [pktSetWindow, BitVec.ofInt_natCast, maxWindowSize, (values window bounded).1,
      (values window bounded).2, if_false]
  have lengthSet (pkt : Pkt) : pktSetLength pkt 0 = (.pktOk, { pkt with length := 0 }) := rfl
  simp only [sendAnswer, typeSet, windowSet, lengthSet, pktSetSeqnum, pktNew]
  have sameWire := wire_congr host (answerPkt type number window)
    ⟨type, BitVec.ofNat 5 window, BitVec.ofNat 8 number, 0, none, block.crc⟩
    ⟨rfl, rfl, rfl, rfl⟩ rfl
  have size := answer_length host type number window
  rw [transmit_exact host _ _ _ (.inl rfl) (by rw [sameWire, size]) (by decide), sameWire]

/-- `send_ack` writes the acknowledgement of the packets up to `lastack`. -/
theorem sendAck_exact (host : Host) (block : Pkt) (junk : Nat → Byte) (lastack window : Nat)
    (bounded : window ≤ 31) :
    sendAck host block junk lastack window =
      .ok (ackDatagram host ((lastack + 1) % 256) window) :=
  sendAnswer_exact host 2 block junk _ window (.inl rfl) bounded

/-- `send_nack` writes the negative acknowledgement of its number. -/
theorem sendNack_exact (host : Host) (block : Pkt) (junk : Nat → Byte) (seqnum window : Nat)
    (bounded : window ≤ 31) :
    sendNack host block junk seqnum window = .ok (nackDatagram host seqnum window) :=
  sendAnswer_exact host 4 block junk seqnum window (.inr rfl) bounded

end SelectiveRepeat
