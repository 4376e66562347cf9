import SelectiveRepeat.Packet.Transfer
import SelectiveRepeat.Sender.Window

/-!
# sel_repeat_write

One pass through the loop of `sel_repeat_write` has three parts: the scan of the
timers, and after `select` the part that reads the input and the part that reads the
socket. Each is a function here, and a pass is their composition. `printf` is left
out, but the reads `print_buffer` makes of the window are not.

The window is an array of 31 pointers that nothing initialises. `none` stands for a
pointer that was never set as well as for NULL: reading through either is a fault.
-/

namespace SelectiveRepeat

open PackedSlots

/-- `struct pkt_timer`, with the seconds of its two times. -/
structure PktTimer where
  start : Int
  finish : Int
  packet : Pkt

/-- The locals of `sel_repeat_write` that live across passes, and the seconds of
CLOCK_MONOTONIC at its last reading. -/
structure SendState where
  buffer : Nat → Byte
  limitedWindowSize : Int
  seqnum : BitVec 8
  window : List (Option PktTimer)
  currentIndexWindow : Int
  finish : Int
  clock : Int

/-- The state before the first pass; `buffer` is not initialised. -/
def sendStart (junk : Nat → Byte) (clock : Int) : SendState where
  buffer := junk
  limitedWindowSize := 31
  seqnum := 0
  window := List.replicate 31 none
  currentIndexWindow := 0
  finish := 0
  clock := clock

/-- A datagram written to the socket, with the window slot its packet is in, which
the code does not transmit. -/
structure Sent where
  slot : Int
  datagram : List Byte

/-- `*window[i]` -/
def timerAt (window : List (Option PktTimer)) (i : Int) : Run PktTimer :=
  if 0 ≤ i ∧ i < window.length then
    match slot window i.toNat with
    | none => .error .wildPointer
    | some element => .ok element
  else .error (.outOfRange i)

/-- `window[i] = element` -/
def setTimer (window : List (Option PktTimer)) (i : Int) (element : PktTimer) :
    Run (List (Option PktTimer)) :=
  if 0 ≤ i ∧ i < window.length then .ok (window.set i.toNat (some element))
  else .error (.outOfRange i)

/-- The loop over the timers at index `i`, with `remaining` indices to go. -/
def timerLoop (host : Host) (ambient : Ambient) :
    Nat → Nat → SendState → Run (SendState × List Sent)
  | 0, _, state => .ok (state, [])
  | remaining + 1, i, state => do
    let element ← timerAt state.window i
    let clock := state.clock + ambient.elapsed (2 * i)
    let element : PktTimer := { element with finish := clock }
    if element.finish - element.start > 5 then
      let clock := clock + ambient.elapsed (2 * i + 1)
      let element : PktTimer := { element with start := clock }
      let data ← transmit host element.packet ⟨ambient.junk (3 + i), []⟩ 520
      let window ← setTimer state.window i element
      let (last, sent) ← timerLoop host ambient remaining (i + 1)
        { state with window := window, clock := clock }
      return (last, ⟨i, data⟩ :: sent)
    else
      let window ← setTimer state.window i element
      timerLoop host ambient remaining (i + 1) { state with window := window, clock := clock }

/-- The scan of the timers. -/
def scanTimers (host : Host) (ambient : Ambient) (state : SendState) :
    Run (SendState × List Sent) :=
  timerLoop host ambient state.currentIndexWindow.toNat 0 state

/-- The condition under which the input is put into the set `select` looks at. -/
def CanRead (state : SendState) : Prop :=
  (state.currentIndexWindow < state.limitedWindowSize ∧ state.finish = 0) ∨
    (state.limitedWindowSize = 0 ∧ state.currentIndexWindow = 0 ∧ state.finish = 0)

instance (state : SendState) : Decidable (CanRead state) :=
  inferInstanceAs (Decidable (_ ∨ _))

/-- The packet made of a read of the given size. The setters refuse what is out of
their bounds, and nothing looks at what they return. -/
def dataPacket (block : Pkt) (seqnum : BitVec 8) (buffer : Nat → Byte) (size : Int) : Pkt :=
  let packet := pktNew block
  let packet := (pktSetType packet ptypeData).2
  let packet := (pktSetSeqnum packet seqnum).2
  let packet := (pktSetWindow packet 0).2
  let packet := (pktSetLength packet (BitVec.ofInt 16 size)).2
  (pktSetPayload packet buffer (BitVec.ofInt 16 size)).2

/-- The packet made of what a read returns, in the state before it. -/
def builtPacket (ambient : Ambient) (result : Option (List Byte)) (state : SendState) : Pkt :=
  dataPacket (ambient.fresh 0) state.seqnum (readInto maxPayloadSize result state.buffer)
    (readSize maxPayloadSize result)

/-- The part that reads the input. -/
def readInput (host : Host) (ambient : Ambient) (result : Option (List Byte)) (state : SendState) :
    Run (SendState × List Sent) := do
  let buffer := readInto maxPayloadSize result state.buffer
  let size := readSize maxPayloadSize result
  let finish := if size = 0 then 1 else state.finish
  let packet := builtPacket ambient result state
  let data ← transmit host packet ⟨ambient.junk 0, []⟩ 520
  let clock := state.clock + ambient.elapsed 62
  let window ← setTimer state.window state.currentIndexWindow ⟨clock, ambient.stale, packet⟩
  return ({ state with
    buffer := buffer
    seqnum := state.seqnum + 1
    window := window
    currentIndexWindow := state.currentIndexWindow + 1
    finish := finish
    clock := clock }, [⟨state.currentIndexWindow, data⟩])

/-- The reads of `print_buffer`: the first `n` pointers. -/
def printBuffer (buffer : List (Option PktTimer)) (n : Int) : Run Unit :=
  if n ≤ buffer.length then .ok () else .error (.outOfRange buffer.length)

/-- What the part that reads the socket ends with. -/
structure Served where
  state : SendState
  sent : List Sent
  exited : Bool

/-- The branch of an acknowledgement. -/
def handleAck (packet : Pkt) (lastSeqnumSend pointeurLastSend : Int) (state : SendState) :
    Run Served := do
  let seqnumValidated : Int := pktGetSeqnum packet - 1
  let ackPosition := getAckPosition lastSeqnumSend seqnumValidated pointeurLastSend
  let run ← BufferRun.modifyBuffer ackPosition pointeurLastSend ⟨state.window, [], []⟩
  let state := { state with
    limitedWindowSize := pktGetWindow packet
    window := run.slots
    currentIndexWindow := state.currentIndexWindow - ackPosition - 1 }
  printBuffer state.window state.currentIndexWindow
  return ⟨state, [], state.currentIndexWindow = 0 ∧ state.finish = 1⟩

/-- The branch of a negative acknowledgement. -/
def handleNack (host : Host) (ambient : Ambient) (packet : Pkt)
    (lastSeqnumSend pointeurLastSend : Int) (state : SendState) : Run Served := do
  let nackPosition := getAckPosition lastSeqnumSend (pktGetSeqnum packet) pointeurLastSend
  let element ← timerAt state.window nackPosition
  let data ← transmit host element.packet ⟨ambient.junk 2, []⟩ 520
  let clock := state.clock + ambient.elapsed 63
  let window ← setTimer state.window nackPosition { element with start := clock }
  return ⟨{ state with
    limitedWindowSize := pktGetWindow packet
    window := window
    clock := clock }, [⟨nackPosition, data⟩], false⟩

/-- The part that reads the socket. -/
def readSocket (host : Host) (ambient : Ambient) (result : Option (List Byte)) (state : SendState) :
    Run Served :=
  let buffer := readInto 8 result (ambient.junk 1)
  let length := readSize 8 result
  let (status, packet) := pktDecode host buffer (asSize length) (pktNew (ambient.fresh 1))
  if status = .pktOk then
    let type := pktGetType packet
    let lastSeqnumSend : Int := state.seqnum.toNat - 1
    let pointeurLastSend := state.currentIndexWindow - 1
    if type = ptypeAck then handleAck packet lastSeqnumSend pointeurLastSend state
    else if type = ptypeNack then
      handleNack host ambient packet lastSeqnumSend pointeurLastSend state
    else .ok ⟨state, [], false⟩
  else .ok ⟨state, [], false⟩

/-- What `select` and the reads after it return: an error, or for each of the two
descriptors whether it is ready and what its `read` returns. -/
inductive Select where
  | error
  | ready (input socket : Option (Option (List Byte)))

/-- How a pass ends. -/
inductive Ending where
  | again
  | exitSuccess
  | exitErrno
  deriving DecidableEq

/-- The input is looked at only if it was put into the set. -/
def serveInput (host : Host) (ambient : Ambient) (input : Option (Option (List Byte)))
    (state : SendState) : Run (SendState × List Sent) :=
  match input with
  | some result => if CanRead state then readInput host ambient result state else .ok (state, [])
  | none => .ok (state, [])

/-- The socket always is, and an acknowledgement may end the program. -/
def serveSocket (host : Host) (ambient : Ambient) (socket : Option (Option (List Byte)))
    (state : SendState) : Run (SendState × List Sent × Ending) :=
  match socket with
  | some result => do
    let served ← readSocket host ambient result state
    return (served.state, served.sent, if served.exited then .exitSuccess else .again)
  | none => .ok (state, [], .again)

/-- What follows `select`. -/
def afterSelect (host : Host) (ambient : Ambient) (select : Select) (state : SendState) :
    Run (SendState × List Sent × Ending) :=
  match select with
  | .error => .ok (state, [], .exitErrno)
  | .ready input socket => do
    let (state, sent) ← serveInput host ambient input state
    let (state, answered, ending) ← serveSocket host ambient socket state
    return (state, sent ++ answered, ending)

/-- One pass through the loop of `sel_repeat_write`. -/
def selRepeatWriteBody (host : Host) (ambient : Ambient) (select : Select) (state : SendState) :
    Run (SendState × List Sent × Ending) := do
  let (state, resent) ← scanTimers host ambient state
  let (state, sent, ending) ← afterSelect host ambient select state
  return (state, resent ++ sent, ending)

end SelectiveRepeat
