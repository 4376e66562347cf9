import SelectiveRepeat.LinkSim.Clock

/-!
# link_sim

The link simulator stands between the sender and the receiver and relays datagrams in
both directions over one socket. Those of the sender it drops, cuts, corrupts or delays
at random; those of the receiver it hands back untouched. A pass of `proxy_loop` waits in
`select`, sends the delayed packets that have expired, and handles one datagram.

Which datagram is which is not the simulator's business. A tag of any type accompanies
each of them, the functions carry it along, and nothing depends on it.

The log on stdout is left out, and so is what `minq_del` frees after the loop.
-/

namespace SelectiveRepeat

/-- What ends the program outside its own control: a fault in memory, or a division. -/
inductive Crash where
  | memory (fault : Fault)
  | divisionByZero
  deriving DecidableEq, Repr

/-- A run of the simulator's code returns, or crashes. -/
abbrev ProxyRun (β : Type) := Except Crash β

/-- A computation on memory alone, as part of one that also divides. -/
def onMemory {β : Type} (run : Run β) : ProxyRun β := run.mapError .memory

/-- `EXIT_SUCCESS` and `EXIT_FAILURE` -/
inductive ExitStatus where
  | success
  | failure
  deriving DecidableEq, Repr

/-! ## The environment -/

/-- The fields of `struct sockaddr_in6` that `sockaddr_cmp` compares. -/
structure SockAddr where
  sin6Addr : BitVec 128
  sin6Port : BitVec 16
  deriving DecidableEq

/-- `sockaddr_cmp`: whether the addresses differ. -/
def sockaddrCmp (a b : SockAddr) : Bool := a.sin6Addr ≠ b.sin6Addr ∨ a.sin6Port ≠ b.sin6Port

/-- `sockaddr_cmp` is non-zero exactly if the addresses differ. -/
theorem sockaddrCmp_iff (a b : SockAddr) : sockaddrCmp a b = true ↔ a ≠ b := by
  cases a
  cases b
  simp only [sockaddrCmp, decide_eq_true_eq, ne_eq, SockAddr.mk.injEq]
  exact not_and_or.symm

/-- What `main` and `get_socket` set, as `unsigned int` and as an address. -/
structure Settings where
  delay : BitVec 32
  jitter : BitVec 32
  errRate : BitVec 32
  cutRate : BitVec 32
  lossRate : BitVec 32
  destAddr : SockAddr

/-- The values `rand` returns one after the other: those of the seed. -/
structure Random where
  draws : Nat → BitVec 31
  used : Nat

/-- `rand()` -/
def Random.rand (random : Random) : BitVec 31 × Random :=
  (random.draws random.used, { random with used := random.used + 1 })

/-- `RAND_PERCENT` -/
def Random.percent (random : Random) : Nat × Random :=
  (random.rand.1.toNat % 101, random.rand.2)

/-- `rate && RAND_PERCENT < rate` -/
def Random.hits (rate : BitVec 32) (random : Random) : Bool × Random :=
  if rate = 0 then (false, random) else (random.percent.1 < rate.toNat, random.percent.2)

/-- How a call of `sendto` ends; after the second, `errno` is one of EWOULDBLOCK, EINTR
and EAGAIN. -/
inductive SendtoResult where
  | sent
  | later
  | failed
  deriving DecidableEq

/-- What `select` and the calls after it return in one pass: the clock of `update_time`,
the results of `sendto` for the delayed packets and for the one that is handled, whether
`malloc` and `realloc` find memory, the datagram of `recvfrom` with its tag, if the
socket is readable, and whether `errno` then is one of EINTR, EAGAIN and EWOULDBLOCK. -/
structure Conditions (τ : Type) where
  clock : Option Timespec
  delayedSends : Nat → SendtoResult
  send : SendtoResult
  malloc : Bool
  reallocs : Bool
  readable : Bool
  received : Option (SockAddr × τ × List Byte)
  retry : Bool

/-! ## The state -/

/-- `struct pkt_slot`: the expiration date, and the bytes of `buf` in use. -/
structure PktSlot (τ : Type) where
  ts : Timeval
  tag : τ
  buf : List Byte

instance {τ : Type} [Inhabited τ] : Inhabited (PktSlot τ) := ⟨⟨default, default, []⟩⟩

/-- The globals that change. -/
structure Simulator (τ : Type) where
  pktQueue : MinQueue (PktSlot τ)
  lastClock : Timeval
  hasSourceAddr : Bool
  srcAddr : SockAddr
  random : Random

/-- What becomes of a datagram in a pass, unless it is delayed or of no known host. -/
inductive Outcome (τ : Type) where
  | lost (tag : τ)
  | forwarded (tag : τ) (data : List Byte)
  | relayed (tag : τ) (data : List Byte)

variable {τ : Type}

/-- `pkt_slot_cmp` -/
def pktSlotCmp (a b : PktSlot τ) : Bool := timevalCmp a.ts b.ts

/-- A pop takes an element off. -/
theorem minqPop_smaller {α : Type} {cmp : α → α → Bool} {q next : MinQueue α} {element : α}
    (peeks : minqPeek q = .ok (some element)) (pops : minqPop cmp q = .ok next) :
    next.size < q.size := by
  have occupied : q.size ≠ 0 := by
    intro empty
    simp [minqPeek, empty, pure, Except.pure] at peeks
  simp only [minqPop, if_neg occupied] at pops
  obtain ⟨last, _, pops⟩ := run_bind pops
  obtain ⟨moved, _, pops⟩ := run_bind pops
  obtain ⟨sunk, _, pops⟩ := run_bind pops
  cases pops
  exact Nat.sub_lt (Nat.pos_of_ne_zero occupied) Nat.one_pos

/-! ## Datagrams of the sender -/

/-- `deliver_delayed_pkt`, with the packets it sends. -/
def deliverDelayedPkt (sends : Nat → SendtoResult) (lastClock : Timeval)
    (queue : MinQueue (PktSlot τ)) :
    Run (ExitStatus × MinQueue (PktSlot τ) × List (PktSlot τ)) :=
  match _ : minqPeek queue with
  | .error fault => .error fault
  | .ok none => .ok (.success, queue, [])
  | .ok (some p) =>
    if timevalCmp lastClock p.ts then
      match sends 0 with
      | .later => .ok (.success, queue, [])
      | .failed => .ok (.failure, queue, [])
      | .sent =>
        match _ : minqPop pktSlotCmp queue with
        | .error fault => .error fault
        | .ok rest => do
          let (status, last, delivered) ←
            deliverDelayedPkt (fun index => sends (index + 1)) lastClock rest
          return (status, last, p :: delivered)
    else .ok (.success, queue, [])
termination_by queue.size
decreasing_by exact minqPop_smaller ‹_› ‹_›

/-- The bytes with the last one inverted. -/
def invertLast (buf : List Byte) : List Byte := buf.modify (buf.length - 1) (~~~ ·)

/-- The delay of one packet, in milliseconds. -/
def applyDelay (settings : Settings) (random : Random) : ProxyRun (Nat × Random) := do
  let (percent, random) := random.percent
  if settings.jitter = 0 then throw .divisionByZero
  let (value, random) := random.rand
  let applied := if percent > 49 then settings.delay + value.setWidth 32 % settings.jitter
    else settings.delay - value.setWidth 32 % settings.jitter
  return ((applied % 10000).toNat, random)

/-- What is left of a packet that is not dropped: it may be cut, or else corrupted. -/
def damage (settings : Settings) (buf : List Byte) (random : Random) : List Byte × Random :=
  let (cuts, random) := random.hits settings.cutRate
  if cuts then (buf.take 4, random)
  else
    let (errs, random) := random.hits settings.errRate
    (if errs then invertLast buf else buf, random)

/-- `simulate_link` -/
def simulateLink (settings : Settings) (conditions : Conditions τ) (tag : τ) (buf : List Byte)
    (sim : Simulator τ) : ProxyRun (ExitStatus × Simulator τ × List (Outcome τ)) := do
  let (drops, random) := sim.random.hits settings.lossRate
  if drops then return (.success, { sim with random := random }, [.lost tag])
  let (buf, random) := damage settings buf random
  if settings.delay ≠ 0 then
    let (appliedDelay, random) ← applyDelay settings random
    let sim := { sim with random := random }
    if conditions.malloc = false then return (.failure, sim, [.lost tag])
    let slot : PktSlot τ := ⟨expirationDate sim.lastClock appliedDelay, tag, buf⟩
    let (status, queue) ← onMemory (minqPush pktSlotCmp conditions.reallocs sim.pktQueue slot)
    if status ≠ 0 then return (.failure, sim, [.lost tag])
    return (.success, { sim with pktQueue := queue }, [])
  else
    let sim := { sim with random := random }
    if conditions.send ≠ .sent then return (.failure, sim, [.lost tag])
    return (.success, sim, [.forwarded tag buf])

/-! ## One pass -/

/-- `MAX_PKT_LEN` -/
def maxPktLen : Nat := 520

/-- The first host that sends anything is the source of the traffic. -/
def trackSource (sender : SockAddr) (sim : Simulator τ) : Simulator τ :=
  if sim.hasSourceAddr then sim else { sim with srcAddr := sender, hasSourceAddr := true }

/-- `process_incoming_pkt` -/
def processIncomingPkt (settings : Settings) (conditions : Conditions τ) (sim : Simulator τ) :
    ProxyRun (ExitStatus × Simulator τ × List (Outcome τ)) := do
  let noData : ExitStatus := if conditions.retry then .success else .failure
  match conditions.received with
  | none => return (noData, sim, [])
  | some (sender, tag, datagram) =>
    let buf := datagram.take maxPktLen
    if buf.length = 0 then return (noData, sim, [])
    if buf.length < 4 then return (.failure, sim, [])
    let sim := trackSource sender sim
    if sockaddrCmp sender settings.destAddr = false then
      if conditions.send ≠ .sent then return (.failure, sim, [])
      return (.success, sim, [.relayed tag buf])
    else if sockaddrCmp sender sim.srcAddr then
      return (.success, sim, [])
    else simulateLink settings conditions tag buf sim

/-- The first part of a pass of `proxy_loop` after its `select`: `update_time`, then
`deliver_delayed_pkt`. -/
def wakePart (conditions : Conditions τ) (sim : Simulator τ) :
    ProxyRun (ExitStatus × Simulator τ × List (Outcome τ)) := do
  match conditions.clock with
  | none => return (.failure, sim, [])
  | some reading =>
    let sim := { sim with lastClock := updateTime reading }
    let (status, queue, delivered) ←
      onMemory (deliverDelayedPkt conditions.delayedSends sim.lastClock sim.pktQueue)
    return (status, { sim with pktQueue := queue },
      delivered.map fun p => .forwarded p.tag p.buf)

/-- The second part, if the socket is readable. -/
def servePart (settings : Settings) (conditions : Conditions τ) (sim : Simulator τ) :
    ProxyRun (ExitStatus × Simulator τ × List (Outcome τ)) :=
  if conditions.readable then processIncomingPkt settings conditions sim
  else .ok (.success, sim, [])

/-- The state in which `proxy_loop` begins: `src_addr` is zero, and the clock was read. -/
def proxyStart (reading : Timespec) (random : Random) : Simulator τ where
  pktQueue := minqNew (PktSlot τ)
  lastClock := updateTime reading
  hasSourceAddr := false
  srcAddr := ⟨0, 0⟩
  random := random

/-- The timeout for the next `select`, or none: `get_queue_timeout`. -/
def getQueueTimeout (sim : Simulator τ) : Run (Option Timeval) := do
  let front ← minqPeek sim.pktQueue
  return front.map fun p => queueTimeout sim.lastClock p.ts

end SelectiveRepeat
