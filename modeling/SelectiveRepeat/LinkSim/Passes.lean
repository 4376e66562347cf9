import SelectiveRepeat.LinkSim.Proxy

/-!
# What a pass of the simulator does

Delayed packets leave the queue in the order of their dates, those first whose date is
least, and only those whose date is past. A datagram of the source is lost, delayed, or
handed on at once, and whatever is handed on is the datagram, its header, or the
datagram with its last byte inverted. The simulator's memory is never at fault; its
division is, where a delay is set and no jitter.
-/

namespace SelectiveRepeat

open PriorityBag

variable {τ : Type}

/-- What the queue is ordered by. -/
def slotKey (slot : PktSlot τ) : Int ×ₗ Int := slot.ts.key

/-- The comparison of queued packets is the one of their dates. -/
theorem pktSlotCmp_compares : Compares (pktSlotCmp (τ := τ)) slotKey :=
  fun one other => timevalCmp_compares one.ts other.ts

/-- The date of a packet is past. -/
def Expired (lastClock : Timeval) (slot : PktSlot τ) : Prop :=
  timevalCmp lastClock slot.ts = true

instance (lastClock : Timeval) (slot : PktSlot τ) : Decidable (Expired lastClock slot) :=
  inferInstanceAs (Decidable (_ = true))

/-- What `deliver_delayed_pkt` does to a queue that holds `content`. -/
structure Delivered (sends : Nat → SendtoResult) (lastClock : Timeval)
    (content : Multiset (PktSlot τ)) (status : ExitStatus) (delivered : List (PktSlot τ))
    (rest : Multiset (PktSlot τ)) : Prop where
  takes : Takes slotKey content delivered rest
  expired : ∀ slot ∈ delivered, Expired lastClock slot
  sent : ∀ index < delivered.length, sends index = .sent
  /-- it stops before an expired packet only where that could not be sent -/
  finished : (∀ slot ∈ rest, ¬ Expired lastClock slot) ∨ sends delivered.length ≠ .sent
  broken : status = .failure → sends delivered.length = .failed

/-- Nothing is expired if nothing is, or if what is in front is not. -/
theorem waiting_of_front {content rest : Multiset (PktSlot τ)} {front : PktSlot τ}
    {lastClock : Timeval} (least : Least slotKey content front rest)
    (waits : ¬ Expired lastClock front) : ∀ slot ∈ content, ¬ Expired lastClock slot := by
  intro slot listed expired
  have order := least.least slot listed
  have past := (timevalCmp_compares lastClock slot.ts).mp expired
  exact waits ((timevalCmp_compares lastClock front.ts).mpr (lt_of_le_of_lt order past))

/-- One more packet in front of those the rest of the loop sends. -/
theorem Delivered.more {sends : Nat → SendtoResult} {lastClock : Timeval}
    {content next rest : Multiset (PktSlot τ)} {status : ExitStatus} {front : PktSlot τ}
    {delivered : List (PktSlot τ)} (least : Least slotKey content front next)
    (past : Expired lastClock front) (takesIt : sends 0 = .sent)
    (later : Delivered (fun index => sends (index + 1)) lastClock next status delivered rest) :
    Delivered sends lastClock content status (front :: delivered) rest where
  takes := .take least later.takes
  expired := by
    intro slot listed
    rcases List.mem_cons.mp listed with rfl | listed
    · exact past
    · exact later.expired slot listed
  sent := by
    intro index inside
    cases index with
    | zero => exact takesIt
    | succ index => exact later.sent index (Nat.lt_of_succ_lt_succ inside)
  finished := later.finished
  broken := later.broken

/-- The loop where the queue is empty. -/
theorem deliverDelayedPkt_empty (sends : Nat → SendtoResult) (lastClock : Timeval)
    {queue : MinQueue (PktSlot τ)} (peeks : minqPeek queue = .ok none) :
    deliverDelayedPkt sends lastClock queue = .ok (.success, queue, []) := by
  rw [deliverDelayedPkt]
  split
  · next fault failed => simp [peeks] at failed
  · rfl
  · next p found => simp [peeks] at found

/-- The loop where it is not. -/
theorem deliverDelayedPkt_front (sends : Nat → SendtoResult) (lastClock : Timeval)
    {queue : MinQueue (PktSlot τ)} {front : PktSlot τ} (peeks : minqPeek queue = .ok (some front)) :
    deliverDelayedPkt sends lastClock queue =
      if timevalCmp lastClock front.ts then
        match sends 0 with
        | .later => .ok (.success, queue, [])
        | .failed => .ok (.failure, queue, [])
        | .sent => do
          let rest ← minqPop pktSlotCmp queue
          let (status, last, delivered) ←
            deliverDelayedPkt (fun index => sends (index + 1)) lastClock rest
          return (status, last, front :: delivered)
      else .ok (.success, queue, []) := by
  rw [deliverDelayedPkt]
  split
  · next fault failed => simp [peeks] at failed
  · next none => simp [peeks] at none
  · next p found =>
    obtain rfl : front = p := by simpa [peeks] using found
    congr 1
    cases sends 0 with
    | later => rfl
    | failed => rfl
    | sent =>
      dsimp only
      split
      · next fault failed => simp only [failed, bind, Except.bind]
      · next rest popped => simp only [popped, bind, Except.bind]

/-- The loop of `deliver_delayed_pkt`: induction on the size of the queue. -/
theorem deliverDelayedPkt_exact (sends : Nat → SendtoResult) (lastClock : Timeval)
    {queue : MinQueue (PktSlot τ)} {content : Multiset (PktSlot τ)}
    (holds : QueueHolds slotKey queue content) :
    ∃ status last delivered rest,
      deliverDelayedPkt sends lastClock queue = .ok (status, last, delivered) ∧
        QueueHolds slotKey last rest ∧ Delivered sends lastClock content status delivered rest := by
  induction size : queue.size using Nat.strongRecOn generalizing sends queue content with
  | ind count inductionHypothesis =>
    rcases minq_take pktSlotCmp_compares holds with ⟨rfl, peeks, _⟩ |
      ⟨front, rest, next, least, peeks, pops, smaller, holdsNext⟩
    · exact ⟨.success, queue, [], 0, deliverDelayedPkt_empty sends lastClock peeks, holds,
        .done 0, by simp, by simp, .inl (by simp), by simp⟩
    · rw [deliverDelayedPkt_front sends lastClock peeks]
      by_cases past : timevalCmp lastClock front.ts = true
      · cases result : sends 0 with
        | later =>
          exact ⟨.success, queue, [], content, by simp [past], holds, .done content,
            by simp, by simp, .inr (by simp [result]), by simp⟩
        | failed =>
          exact ⟨.failure, queue, [], content, by simp [past], holds, .done content,
            by simp, by simp, .inr (by simp [result]), by simp [result]⟩
        | sent =>
          obtain ⟨status, last, delivered, left, delivers, holdsLast, later⟩ :=
            inductionHypothesis next.size (by omega) (fun index => sends (index + 1)) holdsNext rfl
          refine ⟨status, last, front :: delivered, left, ?_, holdsLast,
            later.more least past result⟩
          simp only [past, if_true, pops, delivers, bind, Except.bind, pure, Except.pure]
      · exact ⟨.success, queue, [], content, by simp [past], holds, .done content,
          by simp, by simp, .inl (waiting_of_front least past), by simp⟩

/-! ## The link -/

/-- What the link may make of a datagram it does not drop. -/
inductive Altered (settings : Settings) (datagram : List Byte) : List Byte → Prop
  | intact : Altered settings datagram datagram
  | cut (cuts : settings.cutRate ≠ 0) : Altered settings datagram (datagram.take 4)
  | corrupted (errs : settings.errRate ≠ 0) : Altered settings datagram (invertLast datagram)

/-- A rate of zero is never hit. -/
theorem hits_rate {rate : BitVec 32} {random : Random} (hit : (random.hits rate).1 = true) :
    rate ≠ 0 := by
  rintro rfl
  simp [Random.hits] at hit

/-- Drawing against a rate leaves the generator's sequence as it is. -/
@[simp] theorem hits_draws (rate : BitVec 32) (random : Random) :
    (random.hits rate).2.draws = random.draws := by
  rw [Random.hits]
  split <;> rfl

/-- So does the damage of a datagram. -/
@[simp] theorem damage_draws (settings : Settings) (buf : List Byte) (random : Random) :
    (damage settings buf random).2.draws = random.draws := by
  simp only [damage]
  split
  · exact hits_draws ..
  · rw [hits_draws, hits_draws]

/-- What `damage` makes of a datagram is the datagram, a cut or a damaged one, as the rates allow.
-/
theorem damage_altered (settings : Settings) (buf : List Byte) (random : Random) :
    Altered settings buf (damage settings buf random).1 := by
  simp only [damage]
  split
  · next cuts => exact .cut (hits_rate cuts)
  · split
    · next errs => exact .corrupted (hits_rate errs)
    · exact .intact

/-- A delay in milliseconds that the link may apply: the set one, more or less a part of
the jitter in 32-bit arithmetic, modulo ten seconds. -/
def Applied (settings : Settings) (applied : Nat) : Prop :=
  settings.jitter ≠ 0 ∧ ∃ value : BitVec 31,
    applied = ((settings.delay + value.setWidth 32 % settings.jitter) % 10000).toNat ∨
      applied = ((settings.delay - value.setWidth 32 % settings.jitter) % 10000).toNat

/-- A delay is below ten seconds. -/
theorem Applied.capped {settings : Settings} {applied : Nat} (applies : Applied settings applied) :
    applied < 10000 := by
  have ten : (10000 : BitVec 32).toNat = 10000 := rfl
  obtain ⟨_, value, rfl | rfl⟩ := applies
  · rw [BitVec.toNat_umod, ten]
    exact Nat.mod_lt _ (by decide)
  · rw [BitVec.toNat_umod, ten]
    exact Nat.mod_lt _ (by decide)

/-- With a jitter, the delay drawn is one that the link may apply. -/
theorem applyDelay_exact (settings : Settings) (random : Random) (jitters : settings.jitter ≠ 0) :
    ∃ applied next, applyDelay settings random = .ok (applied, next) ∧
      Applied settings applied ∧ next.draws = random.draws := by
  have runs : applyDelay settings random = .ok
      (((if random.percent.1 > 49 then
          settings.delay + random.percent.2.rand.1.setWidth 32 % settings.jitter
        else settings.delay - random.percent.2.rand.1.setWidth 32 % settings.jitter) %
          10000).toNat, random.percent.2.rand.2) := by
    simp only [applyDelay, jitters, if_false, pure, Except.pure, bind, Except.bind]
  refine ⟨_, _, runs, ⟨jitters, random.percent.2.rand.1, ?_⟩, rfl⟩
  by_cases high : random.percent.1 > 49
  · exact .inl (by rw [if_pos high])
  · exact .inr (by rw [if_neg high])

/-- Without one, the remainder is a division by zero. -/
theorem applyDelay_crash (settings : Settings) (random : Random) (still : settings.jitter = 0) :
    applyDelay settings random = .error .divisionByZero := by
  simp only [applyDelay, still, if_true, throw, throwThe, MonadExceptOf.throw, bind, Except.bind]

/-- The clock, the hosts and the generator are the same. -/
structure SameHosts (before after : Simulator τ) : Prop where
  lastClock : after.lastClock = before.lastClock
  hasSourceAddr : after.hasSourceAddr = before.hasSourceAddr
  srcAddr : after.srcAddr = before.srcAddr
  draws : after.random.draws = before.random.draws

/-- What `simulate_link` does to a datagram: it is lost, at random or because the program
ends, it joins the queue, or it is handed on. -/
inductive Linked (settings : Settings) (conditions : Conditions τ) (tag : τ) (buf : List Byte)
    (sim : Simulator τ) (content : Multiset (PktSlot τ)) :
    ExitStatus → Simulator τ → List (Outcome τ) → Multiset (PktSlot τ) → Prop
  | dropped {next : Simulator τ} (same : SameHosts sim next)
      (drops : (sim.random.hits settings.lossRate).1 = true) :
      Linked settings conditions tag buf sim content .success next [.lost tag] content
  | broken {next : Simulator τ} (same : SameHosts sim next)
      (reason : conditions.malloc = false ∨ conditions.reallocs = false ∨
        conditions.send ≠ .sent) :
      Linked settings conditions tag buf sim content .failure next [.lost tag] content
  | delayed {next : Simulator τ} {applied : Nat} {data : List Byte} (same : SameHosts sim next)
      (stays : (sim.random.hits settings.lossRate).1 = false) (delays : settings.delay ≠ 0)
      (applies : Applied settings applied)
      (damaged : data = (damage settings buf (sim.random.hits settings.lossRate).2).1) :
      Linked settings conditions tag buf sim content .success next []
        (⟨expirationDate sim.lastClock applied, tag, data⟩ ::ₘ content)
  | forwarded {next : Simulator τ} {data : List Byte} (same : SameHosts sim next)
      (stays : (sim.random.hits settings.lossRate).1 = false) (noDelay : settings.delay = 0)
      (damaged : data = (damage settings buf (sim.random.hits settings.lossRate).2).1) :
      Linked settings conditions tag buf sim content .success next [.forwarded tag data] content

/-- Nothing that happens to a datagram on the link changes the clock, the hosts or the generator's
sequence. -/
theorem Linked.sameHosts {settings : Settings} {conditions : Conditions τ} {tag : τ}
    {buf : List Byte} {sim next : Simulator τ} {content after : Multiset (PktSlot τ)}
    {status : ExitStatus} {outcomes : List (Outcome τ)}
    (linked : Linked settings conditions tag buf sim content status next outcomes after) :
    SameHosts sim next := by
  cases linked <;> assumption

/-- The division in `simulate_link` is by zero: a delay is set, no jitter, and the
datagram is not dropped. -/
def DividesByZero (settings : Settings) (sim : Simulator τ) : Prop :=
  settings.delay ≠ 0 ∧ settings.jitter = 0 ∧ (sim.random.hits settings.lossRate).1 = false

/-- A datagram that is neither dropped nor refused memory joins the queue, with the delay
drawn for it. -/
theorem simulateLink_delays {settings : Settings} {conditions : Conditions τ} (tag : τ)
    {buf data : List Byte} {sim : Simulator τ} {content : Multiset (PktSlot τ)}
    (holds : QueueHolds slotKey sim.pktQueue content)
    (stays : (sim.random.hits settings.lossRate).1 = false) (delays : settings.delay ≠ 0#32)
    (memory : conditions.malloc = true)
    (room : sim.pktQueue.size = sim.pktQueue.alloc → conditions.reallocs = true)
    {random last : Random} {applied : Nat}
    (damaged : damage settings buf (sim.random.hits settings.lossRate).2 = (data, random))
    (draws : applyDelay settings random = .ok (applied, last)) :
    ∃ queue, simulateLink settings conditions tag buf sim =
        .ok (.success, { sim with random := last, pktQueue := queue }, []) ∧
      QueueHolds slotKey queue (⟨expirationDate sim.lastClock applied, tag, data⟩ ::ₘ content) := by
  obtain ⟨queue, pushes, holdsNext⟩ := minqPush_added pktSlotCmp_compares holds
    ⟨expirationDate sim.lastClock applied, tag, data⟩ room
  refine ⟨queue, ?_, holdsNext⟩
  simp [simulateLink, stays, damaged, delays, draws, memory, pushes, onMemory, Except.mapError,
    bind, Except.bind, pure, Except.pure]

/-- `simulate_link` returns with one of the outcomes of `Linked`, or divides by zero; the cases
follow its branches. -/
theorem simulateLink_cases (settings : Settings) (conditions : Conditions τ) (tag : τ)
    (buf : List Byte) {sim : Simulator τ} {content : Multiset (PktSlot τ)}
    (holds : QueueHolds slotKey sim.pktQueue content) :
    (∃ status next outcomes after,
      simulateLink settings conditions tag buf sim = .ok (status, next, outcomes) ∧
        QueueHolds slotKey next.pktQueue after ∧ ¬ DividesByZero settings sim ∧
        Linked settings conditions tag buf sim content status next outcomes after) ∨
      (simulateLink settings conditions tag buf sim = .error .divisionByZero ∧
        DividesByZero settings sim) := by
  cases drops : (sim.random.hits settings.lossRate).1 with
  | true =>
    refine .inl ⟨.success, { sim with random := (sim.random.hits settings.lossRate).2 },
      [.lost tag], content, ?_, holds, ?_, .dropped ⟨rfl, rfl, rfl, hits_draws ..⟩ drops⟩
    · simp only [simulateLink, drops, if_true, pure, Except.pure]
    · rintro ⟨_, _, stays⟩
      simp [drops] at stays
  | false =>
    have drawn : (damage settings buf (sim.random.hits settings.lossRate).2).2.draws =
        sim.random.draws := by rw [damage_draws, hits_draws]
    generalize damaged : damage settings buf (sim.random.hits settings.lossRate).2 = left at drawn
    have data : left.1 = (damage settings buf (sim.random.hits settings.lossRate).2).1 := by
      rw [damaged]
    by_cases delays : settings.delay = 0#32
    · have noDivision : ¬ DividesByZero settings sim := fun divides => divides.1 delays
      by_cases sends : conditions.send = .sent
      · refine .inl ⟨.success, { sim with random := left.2 }, [.forwarded tag left.1], content, ?_,
          holds, noDivision, .forwarded ⟨rfl, rfl, rfl, drawn⟩ drops delays data⟩
        simp [simulateLink, drops, damaged, delays, sends, pure, Except.pure]
      · refine .inl ⟨.failure, { sim with random := left.2 }, [.lost tag], content, ?_, holds,
          noDivision, .broken ⟨rfl, rfl, rfl, drawn⟩ (.inr (.inr sends))⟩
        simp [simulateLink, drops, damaged, delays, sends, pure, Except.pure]
    · by_cases jitters : settings.jitter = 0
      · right
        refine ⟨?_, delays, jitters, drops⟩
        simp [simulateLink, drops, damaged, delays, applyDelay_crash settings left.2 jitters, bind,
          Except.bind]
      · have noDivision : ¬ DividesByZero settings sim := fun divides => jitters divides.2.1
        obtain ⟨applied, random, runs, applies, same⟩ := applyDelay_exact settings left.2 jitters
        have later : random.draws = sim.random.draws := same.trans drawn
        left
        cases memory : conditions.malloc with
        | false =>
          refine ⟨.failure, { sim with random := random }, [.lost tag], content, ?_, holds,
            noDivision, .broken ⟨rfl, rfl, rfl, later⟩ (.inl memory)⟩
          simp [simulateLink, drops, damaged, delays, runs, memory, bind, Except.bind, pure,
            Except.pure]
        | true =>
          by_cases room : sim.pktQueue.size = sim.pktQueue.alloc → conditions.reallocs = true
          · obtain ⟨queue, links, holdsNext⟩ :=
              simulateLink_delays tag holds drops delays memory room damaged runs
            exact ⟨.success, { sim with random := random, pktQueue := queue }, [], _, links,
              holdsNext, noDivision, .delayed ⟨rfl, rfl, rfl, later⟩ drops delays applies data⟩
          · have full : sim.pktQueue.size = sim.pktQueue.alloc :=
              by_contra fun notFull => room fun isFull => absurd isFull notFull
            have noRoom : conditions.reallocs = false := by
              rw [Bool.eq_false_iff]
              exact fun reallocs => room fun _ => reallocs
            refine ⟨.failure, { sim with random := random }, [.lost tag], content, ?_, holds,
              noDivision, .broken ⟨rfl, rfl, rfl, later⟩ (.inr (.inl noRoom))⟩
            simp [simulateLink, drops, damaged, delays, runs, memory, noRoom,
              minqPush_refused pktSlotCmp _ full, onMemory, Except.mapError, bind, Except.bind,
              pure, Except.pure]

/-! ## Incoming datagrams -/

/-- Tracking the source leaves the queue as it is, -/
@[simp] theorem trackSource_queue (sender : SockAddr) (sim : Simulator τ) :
    (trackSource sender sim).pktQueue = sim.pktQueue := by
  rw [trackSource]
  split <;> rfl

/-- the generator, -/
@[simp] theorem trackSource_random (sender : SockAddr) (sim : Simulator τ) :
    (trackSource sender sim).random = sim.random := by
  rw [trackSource]
  split <;> rfl

/-- and the clock. -/
@[simp] theorem trackSource_lastClock (sender : SockAddr) (sim : Simulator τ) :
    (trackSource sender sim).lastClock = sim.lastClock := by
  rw [trackSource]
  split <;> rfl

/-- Afterwards a source is known. -/
@[simp] theorem trackSource_hasSourceAddr (sender : SockAddr) (sim : Simulator τ) :
    (trackSource sender sim).hasSourceAddr = true := by
  rw [trackSource]
  split
  · assumption
  · rfl

/-- A datagram of four bytes or more was received from a host. -/
def GotDatagram (conditions : Conditions τ) (sender : SockAddr) (tag : τ) (buf : List Byte) :
    Prop :=
  ∃ datagram, conditions.received = some (sender, tag, datagram) ∧
    buf = datagram.take maxPktLen ∧ 4 ≤ buf.length

/-- It comes from the host whose traffic is simulated, and not from the other end. -/
def FromSource (settings : Settings) (sim : Simulator τ) (sender : SockAddr) : Prop :=
  sender ≠ settings.destAddr ∧ (trackSource sender sim).srcAddr = sender

/-- What `process_incoming_pkt` does to a simulator whose queue holds `content`. -/
inductive Processed (settings : Settings) (conditions : Conditions τ) (sim : Simulator τ)
    (content : Multiset (PktSlot τ)) :
    ExitStatus → Simulator τ → List (Outcome τ) → Multiset (PktSlot τ) → Prop
  | nothing (status : ExitStatus)
      (unusable : ∀ sender tag buf, ¬ GotDatagram conditions sender tag buf) :
      Processed settings conditions sim content status sim [] content
  | alien {sender : SockAddr} {tag : τ} {buf : List Byte}
      (received : GotDatagram conditions sender tag buf) (known : sim.hasSourceAddr = true)
      (notDest : sender ≠ settings.destAddr) (notSource : sender ≠ sim.srcAddr) :
      Processed settings conditions sim content .success sim [] content
  | relayed {tag : τ} {buf : List Byte}
      (received : GotDatagram conditions settings.destAddr tag buf)
      (sends : conditions.send = .sent) :
      Processed settings conditions sim content .success (trackSource settings.destAddr sim)
        [.relayed tag buf] content
  | unrelayed {tag : τ} {buf : List Byte}
      (received : GotDatagram conditions settings.destAddr tag buf)
      (fails : conditions.send ≠ .sent) :
      Processed settings conditions sim content .failure (trackSource settings.destAddr sim) []
        content
  | linked {sender : SockAddr} {tag : τ} {buf : List Byte} {status : ExitStatus}
      {next : Simulator τ} {outcomes : List (Outcome τ)} {after : Multiset (PktSlot τ)}
      (received : GotDatagram conditions sender tag buf) (source : FromSource settings sim sender)
      (link : Linked settings conditions tag buf (trackSource sender sim) content status next
        outcomes after) :
      Processed settings conditions sim content status next outcomes after

/-- What was received is one thing only. -/
theorem GotDatagram.unique {conditions : Conditions τ} {sender other : SockAddr} {tag mark : τ}
    {buf bytes : List Byte} (received : GotDatagram conditions sender tag buf)
    (again : GotDatagram conditions other mark bytes) :
    sender = other ∧ tag = mark ∧ buf = bytes := by
  obtain ⟨datagram, found, rfl, _⟩ := received
  obtain ⟨copy, foundAgain, rfl, _⟩ := again
  obtain ⟨rfl, rfl, rfl⟩ : sender = other ∧ tag = mark ∧ datagram = copy := by
    simpa using found.symm.trans foundAgain
  exact ⟨rfl, rfl, rfl⟩

/-- With a datagram of less than four bytes, or none, nothing is handled. -/
theorem processIncomingPkt_nothing (settings : Settings) (conditions : Conditions τ)
    (sim : Simulator τ) (unusable : ∀ sender tag buf, ¬ GotDatagram conditions sender tag buf) :
    ∃ status, processIncomingPkt settings conditions sim = .ok (status, sim, []) := by
  rw [processIncomingPkt]
  cases found : conditions.received with
  | none => exact ⟨_, rfl⟩
  | some entry =>
    obtain ⟨sender, tag, datagram⟩ := entry
    have short : ¬ 4 ≤ (datagram.take maxPktLen).length :=
      fun long => unusable sender tag _ ⟨datagram, found, rfl, long⟩
    by_cases empty : (datagram.take maxPktLen).length = 0
    · exact ⟨_, by simp only [empty, if_true]; rfl⟩
    · exact ⟨.failure, by simp only [empty, if_false, not_le.mp short, if_true]; rfl⟩

/-- Nothing was received, or a datagram that is empty. -/
theorem processIncomingPkt_ignored {settings : Settings} {conditions : Conditions τ}
    {sim : Simulator τ} (retry : conditions.retry = true)
    (empty : ∀ sender tag datagram, conditions.received = some (sender, tag, datagram) →
      datagram = []) :
    processIncomingPkt settings conditions sim = .ok (.success, sim, []) := by
  rw [processIncomingPkt]
  cases found : conditions.received with
  | none => simp [retry, pure, Except.pure]
  | some entry =>
    obtain ⟨sender, tag, datagram⟩ := entry
    obtain rfl := empty sender tag datagram found
    simp [retry, pure, Except.pure]

/-- With one of four bytes or more, what happens depends on its sender. -/
theorem processIncomingPkt_received {settings : Settings} {conditions : Conditions τ}
    {sim : Simulator τ} {sender : SockAddr} {tag : τ} {buf : List Byte}
    (received : GotDatagram conditions sender tag buf) :
    processIncomingPkt settings conditions sim =
      if sender = settings.destAddr then
        if conditions.send = .sent then
          .ok (.success, trackSource sender sim, [.relayed tag buf])
        else .ok (.failure, trackSource sender sim, [])
      else if sender = (trackSource sender sim).srcAddr then
        simulateLink settings conditions tag buf (trackSource sender sim)
      else .ok (.success, trackSource sender sim, []) := by
  obtain ⟨datagram, found, rfl, long⟩ := received
  have notEmpty : (datagram.take maxPktLen).length ≠ 0 := by omega
  have notShort : ¬ (datagram.take maxPktLen).length < 4 := by omega
  simp only [processIncomingPkt, found, notEmpty, notShort, if_false]
  by_cases atDest : sender = settings.destAddr
  · have same : sockaddrCmp sender settings.destAddr = false := by
      rw [Bool.eq_false_iff, ne_eq, sockaddrCmp_iff]
      exact not_not_intro atDest
    rw [if_pos same, if_pos atDest]
    by_cases sends : conditions.send = .sent
    · simp [sends, pure, Except.pure]
    · simp [sends, pure, Except.pure]
  · have apart : sockaddrCmp sender settings.destAddr = true := (sockaddrCmp_iff _ _).mpr atDest
    rw [if_neg (by simp [apart]), if_neg atDest]
    by_cases source : sender = (trackSource sender sim).srcAddr
    · have same : sockaddrCmp sender (trackSource sender sim).srcAddr = false := by
        rw [Bool.eq_false_iff, ne_eq, sockaddrCmp_iff]
        exact not_not_intro source
      rw [if_neg (by simp [same]), if_pos source]
    · rw [if_pos ((sockaddrCmp_iff _ _).mpr source), if_neg source]
      rfl

/-- A datagram of the source goes through the link. -/
theorem processIncomingPkt_linked {settings : Settings} {conditions : Conditions τ}
    {sim : Simulator τ} {content : Multiset (PktSlot τ)} {sender : SockAddr} {tag : τ}
    {buf : List Byte} (holds : QueueHolds slotKey sim.pktQueue content)
    (received : GotDatagram conditions sender tag buf)
    (source : FromSource settings sim sender) :
    (∃ status next outcomes after,
      processIncomingPkt settings conditions sim = .ok (status, next, outcomes) ∧
        QueueHolds slotKey next.pktQueue after ∧ ¬ DividesByZero settings sim ∧
        Linked settings conditions tag buf (trackSource sender sim) content status next outcomes
          after) ∨
      (processIncomingPkt settings conditions sim = .error .divisionByZero ∧
        DividesByZero settings sim) := by
  have tracked : QueueHolds slotKey (trackSource sender sim).pktQueue content := by
    rw [trackSource_queue]
    exact holds
  rw [processIncomingPkt_received received, if_neg source.1, if_pos source.2.symm]
  simpa [DividesByZero] using simulateLink_cases settings conditions tag buf tracked

/-- `process_incoming_pkt` returns with one of the outcomes of `Processed`, or `simulate_link`
divides by zero on a datagram of the source. -/
theorem processIncomingPkt_cases (settings : Settings) (conditions : Conditions τ)
    {sim : Simulator τ} {content : Multiset (PktSlot τ)}
    (holds : QueueHolds slotKey sim.pktQueue content) :
    (∃ status next outcomes after,
      processIncomingPkt settings conditions sim = .ok (status, next, outcomes) ∧
        QueueHolds slotKey next.pktQueue after ∧
        Processed settings conditions sim content status next outcomes after) ∨
      (processIncomingPkt settings conditions sim = .error .divisionByZero ∧
        DividesByZero settings sim ∧ ∃ sender tag buf, GotDatagram conditions sender tag buf ∧
          FromSource settings sim sender) := by
  by_cases usable : ∃ sender tag buf, GotDatagram conditions sender tag buf
  · obtain ⟨sender, tag, buf, received⟩ := usable
    by_cases atDest : sender = settings.destAddr
    · subst atDest
      left
      rw [processIncomingPkt_received received, if_pos rfl]
      by_cases sends : conditions.send = .sent
      · exact ⟨_, _, _, content, if_pos sends, by simpa using holds, .relayed received sends⟩
      · exact ⟨_, _, _, content, if_neg sends, by simpa using holds, .unrelayed received sends⟩
    · by_cases source : sender = (trackSource sender sim).srcAddr
      · have fromSource : FromSource settings sim sender := ⟨atDest, source.symm⟩
        rcases processIncomingPkt_linked holds received fromSource with
          ⟨status, next, outcomes, after, runs, holdsNext, _, linked⟩ | ⟨crashes, divides⟩
        · exact .inl ⟨status, next, outcomes, after, runs, holdsNext,
            .linked received fromSource linked⟩
        · exact .inr ⟨crashes, divides, sender, tag, buf, received, fromSource⟩
      · rw [processIncomingPkt_received received, if_neg atDest, if_neg source]
        left
        cases known : sim.hasSourceAddr with
        | true =>
          have same : trackSource sender sim = sim := by rw [trackSource, if_pos known]
          rw [same] at source ⊢
          exact ⟨_, _, _, content, rfl, holds, .alien received known atDest source⟩
        | false =>
          refine absurd ?_ source
          simp [trackSource, known]
  · left
    have unusable (sender : SockAddr) (tag : τ) (buf : List Byte) :
        ¬ GotDatagram conditions sender tag buf :=
      fun received => usable ⟨sender, tag, buf, received⟩
    obtain ⟨status, runs⟩ := processIncomingPkt_nothing settings conditions sim unusable
    exact ⟨status, sim, [], content, runs, holds, .nothing status unusable⟩

/-! ## The first part of a pass -/

/-- The first part of a pass: without a clock the loop ends, otherwise the packets past the new
clock are delivered, in the order of their dates and as far as `sendto` succeeds. -/
theorem wakePart_exact (conditions : Conditions τ) {sim : Simulator τ}
    {content : Multiset (PktSlot τ)} (holds : QueueHolds slotKey sim.pktQueue content) :
    (conditions.clock = none ∧ wakePart conditions sim = .ok (.failure, sim, [])) ∨
      ∃ reading status queue delivered rest, conditions.clock = some reading ∧
        wakePart conditions sim =
          .ok (status, { sim with lastClock := updateTime reading, pktQueue := queue },
            delivered.map fun p => .forwarded p.tag p.buf) ∧
        QueueHolds slotKey queue rest ∧
        Delivered conditions.delayedSends (updateTime reading) content status delivered rest := by
  cases read : conditions.clock with
  | none => exact .inl ⟨rfl, by simp only [wakePart, read]; rfl⟩
  | some reading =>
    obtain ⟨status, queue, delivered, rest, delivers, holdsNext, done⟩ :=
      deliverDelayedPkt_exact conditions.delayedSends (updateTime reading) holds
    refine .inr ⟨reading, status, queue, delivered, rest, rfl, ?_, holdsNext, done⟩
    simp only [wakePart, read, delivers, onMemory, Except.mapError, bind, Except.bind, pure,
      Except.pure]

end SelectiveRepeat
