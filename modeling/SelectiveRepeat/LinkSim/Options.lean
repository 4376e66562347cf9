import SelectiveRepeat.LinkSim.Conservation

/-!
# Options, and when anything gets through

`main` reduces each number by the remainder of C, which keeps its sign, and stores it as
unsigned. A rate then is at most 100, or close to 2^32 where the number was negative. A
draw is at most 100 as well, so that a loss rate of 100 still lets one datagram in 101
through, and a negative one none.
-/

namespace SelectiveRepeat

open PriorityBag Transition

/-- `INT_MAX` -/
def intMax : Int := 2147483647

/-- The results of `atoi` for `-d`, `-j`, `-e`, `-c` and `-l`; an option that is not given
leaves 0. -/
structure Options where
  delay : Int
  jitter : Int
  errRate : Int
  cutRate : Int
  lossRate : Int

/-- `_READINT_CAP` into an `unsigned int` -/
def readintCap (value lim : Int) : BitVec 32 := BitVec.ofInt 32 (value.tmod lim)

/-- What `main` sets. -/
def Options.settings (options : Options) (destAddr : SockAddr) : Settings where
  delay := readintCap options.delay intMax
  jitter := readintCap options.jitter intMax
  errRate := readintCap options.errRate 101
  cutRate := readintCap options.cutRate 101
  lossRate := readintCap options.lossRate 101
  destAddr := destAddr

/-- A truncated remainder is smaller in size than the divisor. -/
theorem tmod_between (value lim : Int) (positive : 0 < lim) :
    -lim < value.tmod lim ∧ value.tmod lim < lim := by
  have size := Int.natAbs_tmod value lim
  have small : value.natAbs % lim.natAbs < lim.natAbs := Nat.mod_lt _ (by omega)
  omega

/-- A capped rate stays below its cap, unless the number was negative. -/
theorem readintCap_le_iff (value : Int) :
    (readintCap value 101).toNat ≤ 100 ↔ 0 ≤ value.tmod 101 := by
  have between := tmod_between value 101 (by decide)
  rw [readintCap, BitVec.toNat_ofInt]
  omega

/-- An option reads as zero exactly if its value is a multiple of the cap. -/
theorem readintCap_zero_iff (value : Int) :
    readintCap value intMax = 0 ↔ value.tmod intMax = 0 := by
  have between := tmod_between value intMax (by decide)
  rw [intMax] at between
  rw [readintCap, ← BitVec.toNat_inj, BitVec.toNat_ofInt, intMax]
  have zero : (0 : BitVec 32).toNat = 0 := rfl
  rw [zero]
  omega

/-! ## Draws -/

/-- A draw for a rate is at most 100. -/
theorem percent_le (random : Random) : random.percent.1 ≤ 100 := by
  simp only [Random.percent]
  omega

/-- A rate over 100 is always hit. -/
theorem hits_always {rate : BitVec 32} (high : 100 < rate.toNat) (random : Random) :
    (random.hits rate).1 = true := by
  have drawn := percent_le random
  have set : rate ≠ 0 := by
    rintro rfl
    simp at high
  simp only [Random.hits, if_neg set, decide_eq_true_eq]
  omega

/-- Every draw is 100. -/
def Lucky (random : Random) : Prop := ∀ index, random.draws index = 100

/-- A rate up to 100 is not hit then. -/
theorem lucky_misses {random : Random} (lucky : Lucky random) {rate : BitVec 32}
    (low : rate.toNat ≤ 100) : (random.hits rate).1 = false := by
  have drawn : random.percent.1 = 100 := by
    simp only [Random.percent, Random.rand, lucky random.used]
    rfl
  rw [Random.hits]
  split
  · rfl
  · simp only [drawn, decide_eq_false_iff_not]
    omega

/-- A generator that draws 100 each time: no rate up to 100 is ever hit. -/
def hundreds : Random := ⟨fun _ => 100, 0⟩

/-- It spares everything. -/
theorem hundreds_lucky : Lucky hundreds := fun _ => rfl

/-! ## Nothing gets through -/

section Blocked

variable {τ : Type} {settings : Settings} {sim : Simulator τ} {conditions : Conditions τ}
  {result : ExitStatus × Simulator τ × List (Outcome τ)}

/-- Everything is dropped, or a delay comes without a jitter. -/
def Blocked (settings : Settings) : Prop :=
  100 < settings.lossRate.toNat ∨ (settings.delay ≠ 0 ∧ settings.jitter = 0)

/-- Nothing leaves an empty queue. -/
theorem empty_wakes (holds : QueueHolds slotKey sim.pktQueue 0)
    (wakes : wakePart conditions sim = .ok result) :
    QueueHolds slotKey result.2.1.pktQueue 0 ∧ result.2.2 = [] := by
  rcases wakePart_exact conditions holds with ⟨_, runs⟩ |
    ⟨reading, _, _, delivered, rest, _, runs, holdsNext, done⟩
  · obtain rfl := Except.ok.inj (runs.symm.trans wakes)
    exact ⟨holds, rfl⟩
  · obtain rfl := Except.ok.inj (runs.symm.trans wakes)
    have sizes := congrArg Multiset.card done.takes.split
    rw [Multiset.card_zero, Multiset.card_add, Multiset.coe_card] at sizes
    obtain rfl := List.length_eq_zero_iff.mp (by omega : delivered.length = 0)
    obtain rfl := Multiset.card_eq_zero.mp (by omega : rest.card = 0)
    exact ⟨holdsNext, rfl⟩

/-- Nothing joins the queue, and nothing is handed on. -/
theorem blocked_serves (blocked : Blocked settings) (holds : QueueHolds slotKey sim.pktQueue 0)
    (serves : servePart settings conditions sim = .ok result) :
    QueueHolds slotKey result.2.1.pktQueue 0 ∧
      ∀ tag data, Outcome.forwarded tag data ∉ result.2.2 := by
  rw [servePart] at serves
  split at serves
  · rcases processIncomingPkt_cases settings conditions holds with
      ⟨status, next, outcomes, after, runs, holdsNext, processed⟩ | ⟨crashes, _⟩
    · obtain rfl := Except.ok.inj (runs.symm.trans serves)
      cases processed with
      | nothing => exact ⟨holds, by simp⟩
      | alien => exact ⟨holds, by simp⟩
      | relayed => exact ⟨holdsNext, by simp⟩
      | unrelayed => exact ⟨holdsNext, by simp⟩
      | linked _ _ link =>
        cases link with
        | dropped => exact ⟨holdsNext, by simp⟩
        | broken => exact ⟨holdsNext, by simp⟩
        | delayed _ stays _ applies =>
          rcases blocked with high | ⟨_, still⟩
          · simp [hits_always high] at stays
          · exact absurd still applies.1
        | forwarded _ stays noDelay =>
          rcases blocked with high | ⟨delays, _⟩
          · simp [hits_always high] at stays
          · exact absurd noDelay delays
    · simp [crashes] at serves
  · obtain rfl := Except.ok.inj serves
    exact ⟨holds, by simp⟩

end Blocked

variable {settings : Settings}

/-- Nothing waits, and nothing was handed on. -/
def Untouched (traffic : Traffic) : Prop :=
  QueueHolds slotKey traffic.sim.pktQueue 0 ∧ traffic.forwarded = []

/-- Under blocked options nothing ever waits or is handed on. An invariant of runs: what arrives
is dropped, or ends the program by the division. -/
theorem blocked_untouched (blocked : Blocked settings) {traffic : Traffic}
    (reached : (trafficSystem settings).Reachable traffic) : Untouched traffic := by
  refine @System.reachable_invariant _ _ _ Untouched traffic ?_ ?_ reached
  · rintro first ⟨reading, random, rfl⟩
    exact ⟨minqNew_holds slotKey, rfl⟩
  · rintro before label after ⟨holds, nothing⟩ step
    cases step with
    | wake conditions result running asleep wakes =>
      obtain ⟨holdsNext, silent⟩ := empty_wakes holds wakes
      exact ⟨holdsNext, by simp [Traffic.after, nothing, silent]⟩
    | serve conditions result running woken serves =>
      obtain ⟨holdsNext, silent⟩ := blocked_serves blocked holds serves
      refine ⟨holdsNext, ?_⟩
      simp only [Traffic.after, nothing, List.nil_append, List.filterMap_eq_nil_iff]
      intro outcome listed
      cases outcome with
      | forwarded tag data => exact absurd listed (silent tag data)
      | lost tag => rfl
      | relayed tag data => rfl

/-! ## Something gets through -/

/-- A pass in which every call succeeds. -/
def calm {τ : Type} (seconds : Int) (received : Option (SockAddr × τ × List Byte)) :
    Conditions τ where
  clock := some ⟨seconds, 0⟩
  delayedSends := fun _ => .sent
  send := .sent
  malloc := true
  reallocs := true
  readable := true
  received := received
  retry := true

section Calm

variable {τ : Type} {sim : Simulator τ}

/-- With an empty queue a calm pass only reads the clock. -/
theorem calm_wakes_empty (holds : QueueHolds slotKey sim.pktQueue 0) (seconds : Int)
    (received : Option (SockAddr × τ × List Byte)) :
    wakePart (calm seconds received) sim =
      .ok (.success, { sim with lastClock := updateTime ⟨seconds, 0⟩ }, []) := by
  rcases minq_take pktSlotCmp_compares holds with ⟨_, peeks, _⟩ | ⟨_, _, _, least, _⟩
  · simp only [wakePart, calm]
    rw [deliverDelayedPkt_empty _ _ peeks]
    rfl
  · exact absurd least.split (by simp)

/-- A packet is past its date a thousand seconds later. -/
theorem past_later (clock : Timeval) {applied : Nat} (capped : applied < 10000) :
    timevalCmp (updateTime ⟨clock.tvSec + 1000, 0⟩) (expirationDate clock applied) = true := by
  rw [timevalCmp_iff]
  left
  simp only [expirationDate, updateTime]
  omega

/-- What is past its date is sent, and the rest stays. -/
theorem calm_wakes {content : Multiset (PktSlot τ)} (holds : QueueHolds slotKey sim.pktQueue content)
    (seconds : Int) (received : Option (SockAddr × τ × List Byte)) :
    ∃ queue, ∃ delivered : List (PktSlot τ), wakePart (calm seconds received) sim =
        .ok (.success, { sim with
          lastClock := updateTime ⟨seconds, 0⟩
          pktQueue := queue }, delivered.map fun p => .forwarded p.tag p.buf) ∧
      ↑delivered = content.filter (Expired (updateTime ⟨seconds, 0⟩)) ∧
      QueueHolds slotKey queue (content.filter fun p => ¬ Expired (updateTime ⟨seconds, 0⟩) p) := by
  rcases wakePart_exact (calm seconds received) holds with ⟨unread, _⟩ |
    ⟨reading, status, queue, delivered, rest, read, wakes, holdsNext, done⟩
  · cases unread
  · obtain rfl := Option.some.inj read
    have left := done.finished.resolve_right fun fails => fails rfl
    obtain ⟨gone, stays⟩ := done.takes.parted (Expired (updateTime ⟨seconds, 0⟩)) done.expired left
    cases status with
    | success => exact ⟨queue, delivered, wakes, gone, stays ▸ holdsNext⟩
    | failure => cases done.broken rfl

/-- The one packet that waits is sent then. -/
theorem calm_wakes_lone {clock : Timeval} {applied : Nat} {tag : τ} {data : List Byte}
    (capped : applied < 10000)
    (holds : QueueHolds slotKey sim.pktQueue {⟨expirationDate clock applied, tag, data⟩})
    (received : Option (SockAddr × τ × List Byte)) :
    ∃ queue, QueueHolds slotKey queue 0 ∧ wakePart (calm (clock.tvSec + 1000) received) sim =
      .ok (.success, { sim with
        lastClock := updateTime ⟨clock.tvSec + 1000, 0⟩
        pktQueue := queue }, [.forwarded tag data]) := by
  obtain ⟨queue, delivered, wakes, gone, stays⟩ := calm_wakes holds (clock.tvSec + 1000) received
  have past : Expired (updateTime ⟨clock.tvSec + 1000, 0⟩)
      (⟨expirationDate clock applied, tag, data⟩ : PktSlot τ) := past_later clock capped
  rw [Multiset.filter_singleton, if_pos past] at gone
  rw [Multiset.filter_singleton, if_neg (not_not_intro past)] at stays
  obtain rfl := Multiset.coe_eq_singleton.mp gone
  exact ⟨queue, stays, wakes⟩

/-- A datagram that is not dropped and whose delay can be computed is handed on or waits. -/
theorem calm_serves {settings : Settings} {content : Multiset (PktSlot τ)} {sender : SockAddr}
    {tag : τ} {datagram : List Byte} (lucky : Lucky sim.random)
    (low : settings.lossRate.toNat ≤ 100) (divisible : settings.delay = 0 ∨ settings.jitter ≠ 0)
    (holds : QueueHolds slotKey sim.pktQueue content) (source : FromSource settings sim sender)
    (size : 4 ≤ datagram.length ∧ datagram.length ≤ maxPktLen) (seconds : Int) :
    ∃ next data, SameHosts (trackSource sender sim) next ∧
      data = (damage settings datagram (sim.random.hits settings.lossRate).2).1 ∧
      ((settings.delay = 0 ∧ QueueHolds slotKey next.pktQueue content ∧
        servePart settings (calm seconds (some (sender, tag, datagram))) sim =
          .ok (.success, next, [.forwarded tag data])) ∨
        ∃ applied < 10000, QueueHolds slotKey next.pktQueue
            (⟨expirationDate sim.lastClock applied, tag, data⟩ ::ₘ content) ∧
          servePart settings (calm seconds (some (sender, tag, datagram))) sim =
            .ok (.success, next, [])) := by
  have whole : datagram.take maxPktLen = datagram := List.take_of_length_le size.2
  have got : GotDatagram (calm seconds (some (sender, tag, datagram))) sender tag datagram :=
    ⟨datagram, rfl, whole.symm, size.1⟩
  have misses := lucky_misses lucky low
  rcases processIncomingPkt_linked holds got source with
    ⟨status, next, outcomes, after, runs, holdsNext, _, linked⟩ | ⟨_, divides⟩
  · have hosts := linked.sameHosts
    cases linked with
    | dropped _ drops =>
      rw [trackSource_random, misses] at drops
      cases drops
    | broken _ reason => simp [calm] at reason
    | @forwarded _ data _ _ noDelay damaged =>
      rw [trackSource_random] at damaged
      exact ⟨next, data, hosts, damaged, .inl ⟨noDelay, holdsNext, runs⟩⟩
    | @delayed _ applied data _ _ _ applies damaged =>
      rw [trackSource_random] at damaged
      rw [trackSource_lastClock] at holdsNext
      exact ⟨next, data, hosts, damaged, .inr ⟨applied, applies.capped, holdsNext, runs⟩⟩
  · rcases divisible with noDelay | jitters
    · exact absurd noDelay divides.1
    · exact absurd divides.2.1 jitters

end Calm

/-- Another port of a host. -/
def SockAddr.beside (host : SockAddr) : SockAddr := { host with sin6Port := host.sin6Port + 1 }

/-- There is another host beside each. -/
theorem SockAddr.beside_ne (host : SockAddr) : host.beside ≠ host := by
  intro same
  have ports := congrArg SockAddr.sin6Port same
  simp [SockAddr.beside] at ports

/-- The first datagram of a host, four zeros. -/
def firstDatagram (host : SockAddr) : Option (SockAddr × Unit × List Byte) :=
  some (host, (), [0, 0, 0, 0])

/-- After the first part of the first pass. -/
def awoken : Traffic :=
  (trafficStart ⟨0, 0⟩ hundreds).after true ([], []) (.success, proxyStart ⟨0, 0⟩ hundreds, [])

/-- The first pass begins calmly. -/
theorem awoken_step (settings : Settings) :
    TrafficStep settings (trafficStart ⟨0, 0⟩ hundreds) (.wake (calm 0 none)) awoken :=
  .wake _ (calm 0 none) _ rfl rfl (calm_wakes_empty (minqNew_holds slotKey) 0 none)

/-- Some run begins so. -/
theorem awoken_reachable (settings : Settings) : (trafficSystem settings).Reachable awoken :=
  System.reachable_step (System.reachable_initial ⟨_, _, rfl⟩) (awoken_step settings)

/-- The first datagram is served: without a delay it is handed on, with one it waits. -/
theorem first_served (low : settings.lossRate.toNat ≤ 100)
    (divisible : settings.delay = 0 ∨ settings.jitter ≠ 0) :
    ∃ traffic, (trafficSystem settings).Reachable traffic ∧ traffic.status = .success ∧
      traffic.awake = false ∧ ((settings.delay = 0 ∧ traffic.forwarded ≠ []) ∨
        (traffic.forwarded = [] ∧ ∃ applied tag data, applied < 10000 ∧
          QueueHolds slotKey traffic.sim.pktQueue
            {⟨expirationDate (updateTime ⟨0, 0⟩) applied, tag, data⟩})) := by
  have source : FromSource settings awoken.sim settings.destAddr.beside :=
    ⟨SockAddr.beside_ne _, rfl⟩
  obtain ⟨next, data, _, _, ⟨noDelay, holds, serves⟩ | ⟨applied, capped, holds, serves⟩⟩ :=
    @calm_serves _ awoken.sim settings 0 settings.destAddr.beside
      ⟨0, settings.destAddr.beside, updateTime ⟨0, 0⟩, [0, 0, 0, 0]⟩ [0, 0, 0, 0] hundreds_lucky
      low divisible (minqNew_holds slotKey) source (by decide) 0
  · have step := TrafficStep.serve awoken (calm 0 (firstDatagram settings.destAddr.beside)) _ rfl
      rfl serves
    exact ⟨_, System.reachable_step (awoken_reachable settings) step, rfl, rfl,
      .inl ⟨noDelay, by simp [Traffic.after]⟩⟩
  · have step := TrafficStep.serve awoken (calm 0 (firstDatagram settings.destAddr.beside)) _ rfl
      rfl serves
    exact ⟨_, System.reachable_step (awoken_reachable settings) step, rfl, rfl,
      .inr ⟨rfl, applied, _, data, capped, holds⟩⟩

/-- What waits is sent in the next pass. -/
theorem then_sent {traffic : Traffic} {applied : Nat} {tag : Admitted} {data : List Byte}
    (running : traffic.status = .success) (asleep : traffic.awake = false)
    (capped : applied < 10000) (holds : QueueHolds slotKey traffic.sim.pktQueue
      {⟨expirationDate (updateTime ⟨0, 0⟩) applied, tag, data⟩}) :
    ∃ next, TrafficStep settings traffic (.wake (calm 1000 none)) next ∧ next.forwarded ≠ [] := by
  obtain ⟨queue, _, wakes⟩ := calm_wakes_lone capped holds none
  exact ⟨_, .wake traffic (calm 1000 none) _ running asleep wakes, by simp [Traffic.after]⟩

/-- The first datagram gets through in some run: at once, or in a later pass. -/
theorem first_gets_through (low : settings.lossRate.toNat ≤ 100)
    (divisible : settings.delay = 0 ∨ settings.jitter ≠ 0) :
    ∃ traffic, (trafficSystem settings).Reachable traffic ∧ traffic.forwarded ≠ [] := by
  obtain ⟨traffic, reached, running, asleep,
    ⟨_, through⟩ | ⟨_, applied, tag, data, capped, holds⟩⟩ := first_served low divisible
  · exact ⟨traffic, reached, through⟩
  · obtain ⟨next, step, through⟩ := then_sent running asleep capped holds
    exact ⟨next, System.reachable_step reached step, through⟩

/-- A link that relays what it gets. -/
def plainLink : Settings := ⟨0, 0, 0, 0, 0, ⟨1, 12345⟩⟩

/-- A link that delays what it gets by two milliseconds or by one more or less. -/
def slowLink : Settings := ⟨2, 1, 0, 0, 0, ⟨1, 12345⟩⟩

/-- A packet waits, and is sent in the next pass. -/
theorem slowLink_through : ∃ traffic next, (trafficSystem slowLink).Reachable traffic ∧
    queued traffic.sim.pktQueue ≠ [] ∧ traffic.forwarded = [] ∧
    TrafficStep slowLink traffic (.wake (calm 1000 none)) next ∧ next.forwarded ≠ [] := by
  obtain ⟨traffic, reached, running, asleep,
    ⟨noDelay, _⟩ | ⟨nothing, applied, tag, data, capped, holds⟩⟩ :=
    @first_served slowLink (by decide) (.inr (by decide))
  · exact absurd noDelay (by decide)
  · have waits : queued traffic.sim.pktQueue ≠ [] := by
      intro empty
      have content := queued_content holds
      simp [empty] at content
    obtain ⟨next, step, through⟩ := then_sent running asleep capped holds
    exact ⟨traffic, next, reached, waits, nothing, step, through⟩

/-! ## Two datagrams -/

/-- A pass goes from one state to another, which has this simulator, and has admitted and
handed on these datagrams. -/
structure Passes (settings : Settings) (label : TrafficLabel) (traffic next : Traffic)
    (sim : Simulator Admitted) (admitted : List Admitted) (forwarded : List Forwarded) : Prop where
  step : TrafficStep settings traffic label next
  status : next.status = .success
  awake : next.awake = !traffic.awake
  sim : next.sim = sim
  admitted : next.admitted = traffic.admitted ++ admitted
  forwarded : next.forwarded = traffic.forwarded ++ forwarded

/-- The packets that are past their date are handed on. -/
theorem calm_hands_on {traffic : Traffic} (running : traffic.status = .success)
    (asleep : traffic.awake = false) {past ahead : Multiset (PktSlot Admitted)}
    (holds : QueueHolds slotKey traffic.sim.pktQueue (past + ahead)) (seconds : Int)
    (gone : ∀ p ∈ past, Expired (updateTime ⟨seconds, 0⟩) p)
    (waits : ∀ p ∈ ahead, ¬ Expired (updateTime ⟨seconds, 0⟩) p) :
    ∃ next queue, ∃ delivered : List (PktSlot Admitted), ↑delivered = past ∧
      QueueHolds slotKey queue ahead ∧
      Passes settings (.wake (calm seconds none)) traffic next
        { traffic.sim with lastClock := updateTime ⟨seconds, 0⟩, pktQueue := queue } []
        (delivered.map fun p => ⟨p.tag, updateTime ⟨seconds, 0⟩, p.buf⟩) := by
  obtain ⟨queue, delivered, wakes, sent, stays⟩ := calm_wakes holds seconds none
  rw [Multiset.filter_add, Multiset.filter_eq_self.mpr gone, Multiset.filter_eq_nil.mpr waits,
    add_zero] at sent
  rw [Multiset.filter_add, Multiset.filter_eq_nil.mpr fun p listed => not_not_intro (gone p listed),
    Multiset.filter_eq_self.mpr waits, zero_add] at stays
  have step := @TrafficStep.wake settings traffic (calm seconds none) _ running asleep wakes
  refine ⟨_, queue, delivered, sent, stays, step, rfl, ?_, rfl, rfl, ?_⟩
  · rw [asleep]
    rfl
  · simp only [Traffic.after, (outcomes_delivered (updateTime ⟨seconds, 0⟩) delivered).2.2]

/-- Where no packet is past its date, all of them go on waiting. -/
theorem calm_waits {traffic : Traffic} (running : traffic.status = .success)
    (asleep : traffic.awake = false) {content : Multiset (PktSlot Admitted)}
    (holds : QueueHolds slotKey traffic.sim.pktQueue content) (seconds : Int)
    (waits : ∀ p ∈ content, ¬ Expired (updateTime ⟨seconds, 0⟩) p) :
    ∃ next queue, QueueHolds slotKey queue content ∧
      Passes settings (.wake (calm seconds none)) traffic next
        { traffic.sim with lastClock := updateTime ⟨seconds, 0⟩, pktQueue := queue } [] [] := by
  rw [← zero_add content] at holds
  obtain ⟨next, queue, delivered, sent, stays, passes⟩ :=
    @calm_hands_on settings _ running asleep 0 content holds seconds (by simp) waits
  obtain rfl := (Multiset.coe_eq_zero _).mp sent
  exact ⟨next, queue, stays, passes⟩

/-- With nothing to read, nothing happens. -/
theorem calm_idles {traffic : Traffic} (running : traffic.status = .success)
    (woken : traffic.awake = true) :
    ∃ next, Passes settings (.serve (calm 0 none)) traffic next traffic.sim [] [] := by
  have step := @TrafficStep.serve settings traffic (calm 0 none) _ running woken rfl
  refine ⟨_, step, rfl, ?_, rfl, rfl, rfl⟩
  rw [woken]
  rfl

/-- The first datagram of a host, as it is admitted. -/
def firstTag (traffic : Traffic) (sender : SockAddr) : Admitted :=
  ⟨traffic.admitted.length, sender, traffic.sim.lastClock, [0, 0, 0, 0]⟩

/-- A datagram of the source is admitted, and goes where the link leads it. -/
theorem calm_links {traffic : Traffic} (running : traffic.status = .success)
    (woken : traffic.awake = true) {sender : SockAddr}
    (source : FromSource settings traffic.sim sender) {sim : Simulator Admitted}
    {outcomes : List (Outcome Admitted)}
    (links : simulateLink settings (traffic.tagged (calm 0 (firstDatagram sender)))
      (firstTag traffic sender) [0, 0, 0, 0] (trackSource sender traffic.sim) =
        .ok (.success, sim, outcomes)) :
    ∃ next, Passes settings (.serve (calm 0 (firstDatagram sender))) traffic next sim
      [firstTag traffic sender] (outcomes.filterMap (Outcome.sentOn sim.lastClock)) := by
  have got : GotDatagram (traffic.tagged (calm 0 (firstDatagram sender))) sender
      (firstTag traffic sender) [0, 0, 0, 0] := ⟨[0, 0, 0, 0], rfl, rfl, by decide⟩
  have serves := (processIncomingPkt_received got).trans
    ((if_neg source.1).trans ((if_pos source.2.symm).trans links))
  have step := TrafficStep.serve traffic (calm 0 (firstDatagram sender)) _ running woken serves
  refine ⟨_, step, rfl, ?_, rfl, ?_, rfl⟩
  · rw [woken]
    rfl
  · simp only [arrivals_source rfl got source, Traffic.after]

/-- It joins the queue of a link that only delays. -/
theorem calm_joins (noLoss : settings.lossRate = 0#32) (noCut : settings.cutRate = 0#32)
    (noError : settings.errRate = 0#32) (delays : settings.delay ≠ 0#32) {traffic : Traffic}
    {content : Multiset (PktSlot Admitted)} (running : traffic.status = .success)
    (woken : traffic.awake = true) (holds : QueueHolds slotKey traffic.sim.pktQueue content)
    {sender : SockAddr} (source : FromSource settings traffic.sim sender) {applied : Nat}
    {last : Random} (draws : applyDelay settings traffic.sim.random = .ok (applied, last)) :
    ∃ next queue, QueueHolds slotKey queue
        (⟨expirationDate traffic.sim.lastClock applied, firstTag traffic sender,
          [0, 0, 0, 0]⟩ ::ₘ content) ∧
      Passes settings (.serve (calm 0 (firstDatagram sender))) traffic next
        { trackSource sender traffic.sim with random := last, pktQueue := queue }
        [firstTag traffic sender] [] := by
  have misses (random : Random) : random.hits 0#32 = (false, random) := if_pos rfl
  obtain ⟨queue, links, joined⟩ := @simulateLink_delays _ settings
    (traffic.tagged (calm 0 (firstDatagram sender))) (firstTag traffic sender) [0, 0, 0, 0]
    [0, 0, 0, 0] (trackSource sender traffic.sim) content (by rwa [trackSource_queue])
    (by rw [noLoss, misses]) delays rfl (fun _ => rfl) traffic.sim.random last applied
    (by simp [damage, noLoss, noCut, noError, misses]) draws
  rw [trackSource_lastClock] at joined
  obtain ⟨next, passes⟩ := calm_links running woken source links
  exact ⟨next, queue, joined, passes⟩

/-- A link without delay and rates hands on what it gets. -/
theorem plainLink_links (conditions : Conditions Admitted) (sends : conditions.send = .sent)
    (tag : Admitted) (buf : List Byte) (sim : Simulator Admitted) :
    simulateLink plainLink conditions tag buf sim = .ok (.success, sim, [.forwarded tag buf]) := by
  simp [simulateLink, damage, Random.hits, plainLink, sends, pure, Except.pure]

/-- Two datagrams are handed on as they come. -/
theorem plainLink_two : ∃ traffic : Traffic, (trafficSystem plainLink).Reachable traffic ∧
    traffic.forwarded.map (fun entry => entry.origin.number) = [0, 1] := by
  have start : (trafficSystem plainLink).Reachable (trafficStart ⟨0, 0⟩ hundreds) :=
    System.reachable_initial ⟨_, _, rfl⟩
  obtain ⟨one, _, empty, wakes⟩ := @calm_waits plainLink (trafficStart ⟨0, 0⟩ hundreds) rfl rfl 0
    (minqNew_holds slotKey) 0 (by simp)
  obtain ⟨two, serves⟩ := @calm_links plainLink one wakes.status wakes.awake
    plainLink.destAddr.beside ⟨SockAddr.beside_ne _, by rw [wakes.sim]; rfl⟩ _ _
    (plainLink_links _ rfl _ _ _)
  obtain ⟨three, _, _, wakesAgain⟩ := @calm_waits plainLink two serves.status
    (by rw [serves.awake, wakes.awake]; rfl) 0
    (by rw [serves.sim, trackSource_queue, wakes.sim]; exact empty) 0 (by simp)
  obtain ⟨four, servesNext⟩ := @calm_links plainLink three wakesAgain.status
    (by rw [wakesAgain.awake, serves.awake, wakes.awake]; rfl) plainLink.destAddr.beside
    ⟨SockAddr.beside_ne _, by rw [wakesAgain.sim, serves.sim, wakes.sim]; rfl⟩ _ _
    (plainLink_links _ rfl _ _ _)
  refine ⟨four, System.reachable_step (System.reachable_step (System.reachable_step
    (System.reachable_step start wakes.step) serves.step) wakesAgain.step) servesNext.step, ?_⟩
  rw [servesNext.forwarded, wakesAgain.forwarded, serves.forwarded, wakes.forwarded,
    sentOn_forwarded, sentOn_forwarded, firstTag, firstTag, wakesAgain.admitted, serves.admitted,
    wakes.admitted]
  rfl

/-- A link whose delay is two seconds, more or less up to one. -/
def swingLink : Settings := ⟨2000, 1001, 0, 0, 0, ⟨1, 12345⟩⟩

/-- The draws for two packets: a second more for the first, a second less for the other. -/
def swing : Random := ⟨fun index => if index = 0 then 100 else if index = 2 then 0 else 1000, 0⟩

/-- The first packet is delayed by three seconds, the second by one. -/
theorem swing_draws : applyDelay swingLink swing = .ok (3000, { swing with used := 2 }) ∧
    applyDelay swingLink { swing with used := 2 } = .ok (1000, { swing with used := 4 }) := by
  constructor
  · rfl
  · simp [applyDelay, Random.percent, Random.rand, swingLink, swing, pure, Except.pure]

/-- A packet of that link that waits. -/
def swingSlot (tag : Admitted) (seconds : Int) : PktSlot Admitted :=
  ⟨⟨seconds, 0⟩, tag, [0, 0, 0, 0]⟩

/-- Such a packet is past its date as soon as the clock shows a later second. -/
theorem swingSlot_expired (tag : Admitted) (now seconds : Int) :
    Expired (updateTime ⟨now, 0⟩) (swingSlot tag seconds) ↔ seconds < now := by
  rw [Expired, timevalCmp_iff]
  simp [swingSlot, updateTime]

/-- Two datagrams arrive one after the other, and the first is delayed for longer. -/
theorem swingLink_waits : ∃ (traffic : Traffic) (first second : Admitted),
    (trafficSystem swingLink).Reachable traffic ∧ traffic.status = .success ∧
      traffic.awake = false ∧ traffic.forwarded = [] ∧ first.number = 0 ∧ second.number = 1 ∧
      QueueHolds slotKey traffic.sim.pktQueue {swingSlot second 1, swingSlot first 3} := by
  have start : (trafficSystem swingLink).Reachable (trafficStart ⟨0, 0⟩ swing) :=
    System.reachable_initial ⟨_, _, rfl⟩
  obtain ⟨one, _, empty, wakes⟩ := @calm_waits swingLink (trafficStart ⟨0, 0⟩ swing) rfl rfl 0
    (minqNew_holds slotKey) 0 (by simp)
  -- the first datagram
  obtain ⟨two, _, joined, serves⟩ := @calm_joins swingLink rfl rfl rfl (by decide)
    one 0 wakes.status wakes.awake (by rw [wakes.sim]; exact empty) swingLink.destAddr.beside
    ⟨SockAddr.beside_ne _, by rw [wakes.sim]; rfl⟩ 3000 { swing with used := 2 }
    (by rw [wakes.sim]; exact swing_draws.1)
  have date : expirationDate one.sim.lastClock 3000 = ⟨3, 0⟩ := by rw [wakes.sim]; rfl
  rw [date] at joined
  -- it is not sent at once
  obtain ⟨three, _, waits, wakesAgain⟩ := @calm_waits swingLink two serves.status
    (by rw [serves.awake, wakes.awake]; rfl)
    {swingSlot (firstTag one swingLink.destAddr.beside) 3}
    (by rw [serves.sim]; exact joined) 0 (by simp [swingSlot_expired])
  -- the second datagram
  obtain ⟨four, _, joinedNext, servesNext⟩ := @calm_joins swingLink rfl rfl
    rfl (by decide) three _ wakesAgain.status
    (by rw [wakesAgain.awake, serves.awake, wakes.awake]; rfl)
    (by rw [wakesAgain.sim]; exact waits) swingLink.destAddr.beside
    ⟨SockAddr.beside_ne _, by rw [wakesAgain.sim, serves.sim, wakes.sim]; rfl⟩ 1000
    { swing with used := 4 } (by rw [wakesAgain.sim, serves.sim]; exact swing_draws.2)
  have dateNext : expirationDate three.sim.lastClock 1000 = ⟨1, 0⟩ := by rw [wakesAgain.sim]; rfl
  rw [dateNext] at joinedNext
  refine ⟨four, firstTag one swingLink.destAddr.beside, firstTag three swingLink.destAddr.beside,
    ?_, servesNext.status, ?_, ?_, ?_, ?_, ?_⟩
  · exact System.reachable_step (System.reachable_step (System.reachable_step
      (System.reachable_step start wakes.step) serves.step) wakesAgain.step) servesNext.step
  · rw [servesNext.awake, wakesAgain.awake, serves.awake, wakes.awake]
    rfl
  · rw [servesNext.forwarded, wakesAgain.forwarded, serves.forwarded, wakes.forwarded]
    rfl
  · rw [firstTag, wakes.admitted]
    rfl
  · rw [firstTag, wakesAgain.admitted, serves.admitted, wakes.admitted]
    rfl
  · rw [servesNext.sim]
    exact joinedNext

/-- The second one is handed on first. -/
theorem swingLink_overtakes : ∃ traffic : Traffic, (trafficSystem swingLink).Reachable traffic ∧
    traffic.forwarded.map (fun entry => entry.origin.number) = [1, 0] := by
  obtain ⟨one, first, second, reached, running, asleep, nothing, numbered, numberedNext, holds⟩ :=
    swingLink_waits
  obtain ⟨two, _, delivered, sent, waits, wakes⟩ := @calm_hands_on swingLink one running asleep
    {swingSlot second 1} {swingSlot first 3} holds 2 (by simp [swingSlot_expired])
    (by simp [swingSlot_expired])
  obtain rfl := Multiset.coe_eq_singleton.mp sent
  obtain ⟨three, idles⟩ := @calm_idles swingLink two wakes.status (by rw [wakes.awake, asleep]; rfl)
  obtain ⟨four, _, delivered, sent, _, wakesAgain⟩ := @calm_hands_on swingLink three idles.status
    (by rw [idles.awake, wakes.awake, asleep]; rfl) {swingSlot first 3} 0
    (by rw [idles.sim, wakes.sim, add_zero]; exact waits) 4 (by simp [swingSlot_expired]) (by simp)
  obtain rfl := Multiset.coe_eq_singleton.mp sent
  refine ⟨four, System.reachable_step (System.reachable_step (System.reachable_step reached
    wakes.step) idles.step) wakesAgain.step, ?_⟩
  rw [wakesAgain.forwarded, idles.forwarded, wakes.forwarded, nothing]
  simp [swingSlot, numbered, numberedNext]

/-- Whatever the options and the proxied host, something can get through if and only if
the loss rate is not negative after its remainder, and a delay comes with a jitter.

With such options a first datagram is handed on or waits, and what waits is sent in a
later pass. With others an invariant says that nothing ever waits. -/
theorem gets_through_iff (options : Options) (destAddr : SockAddr) :
    (∃ traffic, (trafficSystem (options.settings destAddr)).Reachable traffic ∧
      traffic.forwarded ≠ []) ↔
      0 ≤ options.lossRate.tmod 101 ∧
        (options.delay.tmod intMax = 0 ∨ options.jitter.tmod intMax ≠ 0) := by
  have low := readintCap_le_iff options.lossRate
  have noDelay := readintCap_zero_iff options.delay
  have still := readintCap_zero_iff options.jitter
  constructor
  · rintro ⟨traffic, reached, through⟩
    by_contra closed
    refine through (blocked_untouched ?_ reached).2
    rw [Decidable.not_and_iff_not_or_not, not_or, not_not] at closed
    rcases closed with negative | ⟨delays, isStill⟩
    · exact .inl (not_le.mp fun small => negative (low.mp small))
    · exact .inr ⟨fun isZero => delays (noDelay.mp isZero), still.mpr isStill⟩
  · rintro ⟨nonNegative, divisible⟩
    refine first_gets_through (low.mpr nonNegative) (divisible.imp noDelay.mpr ?_)
    exact fun jitters isZero => jitters (still.mp isZero)

end SelectiveRepeat
