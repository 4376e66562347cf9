import SelectiveRepeat.LinkSim.Timing

/-!
# What stops the simulator, or its traffic

The simulator never reads or writes outside its memory, and crashes only where a packet
is to be delayed without a jitter. Its loop goes on as long as the system calls succeed,
no datagram has one to three bytes, and `errno` asks for another try wherever nothing was
read. A datagram of no bytes is such a case: `recvfrom` succeeds on it, and the code then
judges it by the `errno` of an earlier call.

The traffic also stops for good if the first datagram comes from the proxied host, which
then is taken for the source.
-/

namespace SelectiveRepeat

open PriorityBag Transition

variable {settings : Settings}

/-! ## Crashes -/

/-- A division by zero is all that can go wrong, and only for a datagram of the source
that is to be delayed without a jitter and is not dropped.

The queue is a heap in every reachable state, so that none of its operations leaves the
array. What remains is the remainder by the jitter in `simulate_link`. -/
theorem crash_iff_divides (settings : Settings) (traffic : Traffic)
    (reached : (trafficSystem settings).Reachable traffic) (conditions : Conditions Unit) :
    (∃ result, wakePart (traffic.tagged conditions) traffic.sim = .ok result) ∧
      (∀ crash, servePart settings (traffic.tagged conditions) traffic.sim = .error crash →
        crash = .divisionByZero) ∧
      ((∃ crash, servePart settings (traffic.tagged conditions) traffic.sim = .error crash) ↔
        conditions.readable = true ∧ DividesByZero settings traffic.sim ∧ ∃ sender tag buf,
          GotDatagram (traffic.tagged conditions) sender tag buf ∧
            FromSource settings traffic.sim sender) := by
  obtain ⟨content, inv⟩ := reachable_traffic reached
  refine ⟨?_, ?_, ?_, ?_⟩
  · rcases wakePart_exact (traffic.tagged conditions) inv.holds with ⟨_, runs⟩ |
      ⟨_, _, _, _, _, _, runs, _⟩
    · exact ⟨_, runs⟩
    · exact ⟨_, runs⟩
  · intro crash crashes
    rw [servePart] at crashes
    split at crashes
    · rcases processIncomingPkt_cases settings (traffic.tagged conditions) inv.holds with
        ⟨_, _, _, _, runs, _⟩ | ⟨fails, _⟩
      · simp [runs] at crashes
      · exact (Except.error.inj (fails.symm.trans crashes)).symm
    · cases crashes
  · rintro ⟨crash, crashes⟩
    rw [servePart] at crashes
    split at crashes
    · next readable =>
      rcases processIncomingPkt_cases settings (traffic.tagged conditions) inv.holds with
        ⟨_, _, _, _, runs, _⟩ | ⟨_, divides⟩
      · simp [runs] at crashes
      · exact ⟨readable, divides⟩
    · cases crashes
  · rintro ⟨readable, divides, sender, tag, buf, got, source⟩
    have isReadable : (traffic.tagged conditions).readable = true := readable
    refine ⟨.divisionByZero, ?_⟩
    rw [servePart, if_pos isReadable]
    rcases processIncomingPkt_linked inv.holds got source with
      ⟨_, _, _, _, _, _, noDivision, _⟩ | ⟨crashes, _⟩
    · exact absurd divides noDivision
    · exact crashes

/-- A datagram of four bytes or more can be used. -/
theorem got_of_received {traffic : Traffic} {conditions : Conditions Unit} {sender : SockAddr}
    {datagram : List Byte} (received : conditions.received = some (sender, (), datagram))
    (long : 4 ≤ datagram.length) :
    ∃ tag buf, GotDatagram (traffic.tagged conditions) sender tag buf := by
  refine ⟨⟨traffic.admitted.length, sender, traffic.sim.lastClock, datagram.take maxPktLen⟩,
    datagram.take maxPktLen, datagram, ?_, rfl, ?_⟩
  · simp only [Traffic.tagged, received, Option.map_some]
  · simp only [List.length_take, maxPktLen]
    omega

/-- A link with a delay and no jitter. -/
def stillLink : Settings := ⟨2, 0, 0, 0, 0, ⟨1, 12345⟩⟩

/-- Its first datagram of another host makes it crash. -/
theorem stillLink_crashes : ∃ crash, servePart stillLink
    (awoken.tagged (calm 0 (firstDatagram stillLink.destAddr.beside))) awoken.sim =
      .error crash := by
  obtain ⟨tag, buf, got⟩ := @got_of_received awoken (calm 0 (firstDatagram _))
    stillLink.destAddr.beside _ rfl (by decide)
  exact (crash_iff_divides stillLink awoken (awoken_reachable stillLink) _).2.2.mpr
    ⟨rfl, ⟨by decide, rfl, rfl⟩, _, tag, buf, got, SockAddr.beside_ne _, rfl⟩

/-! ## The source -/

/-- Whom the simulator takes for the source. -/
def Tracks (host : SockAddr) (traffic : Traffic) : Prop :=
  traffic.sim.hasSourceAddr = true ∧ traffic.sim.srcAddr = host

/-- A known source is kept by both parts of a pass. -/
theorem tracks_step {host : SockAddr} {traffic next : Traffic} {label : TrafficLabel}
    (reached : (trafficSystem settings).Reachable traffic) (tracks : Tracks host traffic)
    (step : TrafficStep settings traffic label next) : Tracks host next := by
  obtain ⟨content, inv⟩ := reachable_traffic reached
  obtain ⟨known, isHost⟩ := tracks
  have same (sender : SockAddr) : trackSource sender traffic.sim = traffic.sim := by
    rw [trackSource, if_pos known]
  cases step with
  | wake conditions result running asleep wakes =>
    rcases wakePart_exact (traffic.tagged conditions) inv.holds with ⟨_, runs⟩ |
      ⟨_, _, _, _, _, _, runs, _⟩
    · obtain rfl := Except.ok.inj (runs.symm.trans wakes)
      exact ⟨known, isHost⟩
    · obtain rfl := Except.ok.inj (runs.symm.trans wakes)
      exact ⟨known, isHost⟩
  | serve conditions result running woken serves =>
    rw [servePart] at serves
    split at serves
    · rcases processIncomingPkt_cases settings (traffic.tagged conditions) inv.holds with
        ⟨status, sim, outcomes, after, runs, _, processed⟩ | ⟨crashes, _⟩
      · obtain rfl := Except.ok.inj (runs.symm.trans serves)
        cases processed with
        | nothing => exact ⟨known, isHost⟩
        | alien => exact ⟨known, isHost⟩
        | relayed => rw [same]; exact ⟨known, isHost⟩
        | unrelayed => rw [same]; exact ⟨known, isHost⟩
        | linked _ _ link =>
          rw [same] at link
          have hosts := link.sameHosts
          exact ⟨hosts.hasSourceAddr.trans known, hosts.srcAddr.trans isHost⟩
      · simp [crashes] at serves
    · obtain rfl := Except.ok.inj serves
      exact ⟨known, isHost⟩

/-- A datagram of four bytes or more is read, and this host sent it. -/
def TrafficLabel.Hears (host : SockAddr) : TrafficLabel → Prop
  | .wake _ => False
  | .serve conditions => conditions.readable = true ∧ ∃ datagram,
      conditions.received = some (host, (), datagram) ∧ 4 ≤ datagram.length

/-- A pass hears one host at most. -/
theorem TrafficLabel.Hears.unique {label : TrafficLabel} {host other : SockAddr}
    (hears : label.Hears host) (again : label.Hears other) : host = other := by
  cases label with
  | wake conditions => exact hears.elim
  | serve conditions =>
    obtain ⟨_, _, received, _⟩ := hears
    obtain ⟨_, _, receivedAgain, _⟩ := again
    exact congrArg Prod.fst (Option.some.inj (received.symm.trans receivedAgain))

/-- What can be used is a datagram of four bytes or more. -/
theorem received_of_got {traffic : Traffic} {conditions : Conditions Unit} {sender : SockAddr}
    {tag : Admitted} {buf : List Byte}
    (got : GotDatagram (traffic.tagged conditions) sender tag buf) :
    ∃ datagram, conditions.received = some (sender, (), datagram) ∧ 4 ≤ datagram.length := by
  obtain ⟨datagram, found, rfl, long⟩ := got
  simp only [Traffic.tagged, Option.map_eq_some_iff, Prod.mk.injEq] at found
  obtain ⟨⟨host, mark, bytes⟩, received, rfl, _, rfl⟩ := found
  exact ⟨bytes, received, long.trans (List.length_take_le' _ _)⟩

/-- While no source is known, a part of a pass either hears a host, which then is the
source, or hears nobody and finds no source. -/
theorem unknown_step {traffic next : Traffic} {label : TrafficLabel}
    (reached : (trafficSystem settings).Reachable traffic)
    (unknown : traffic.sim.hasSourceAddr = false)
    (step : TrafficStep settings traffic label next) :
    (∃ host, label.Hears host ∧ Tracks host next) ∨
      ((∀ host, ¬ label.Hears host) ∧ next.sim.hasSourceAddr = false) := by
  obtain ⟨content, inv⟩ := reachable_traffic reached
  have taken (sender : SockAddr) : (trackSource sender traffic.sim).hasSourceAddr = true ∧
      (trackSource sender traffic.sim).srcAddr = sender := by
    simp [trackSource, unknown]
  cases step with
  | wake conditions result running asleep wakes =>
    refine .inr ⟨fun _ => id, ?_⟩
    rcases wakePart_exact (traffic.tagged conditions) inv.holds with ⟨_, runs⟩ |
      ⟨_, _, _, _, _, _, runs, _⟩
    · obtain rfl := Except.ok.inj (runs.symm.trans wakes)
      exact unknown
    · obtain rfl := Except.ok.inj (runs.symm.trans wakes)
      exact unknown
  | serve conditions result running woken serves =>
    rw [servePart] at serves
    split at serves
    case isFalse unreadable =>
      obtain rfl := Except.ok.inj serves
      exact .inr ⟨fun _ hears => unreadable hears.1, unknown⟩
    case isTrue readable =>
      rcases processIncomingPkt_cases settings (traffic.tagged conditions) inv.holds with
        ⟨status, sim, outcomes, after, runs, _, processed⟩ | ⟨crashes, _⟩
      · obtain rfl := Except.ok.inj (runs.symm.trans serves)
        cases processed with
        | nothing status unusable =>
          refine .inr ⟨?_, unknown⟩
          rintro host ⟨_, datagram, received, long⟩
          obtain ⟨tag, buf, got⟩ := got_of_received received long
          exact unusable host tag buf got
        | alien _ known => simp [unknown] at known
        | relayed got => exact .inl ⟨_, ⟨readable, received_of_got got⟩, taken _⟩
        | unrelayed got => exact .inl ⟨_, ⟨readable, received_of_got got⟩, taken _⟩
        | linked got source link =>
          have hosts := link.sameHosts
          exact .inl ⟨_, ⟨readable, received_of_got got⟩, hosts.hasSourceAddr.trans (taken _).1,
            hosts.srcAddr.trans (taken _).2⟩
      · simp [crashes] at serves

/-- In a run to this state, the first datagram of four bytes or more came from the host. -/
def FirstHeard (settings : Settings) (host : SockAddr) (traffic : Traffic) : Prop :=
  ∃ start before after label, (trafficSystem settings).initial start ∧
    (trafficSystem settings).Leads (fun label => ∀ other, ¬ label.Hears other) start before ∧
    TrafficStep settings before label after ∧ label.Hears host ∧
    (trafficSystem settings).Runs after traffic

/-- Until anybody is heard there is no source. -/
theorem unheard_unknown {start traffic : Traffic} (first : (trafficSystem settings).initial start)
    (quiet : (trafficSystem settings).Leads (fun label => ∀ other, ¬ label.Hears other) start
      traffic) :
    (trafficSystem settings).Reachable traffic ∧ traffic.sim.hasSourceAddr = false := by
  have unknown : start.sim.hasSourceAddr = false := by
    obtain ⟨reading, random, rfl⟩ := first
    rfl
  refine @System.reachable_leads_invariant _ _ _ _ (fun one => one.sim.hasSourceAddr = false) _ _
    ?_ quiet (System.reachable_initial first) unknown
  intro one label other silent reached unknown step
  rcases unknown_step reached unknown step with ⟨host, hears, _⟩ | ⟨_, still⟩
  · exact absurd hears (silent host)
  · exact still

/-- Whoever is heard first is the source. -/
theorem FirstHeard.tracks {host : SockAddr} {traffic : Traffic}
    (heard : FirstHeard settings host traffic) : Tracks host traffic := by
  obtain ⟨start, before, after, label, first, quiet, step, hears, runs⟩ := heard
  obtain ⟨reached, unknown⟩ := unheard_unknown first quiet
  have tracks : Tracks host after := by
    rcases unknown_step reached unknown step with ⟨other, again, tracks⟩ | ⟨silent, _⟩
    · rwa [hears.unique again]
    · exact absurd hears (silent host)
  exact (System.reachable_leads_invariant (fun _ _ _ _ => tracks_step) runs
    (System.reachable_step reached step) tracks).2

/-- A source was heard first in some run, since a run without one is quiet so far. -/
theorem firstHeard_source {traffic : Traffic} (reached : (trafficSystem settings).Reachable traffic)
    (known : traffic.sim.hasSourceAddr = true) :
    FirstHeard settings traffic.sim.srcAddr traffic := by
  obtain ⟨start, first, runs⟩ := reached
  have either : (trafficSystem settings).Leads (fun label => ∀ other, ¬ label.Hears other) start
      traffic ∨ FirstHeard settings traffic.sim.srcAddr traffic := by
    refine (@System.reachable_leads_invariant _ _ _ _ (fun one =>
      (trafficSystem settings).Leads (fun label => ∀ other, ¬ label.Hears other) start one ∨
        FirstHeard settings one.sim.srcAddr one) _ _ ?_ runs (System.reachable_initial first)
      (.inl (System.leads_refl _ start))).2
    rintro one label other - reached (quiet | heard) step
    · rcases unknown_step reached (unheard_unknown first quiet).2 step with
        ⟨host, hears, tracks⟩ | ⟨silent, _⟩
      · right
        rw [tracks.2]
        exact ⟨start, one, other, label, first, quiet, step, hears, System.leads_refl _ other⟩
      · exact .inl (System.leads_trans quiet (System.leads_single label silent step))
    · right
      have source := (tracks_step reached heard.tracks step).2
      rw [source]
      obtain ⟨begin, before, after, earlier, initial, quiet, hearing, hears, runs⟩ := heard
      exact ⟨begin, before, after, earlier, initial, quiet, hearing, hears,
        System.leads_trans runs (System.leads_single label trivial step)⟩
  refine either.resolve_left fun quiet => ?_
  simp [(unheard_unknown first quiet).2] at known

/-- The first host that sends a datagram of four bytes or more is the source for the rest
of the run: nothing of any other host is ever let through, and nothing at all if that
first one is the proxied host.

While no source is known, only such a datagram makes one, and the tests of the code leave
a known one as it is. So every run to a state with a source has its first such datagram
from there. -/
theorem first_host_stays_source (settings : Settings) (traffic later : Traffic)
    (reached : (trafficSystem settings).Reachable traffic)
    (known : traffic.sim.hasSourceAddr = true)
    (runs : (trafficSystem settings).Runs traffic later) :
    (∀ host, FirstHeard settings host traffic ↔ traffic.sim.srcAddr = host) ∧
      later.sim.hasSourceAddr = true ∧ later.sim.srcAddr = traffic.sim.srcAddr ∧
      (∀ origin ∈ later.admitted, origin.sender = traffic.sim.srcAddr) ∧
      (traffic.sim.srcAddr = settings.destAddr → later.admitted = []) := by
  have start : Tracks traffic.sim.srcAddr traffic := ⟨known, rfl⟩
  obtain ⟨reachedLater, stays, same⟩ :=
    System.reachable_leads_invariant (fun _ _ _ _ => tracks_step) runs reached start
  obtain ⟨content, inv⟩ := reachable_traffic reachedLater
  have senders (origin : Admitted) (listed : origin ∈ later.admitted) :
      origin.sender = traffic.sim.srcAddr := (inv.sources origin listed).source.trans same
  refine ⟨fun host => ⟨fun heard => heard.tracks.2, ?_⟩, stays, same, senders, fun atDest => ?_⟩
  · rintro rfl
    exact firstHeard_source reached known
  · refine List.eq_nil_iff_forall_not_mem.mpr fun origin listed => ?_
    exact (inv.sources origin listed).notDest ((senders origin listed).trans atDest)

/-- The host whose datagram waits, and gets through in the next pass. -/
theorem first_host_stays_slow : ∃ traffic later : Traffic, traffic.forwarded = [] ∧
    later.forwarded ≠ [] ∧ FirstHeard slowLink traffic.sim.srcAddr traffic ∧
    ∀ origin ∈ later.admitted, origin.sender = traffic.sim.srcAddr := by
  obtain ⟨traffic, later, reached, waits, nothing, step, through⟩ := slowLink_through
  obtain ⟨content, inv⟩ := reachable_traffic reached
  obtain ⟨slot, listed⟩ := List.exists_mem_of_ne_nil _ waits
  have admitted : slot.tag ∈ traffic.admitted := inv.waiting_admitted (by
    rwa [← queued_content inv.holds])
  obtain ⟨heard, _, _, senders, _⟩ := first_host_stays_source slowLink traffic later reached
    (inv.sources _ admitted).known (System.leads_single _ trivial step)
  exact ⟨traffic, later, nothing, through, (heard _).mpr rfl, senders⟩

/-! ## The end of the loop -/

/-- The system calls of a pass succeed or fail in a way that is ignored, and a datagram
is empty or long enough. Where none or an empty one is read, `errno` is one of EINTR,
EAGAIN and EWOULDBLOCK. -/
structure Favourable (conditions : Conditions Unit) : Prop where
  clock : conditions.clock ≠ none
  delayedSends : ∀ index, conditions.delayedSends index ≠ .failed
  send : conditions.send = .sent
  memory : conditions.malloc = true ∧ conditions.reallocs = true
  retry : (∀ sender tag datagram, conditions.received = some (sender, tag, datagram) →
    datagram = []) → conditions.retry = true
  long : ∀ sender tag datagram, conditions.received = some (sender, tag, datagram) →
    datagram = [] ∨ 4 ≤ datagram.length

/-- The environment of a part of a pass. -/
def TrafficLabel.conditions : TrafficLabel → Conditions Unit
  | .wake conditions => conditions
  | .serve conditions => conditions

/-- The part of a pass that comes next. -/
def Traffic.label (traffic : Traffic) (conditions : Conditions Unit) : TrafficLabel :=
  if traffic.awake then .serve conditions else .wake conditions

/-- Under favourable conditions the first part of a pass succeeds, whatever waits. -/
theorem favourable_wake {traffic : Traffic} {content : Multiset (PktSlot Admitted)}
    (inv : TrafficInv settings traffic content) {conditions : Conditions Unit}
    (favourable : Favourable conditions) :
    ∃ sim outcomes, wakePart (traffic.tagged conditions) traffic.sim =
      .ok (.success, sim, outcomes) := by
  rcases wakePart_exact (traffic.tagged conditions) inv.holds with ⟨unread, _⟩ |
    ⟨_, status, _, delivered, _, _, runs, _, done⟩
  · exact absurd unread favourable.clock
  · cases status with
    | success => exact ⟨_, _, runs⟩
    | failure => exact absurd (done.broken rfl) (favourable.delayedSends delivered.length)

/-- So does the second part, unless it divides by zero. -/
theorem favourable_serve {traffic : Traffic} {content : Multiset (PktSlot Admitted)}
    (inv : TrafficInv settings traffic content)
    (divisible : settings.delay = 0 ∨ settings.jitter ≠ 0) {conditions : Conditions Unit}
    (favourable : Favourable conditions) :
    ∃ sim outcomes, servePart settings (traffic.tagged conditions) traffic.sim =
      .ok (.success, sim, outcomes) := by
  rw [servePart]
  split
  · by_cases usable : ∃ sender tag buf, GotDatagram (traffic.tagged conditions) sender tag buf
    · obtain ⟨sender, tag, buf, got⟩ := usable
      rcases processIncomingPkt_cases settings (traffic.tagged conditions) inv.holds with
        ⟨status, sim, outcomes, after, runs, _, processed⟩ | ⟨_, divides, _⟩
      · cases processed with
        | nothing status unusable => exact absurd got (unusable sender tag buf)
        | alien => exact ⟨_, _, runs⟩
        | relayed => exact ⟨_, _, runs⟩
        | unrelayed _ fails => exact absurd favourable.send fails
        | linked _ _ link =>
          cases link with
          | dropped => exact ⟨_, _, runs⟩
          | delayed => exact ⟨_, _, runs⟩
          | forwarded => exact ⟨_, _, runs⟩
          | broken _ reason =>
            rcases reason with noSlot | noRoom | unsent
            · simp [Traffic.tagged, favourable.memory.1] at noSlot
            · simp [Traffic.tagged, favourable.memory.2] at noRoom
            · exact absurd favourable.send unsent
      · rcases divisible with noDelay | jitters
        · exact absurd noDelay divides.1
        · exact absurd divides.2.1 jitters
    · have empty (sender : SockAddr) (tag : Unit) (datagram : List Byte)
          (received : conditions.received = some (sender, tag, datagram)) : datagram = [] :=
        (favourable.long sender tag datagram received).resolve_right fun long =>
          usable ⟨sender, got_of_received received long⟩
      refine ⟨traffic.sim, [], processIncomingPkt_ignored (favourable.retry empty) ?_⟩
      intro sender tag datagram found
      simp only [Traffic.tagged, Option.map_eq_some_iff, Prod.mk.injEq] at found
      obtain ⟨⟨host, mark, bytes⟩, received, rfl, isTag, rfl⟩ := found
      exact empty host () bytes received
  · exact ⟨_, _, rfl⟩

/-- With favourable system calls the loop never ends, and a next part of a pass always
succeeds.

In every reachable state the queue is a heap, with which both parts succeed if their calls
do. That the loop has not ended is then kept by each step. -/
theorem loop_goes_on (settings : Settings) (divisible : settings.delay = 0 ∨ settings.jitter ≠ 0)
    (reading : Timespec) (random : Random) (traffic : Traffic)
    (run : (trafficSystem settings).Leads (fun label => Favourable label.conditions)
      (trafficStart reading random) traffic) :
    traffic.status = .success ∧ ∀ conditions, Favourable conditions →
      ∃ next, TrafficStep settings traffic (traffic.label conditions) next ∧
        next.status = .success := by
  have start : (trafficSystem settings).Reachable (trafficStart reading random) :=
    System.reachable_initial ⟨_, _, rfl⟩
  have kept : (trafficSystem settings).Reachable traffic ∧ traffic.status = .success := by
    refine @System.reachable_leads_invariant _ _ _ _ (fun one => one.status = .success) _ _ ?_
      run start rfl
    intro one label other favourable reached held step
    obtain ⟨content, inv⟩ := reachable_traffic reached
    cases step with
    | wake conditions result running asleep wakes =>
      obtain ⟨sim, outcomes, runs⟩ := favourable_wake inv favourable
      obtain rfl := Except.ok.inj (runs.symm.trans wakes)
      rfl
    | serve conditions result running woken serves =>
      obtain ⟨sim, outcomes, runs⟩ := favourable_serve inv divisible favourable
      obtain rfl := Except.ok.inj (runs.symm.trans serves)
      rfl
  refine ⟨kept.2, fun conditions favourable => ?_⟩
  obtain ⟨content, inv⟩ := reachable_traffic kept.1
  cases phase : traffic.awake with
  | false =>
    obtain ⟨sim, outcomes, runs⟩ := favourable_wake inv favourable
    refine ⟨traffic.after true ([], []) (.success, sim, outcomes), ?_, rfl⟩
    rw [Traffic.label, phase]
    exact .wake traffic conditions _ kept.2 phase runs
  | true =>
    obtain ⟨sim, outcomes, runs⟩ := favourable_serve inv divisible favourable
    refine ⟨traffic.after false ((traffic.tagged conditions).arrivals settings traffic.sim)
      (.success, sim, outcomes), ?_, rfl⟩
    rw [Traffic.label, phase]
    exact .serve traffic conditions _ kept.2 phase runs

/-- Calm passes are favourable. -/
theorem calm_favourable (seconds : Int) (host : SockAddr) :
    Favourable (calm seconds (firstDatagram host)) ∧ Favourable (calm seconds none) := by
  refine ⟨⟨by simp [calm], by simp [calm], rfl, ⟨rfl, rfl⟩, fun _ => rfl, ?_⟩,
    ⟨by simp [calm], by simp [calm], rfl, ⟨rfl, rfl⟩, fun _ => rfl, by simp [calm]⟩⟩
  rintro sender tag datagram received
  obtain ⟨_, _, rfl⟩ : host = sender ∧ () = tag ∧ [0, 0, 0, 0] = datagram := by
    simpa [calm, firstDatagram] using received
  exact .inr (by simp)

/-- The second part of the first pass. -/
theorem loop_goes_on_slow : ∃ next, TrafficStep slowLink awoken
    (.serve (calm 0 (firstDatagram slowLink.destAddr.beside))) next ∧ next.status = .success := by
  have run : (trafficSystem slowLink).Leads (fun label => Favourable label.conditions)
      (trafficStart ⟨0, 0⟩ hundreds) awoken :=
    System.leads_single (.wake (calm 0 none)) (calm_favourable 0 slowLink.destAddr).2
      (awoken_step slowLink)
  exact (loop_goes_on slowLink (.inr (by decide)) ⟨0, 0⟩ hundreds awoken run).2 _
    (calm_favourable 0 slowLink.destAddr.beside).1

end SelectiveRepeat
