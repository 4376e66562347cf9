import Mathlib.Algebra.Order.Group.Multiset
import SelectiveRepeat.LinkSim.Traffic

/-!
# What the simulator does to the traffic

One invariant ties the queue to the history of a run. It accounts for every datagram of
the source, gives each delayed one the date it waits for, and compares what was sent back
with what was heard. The properties of whole runs are read off it.
-/

namespace SelectiveRepeat

open PriorityBag Transition

/-- A delayed packet: its date, and what the link has made of it. -/
structure Waiting (settings : Settings) (slot : PktSlot Admitted) : Prop where
  delays : settings.delay ≠ 0
  dated : ∃ applied, Applied settings applied ∧
    slot.ts = expirationDate slot.tag.clock applied
  altered : Altered settings slot.tag.data slot.buf
  normal : slot.tag.clock.Normal

/-- A packet handed on: at once, or when its date was past. -/
structure HandedOn (settings : Settings) (entry : Forwarded) : Prop where
  normal : entry.origin.clock.Normal ∧ entry.clock.Normal
  altered : Altered settings entry.origin.data entry.data
  atOnce : settings.delay = 0 → entry.clock = entry.origin.clock
  dated : settings.delay ≠ 0 → ∃ applied, Applied settings applied ∧
    timevalCmp entry.clock (expirationDate entry.origin.clock applied) = true

/-- The datagram came from the one host the simulator takes for the source. -/
structure FromTracked (settings : Settings) (sim : Simulator Admitted) (origin : Admitted) :
    Prop where
  known : sim.hasSourceAddr = true
  source : origin.sender = sim.srcAddr
  notDest : origin.sender ≠ settings.destAddr

/-- The invariant of a run. The queue is a heap that holds `content`, and every datagram the
link got is lost, in that content, or handed on, each once. They are numbered in the order of
their arrival and come from the tracked source; what waits and what was handed on is dated and
altered as the options allow. What the proxied host sent is relayed in its order, and without a
delay what the source sent is handed on in its order. -/
structure TrafficInv (settings : Settings) (traffic : Traffic)
    (content : Multiset (PktSlot Admitted)) : Prop where
  holds : QueueHolds slotKey traffic.sim.pktQueue content
  normal : traffic.sim.lastClock.Normal
  balance : (↑traffic.admitted : Multiset Admitted) =
    ↑traffic.lost + content.map PktSlot.tag + ↑(traffic.forwarded.map Forwarded.origin)
  numbered : traffic.admitted.map Admitted.number = List.range traffic.admitted.length
  sources : ∀ origin ∈ traffic.admitted, FromTracked settings traffic.sim origin
  waiting : ∀ slot ∈ content, Waiting settings slot
  handedOn : ∀ entry ∈ traffic.forwarded, HandedOn settings entry
  losses : traffic.lost ≠ [] → settings.lossRate ≠ 0 ∨ traffic.status = .failure
  relays : traffic.relayed <+: traffic.heard ∧
    (traffic.status = .success → traffic.relayed = traffic.heard)
  inOrder : settings.delay = 0 →
    (traffic.forwarded.map fun entry => entry.origin.number).Pairwise (· < ·)

/-- Before the first pass there is nothing anywhere. -/
theorem trafficStart_inv (settings : Settings) (reading : Timespec) (random : Random) :
    TrafficInv settings (trafficStart reading random) 0 where
  holds := minqNew_holds slotKey
  normal := updateTime_normal reading
  balance := rfl
  numbered := rfl
  sources := by simp [trafficStart]
  waiting := by simp
  handedOn := by simp [trafficStart]
  losses := by simp [trafficStart]
  relays := ⟨List.prefix_refl _, fun _ => rfl⟩
  inOrder := by simp [trafficStart]

variable {settings : Settings} {traffic : Traffic} {content : Multiset (PktSlot Admitted)}

/-- The numbers given so far. -/
theorem TrafficInv.number_lt (inv : TrafficInv settings traffic content) {origin : Admitted}
    (listed : origin ∈ traffic.admitted) : origin.number < traffic.admitted.length := by
  have among : origin.number ∈ traffic.admitted.map Admitted.number := List.mem_map_of_mem listed
  rw [inv.numbered] at among
  exact List.mem_range.mp among

/-- What is in one of the places was admitted. -/
theorem TrafficInv.forwarded_admitted (inv : TrafficInv settings traffic content)
    {entry : Forwarded} (listed : entry ∈ traffic.forwarded) : entry.origin ∈ traffic.admitted := by
  rw [← Multiset.mem_coe, inv.balance]
  exact Multiset.mem_add.mpr (.inr (Multiset.mem_coe.mpr (List.mem_map_of_mem listed)))

/-- What waits once came from the source. -/
theorem TrafficInv.waiting_admitted (inv : TrafficInv settings traffic content)
    {slot : PktSlot Admitted} (listed : slot ∈ content) : slot.tag ∈ traffic.admitted := by
  rw [← Multiset.mem_coe, inv.balance]
  exact Multiset.mem_add.mpr (.inl (Multiset.mem_add.mpr
    (.inr (Multiset.mem_map_of_mem PktSlot.tag listed))))

/-- While the loop goes on, something is only lost where there is a loss rate. -/
theorem TrafficInv.lossy (inv : TrafficInv settings traffic content)
    (running : traffic.status = .success) (someLost : traffic.lost ≠ []) :
    settings.lossRate ≠ 0 := by
  refine (inv.losses someLost).resolve_right fun failed => ?_
  simp [running] at failed

/-! ## Outcomes -/

/-- A loss is recorded as one, -/
@[simp] theorem lostTag_lost (tag : Admitted) :
    [Outcome.lost tag].filterMap Outcome.lostTag = [tag] := rfl

/-- sends nothing on, -/
@[simp] theorem sentOn_lost (clock : Timeval) (tag : Admitted) :
    [Outcome.lost tag].filterMap (Outcome.sentOn clock) = [] := rfl

/-- and sends nothing back. -/
@[simp] theorem sentBack_lost (tag : Admitted) :
    [Outcome.lost tag].filterMap Outcome.sentBack = [] := rfl

/-- A datagram that is handed on is no loss, -/
@[simp] theorem lostTag_forwarded (tag : Admitted) (data : List Byte) :
    [Outcome.forwarded tag data].filterMap Outcome.lostTag = [] := rfl

/-- is recorded with the clock of the pass, -/
@[simp] theorem sentOn_forwarded (clock : Timeval) (tag : Admitted) (data : List Byte) :
    [Outcome.forwarded tag data].filterMap (Outcome.sentOn clock) = [⟨tag, clock, data⟩] := rfl

/-- and sends nothing back. -/
@[simp] theorem sentBack_forwarded (tag : Admitted) (data : List Byte) :
    [Outcome.forwarded tag data].filterMap Outcome.sentBack = [] := rfl

/-- The outcomes of the delayed packets that are sent. -/
theorem outcomes_delivered (clock : Timeval) (delivered : List (PktSlot Admitted)) :
    let outcomes := delivered.map fun p => Outcome.forwarded p.tag p.buf
    outcomes.filterMap Outcome.lostTag = [] ∧ outcomes.filterMap Outcome.sentBack = [] ∧
      outcomes.filterMap (Outcome.sentOn clock) =
        delivered.map fun p => ⟨p.tag, clock, p.buf⟩ := by
  induction delivered with
  | nil => exact ⟨rfl, rfl, rfl⟩
  | cons slot rest inductionHypothesis =>
    obtain ⟨lost, back, sent⟩ := inductionHypothesis
    refine ⟨?_, ?_, ?_⟩
    · simp [Outcome.lostTag]
    · simp [Outcome.sentBack]
    · simpa [Outcome.sentOn] using sent

/-- A delayed packet whose date is past may be handed on. -/
theorem Waiting.handedOn {slot : PktSlot Admitted} (waiting : Waiting settings slot)
    {clock : Timeval} (normal : clock.Normal) (past : Expired clock slot) :
    HandedOn settings ⟨slot.tag, clock, slot.buf⟩ where
  normal := ⟨waiting.normal, normal⟩
  altered := waiting.altered
  atOnce := fun noDelay => absurd noDelay waiting.delays
  dated := by
    obtain ⟨applied, applies, dated⟩ := waiting.dated
    exact fun _ => ⟨applied, applies, by rw [← dated]; exact past⟩

/-! ## The first part of a pass -/

/-- The first part of a pass keeps the invariant: packets past their date move from the queue to
what is handed on. -/
theorem wake_keeps (inv : TrafficInv settings traffic content) (conditions : Conditions Unit)
    {result : ExitStatus × Simulator Admitted × List (Outcome Admitted)}
    (running : traffic.status = .success)
    (wakes : wakePart (traffic.tagged conditions) traffic.sim = .ok result) :
    ∃ rest, TrafficInv settings (traffic.after true ([], []) result) rest := by
  rcases wakePart_exact (traffic.tagged conditions) inv.holds with ⟨_, runs⟩ |
    ⟨reading, status, queue, delivered, rest, _, runs, holdsNext, done⟩
  · obtain rfl := Except.ok.inj (runs.symm.trans wakes)
    refine ⟨content, { inv with
      balance := by simpa [Traffic.after] using inv.balance
      numbered := by simpa [Traffic.after] using inv.numbered
      sources := by simpa [Traffic.after] using inv.sources
      handedOn := by simpa [Traffic.after] using inv.handedOn
      losses := fun _ => .inr rfl
      relays := by simpa [Traffic.after] using inv.relays.1
      inOrder := by simpa [Traffic.after] using inv.inOrder }⟩
  · obtain rfl := Except.ok.inj (runs.symm.trans wakes)
    obtain ⟨lost, back, sent⟩ := outcomes_delivered (updateTime reading) delivered
    have normal := updateTime_normal reading
    have split := done.takes.split
    refine ⟨rest, holdsNext, normal, ?_, ?_, ?_, ?_, ?_, ?_, ?_, ?_⟩
    · have origins : (delivered.map fun p =>
          (⟨p.tag, updateTime reading, p.buf⟩ : Forwarded)).map Forwarded.origin =
          delivered.map PktSlot.tag := by rw [List.map_map]; rfl
      simp only [Traffic.after, lost, sent, List.append_nil, List.map_append, origins]
      rw [inv.balance, split, Multiset.map_add, Multiset.map_coe, ← Multiset.coe_add]
      ac_rfl
    · simpa [Traffic.after] using inv.numbered
    · intro origin listed
      have tracked := inv.sources origin (by simpa [Traffic.after] using listed)
      exact ⟨tracked.known, tracked.source, tracked.notDest⟩
    · intro slot listed
      exact inv.waiting slot (by rw [split]; simp [listed])
    · intro entry listed
      simp only [Traffic.after, sent, List.mem_append, List.mem_map] at listed
      rcases listed with earlier | ⟨slot, isDelivered, rfl⟩
      · exact inv.handedOn entry earlier
      · have waiting := inv.waiting slot (by rw [split]; simp [isDelivered])
        exact waiting.handedOn normal (done.expired slot isDelivered)
    · intro someLost
      simp only [Traffic.after, lost, List.append_nil] at someLost
      exact .inl (inv.lossy running someLost)
    · simp only [Traffic.after, back, List.append_nil]
      exact ⟨inv.relays.1, fun _ => inv.relays.2 running⟩
    · intro noDelay
      have nothing : delivered = [] := by
        refine List.eq_nil_iff_forall_not_mem.mpr fun slot listed => ?_
        exact (inv.waiting slot (by rw [split]; simp [listed])).delays noDelay
      simp only [Traffic.after, sent, nothing, List.map_nil, List.append_nil]
      exact inv.inOrder noDelay

/-! ## The second part of a pass -/

/-- The tag of what is received. -/
theorem tagged_datagram {conditions : Conditions Unit} {sender : SockAddr} {tag : Admitted}
    {buf : List Byte} (got : GotDatagram (traffic.tagged conditions) sender tag buf) :
    tag = ⟨traffic.admitted.length, sender, traffic.sim.lastClock, buf⟩ := by
  obtain ⟨datagram, found, rfl, _⟩ := got
  simp only [Traffic.tagged, Option.map_eq_some_iff, Prod.mk.injEq] at found
  obtain ⟨entry, _, rfl, rfl, rfl⟩ := found
  rfl

/-- A datagram of the source counts as admitted. -/
theorem arrivals_source {conditions : Conditions Admitted} {sim : Simulator Admitted}
    {sender : SockAddr} {tag : Admitted} {buf : List Byte} (readable : conditions.readable = true)
    (got : GotDatagram conditions sender tag buf) (source : FromSource settings sim sender) :
    conditions.arrivals settings sim = ([tag], []) := by
  obtain ⟨datagram, found, rfl, long⟩ := got
  simp only [Conditions.arrivals, readable, found, not_lt.mpr long, source.1, source.2, if_false,
    if_true]

/-- One of the proxied host as heard. -/
theorem arrivals_dest {conditions : Conditions Admitted} {sim : Simulator Admitted}
    {tag : Admitted} {buf : List Byte} (readable : conditions.readable = true)
    (got : GotDatagram conditions settings.destAddr tag buf) :
    conditions.arrivals settings sim = ([], [buf]) := by
  obtain ⟨datagram, found, rfl, long⟩ := got
  simp only [Conditions.arrivals, readable, found, not_lt.mpr long, if_false, if_true]

/-- One of any other host does not count. -/
theorem arrivals_alien {conditions : Conditions Admitted} {sim : Simulator Admitted}
    {sender : SockAddr} {tag : Admitted} {buf : List Byte}
    (got : GotDatagram conditions sender tag buf) (known : sim.hasSourceAddr = true)
    (notDest : sender ≠ settings.destAddr) (notSource : sender ≠ sim.srcAddr) :
    conditions.arrivals settings sim = ([], []) := by
  obtain ⟨datagram, found, rfl, long⟩ := got
  have same : trackSource sender sim = sim := by rw [trackSource, if_pos known]
  cases readable : conditions.readable with
  | false => simp only [Conditions.arrivals, readable]
  | true =>
    simp only [Conditions.arrivals, readable, found, not_lt.mpr long, notDest, same,
      Ne.symm notSource, if_false]

/-- Where nothing usable was received, nothing arrives. -/
theorem arrivals_nothing {conditions : Conditions Admitted} (sim : Simulator Admitted)
    (unusable : ∀ sender tag buf, ¬ GotDatagram conditions sender tag buf) :
    conditions.arrivals settings sim = ([], []) := by
  rw [Conditions.arrivals]
  split
  · next sender tag datagram _ found =>
    have short : (datagram.take maxPktLen).length < 4 :=
      not_le.mp fun long => unusable sender tag _ ⟨datagram, found, rfl, long⟩
    simp only [short, if_true]
  · rfl

/-- A part of a pass that changes nothing but the status, the source if there was none,
and what is heard. -/
theorem TrafficInv.quiet (inv : TrafficInv settings traffic content)
    (running : traffic.status = .success) {next : Simulator Admitted} {status : ExitStatus}
    {heard : List (List Byte)} {outcomes : List (Outcome Admitted)}
    (holds : QueueHolds slotKey next.pktQueue content)
    (sameClock : next.lastClock = traffic.sim.lastClock)
    (sources : ∀ origin ∈ traffic.admitted, FromTracked settings next origin)
    (noLoss : outcomes.filterMap Outcome.lostTag = [])
    (noSend : ∀ clock, outcomes.filterMap (Outcome.sentOn clock) = [])
    (relays : outcomes.filterMap Outcome.sentBack <+: heard ∧
      (status = .success → outcomes.filterMap Outcome.sentBack = heard)) (awake : Bool) :
    TrafficInv settings (traffic.after awake ([], heard) (status, next, outcomes)) content where
  holds := holds
  normal := by simpa only [Traffic.after, sameClock] using inv.normal
  balance := by
    simpa only [Traffic.after, noLoss, noSend, List.append_nil] using inv.balance
  numbered := by simpa only [Traffic.after, List.append_nil] using inv.numbered
  sources := by simpa only [Traffic.after, List.append_nil] using sources
  waiting := inv.waiting
  handedOn := by simpa only [Traffic.after, noSend, List.append_nil] using inv.handedOn
  losses := by
    intro someLost
    simp only [Traffic.after, noLoss, List.append_nil] at someLost
    exact .inl (inv.lossy running someLost)
  relays := by
    simp only [Traffic.after, inv.relays.2 running]
    obtain ⟨front, whole⟩ := relays
    refine ⟨(List.prefix_append_right_inj _).mpr front, fun success => ?_⟩
    rw [whole success]
  inOrder := by simpa only [Traffic.after, noSend, List.append_nil] using inv.inOrder

/-- Once there is a source, it stays the source. -/
theorem TrafficInv.tracked (inv : TrafficInv settings traffic content) (sender : SockAddr)
    {origin : Admitted} (listed : origin ∈ traffic.admitted) :
    FromTracked settings (trackSource sender traffic.sim) origin := by
  have tracked := inv.sources origin listed
  rwa [trackSource, if_pos tracked.known]

/-- The source of a datagram stays the tracked one while the hosts are the same. -/
theorem FromTracked.same {before after : Simulator Admitted} {origin : Admitted}
    (tracked : FromTracked settings before origin) (same : SameHosts before after) :
    FromTracked settings after origin where
  known := same.hasSourceAddr.trans tracked.known
  source := tracked.source.trans same.srcAddr.symm
  notDest := tracked.notDest

section Admit
variable {sender : SockAddr} {buf : List Byte} {status : ExitStatus} {next : Simulator Admitted}
  {outcomes : List (Outcome Admitted)} {after : Multiset (PktSlot Admitted)} {tag : Admitted}

/-- A datagram that is admitted comes from the source as well. -/
theorem TrafficInv.sources_more (inv : TrafficInv settings traffic content)
    (source : FromSource settings traffic.sim tag.sender)
    (same : SameHosts (trackSource tag.sender traffic.sim) next) :
    ∀ origin ∈ traffic.admitted ++ [tag], FromTracked settings next origin := by
  intro origin listed
  rcases List.mem_append.mp listed with earlier | new
  · exact (inv.tracked tag.sender earlier).same same
  · rw [List.mem_singleton.mp new]
    refine FromTracked.same ⟨trackSource_hasSourceAddr tag.sender traffic.sim, ?_, ?_⟩ same
    · exact source.2.symm
    · exact source.1

/-- And it is in one of the places, if it and what was queued are. -/
theorem TrafficInv.balance_more (inv : TrafficInv settings traffic content)
    {lost : List Admitted} {sent : List Forwarded}
    (moved : ({tag} : Multiset Admitted) + content.map PktSlot.tag =
      ↑lost + after.map PktSlot.tag + ↑(sent.map Forwarded.origin)) :
    (↑(traffic.admitted ++ [tag]) : Multiset Admitted) = ↑(traffic.lost ++ lost) +
      after.map PktSlot.tag + ↑((traffic.forwarded ++ sent).map Forwarded.origin) := by
  rw [List.map_append, ← Multiset.coe_add, ← Multiset.coe_add, ← Multiset.coe_add, inv.balance,
    Multiset.coe_singleton]
  calc _ = ↑traffic.lost + ↑(traffic.forwarded.map Forwarded.origin) +
        ({tag} + content.map PktSlot.tag) := by ac_rfl
    _ = ↑traffic.lost + ↑(traffic.forwarded.map Forwarded.origin) +
        (↑lost + after.map PktSlot.tag + ↑(sent.map Forwarded.origin)) := by rw [moved]
    _ = _ := by ac_rfl

/-- What holds whatever the link does to a datagram of the source: where it goes is left
to show. -/
theorem TrafficInv.admit (inv : TrafficInv settings traffic content)
    (running : traffic.status = .success)
    (named : tag = ⟨traffic.admitted.length, sender, traffic.sim.lastClock, buf⟩)
    (source : FromSource settings traffic.sim sender)
    (same : SameHosts (trackSource sender traffic.sim) next)
    (holds : QueueHolds slotKey next.pktQueue after) {lost : List Admitted} {sent : List Forwarded}
    (losses : outcomes.filterMap Outcome.lostTag = lost)
    (sends : outcomes.filterMap (Outcome.sentOn traffic.sim.lastClock) = sent)
    (noReturn : outcomes.filterMap Outcome.sentBack = [])
    (moved : ({tag} : Multiset Admitted) + content.map PktSlot.tag =
      ↑lost + after.map PktSlot.tag + ↑(sent.map Forwarded.origin))
    (waiting : ∀ slot ∈ after, Waiting settings slot)
    (handedOn : ∀ entry ∈ sent, HandedOn settings entry)
    (reason : lost ≠ [] → settings.lossRate ≠ 0 ∨ status = .failure)
    (alone : (sent.map Forwarded.origin).Sublist [tag]) :
    TrafficInv settings (traffic.after false ([tag], []) (status, next, outcomes)) after := by
  have clock : next.lastClock = traffic.sim.lastClock := by
    rw [same.lastClock, trackSource_lastClock]
  have numbered : (traffic.admitted ++ [tag]).map Admitted.number =
      List.range (traffic.admitted ++ [tag]).length := by
    rw [List.map_append, inv.numbered, List.length_append, List.length_singleton, List.range_succ,
      named]
    rfl
  have sources : ∀ origin ∈ traffic.admitted ++ [tag], FromTracked settings next origin :=
    inv.sources_more (by simpa only [named] using source) (by simpa only [named] using same)
  simp only [Traffic.after, clock, losses, sends, noReturn, List.append_nil]
  refine ⟨holds, ?_, inv.balance_more moved, numbered, sources, waiting, ?_, ?_, ?_, ?_⟩
  · simp only [clock]
    exact inv.normal
  · intro entry listed
    exact (List.mem_append.mp listed).elim (inv.handedOn entry) (handedOn entry)
  · intro someLost
    by_cases earlier : traffic.lost = []
    · simp only [earlier, List.nil_append] at someLost
      exact reason someLost
    · exact .inl (inv.lossy running earlier)
  · exact ⟨inv.relays.1, fun _ => inv.relays.2 running⟩
  · intro noDelay
    rw [List.map_append]
    have ordered : (sent.map fun entry => entry.origin.number).Sublist [tag.number] := by
      simpa [Function.comp_def] using alone.map Admitted.number
    refine List.pairwise_append.mpr ⟨inv.inOrder noDelay,
      (List.pairwise_singleton _ _).sublist ordered, ?_⟩
    intro number listed last isLast
    obtain ⟨entry, isForwarded, rfl⟩ := List.mem_map.mp listed
    rw [List.mem_singleton.mp (ordered.mem isLast), named]
    exact inv.number_lt (inv.forwarded_admitted isForwarded)

/-- A datagram of the source is lost, waits, or is handed on. -/
theorem linked_keeps (inv : TrafficInv settings traffic content)
    (running : traffic.status = .success) {conditions : Conditions Admitted}
    (named : tag = ⟨traffic.admitted.length, sender, traffic.sim.lastClock, buf⟩)
    (source : FromSource settings traffic.sim sender)
    (holds : QueueHolds slotKey next.pktQueue after)
    (linked : Linked settings conditions tag buf (trackSource sender traffic.sim) content status
      next outcomes after) :
    TrafficInv settings (traffic.after false ([tag], []) (status, next, outcomes)) after := by
  have none : ∀ entry ∈ ([] : List Forwarded), HandedOn settings entry := by simp
  have normal : tag.clock.Normal := by
    rw [named]
    exact inv.normal
  have gone : ({tag} : Multiset Admitted) + content.map PktSlot.tag =
      ↑[tag] + content.map PktSlot.tag + ↑(([] : List Forwarded).map Forwarded.origin) := by simp
  cases linked with
  | dropped same drops =>
    exact inv.admit running named source same holds (lostTag_lost tag) (sentOn_lost _ tag)
      (sentBack_lost tag) gone inv.waiting none (fun _ => .inl (hits_rate drops))
      (List.nil_sublist _)
  | broken same reason =>
    exact inv.admit running named source same holds (lostTag_lost tag) (sentOn_lost _ tag)
      (sentBack_lost tag) gone inv.waiting none (fun _ => .inr rfl) (List.nil_sublist _)
  | @delayed _ applied data same _ delays applies damaged =>
    have altered : Altered settings buf data := damaged ▸ damage_altered settings buf _
    refine inv.admit running named source same holds rfl rfl rfl ?_ ?_ none
      (fun some => absurd rfl some) (List.nil_sublist _)
    · simp
    · intro slot listed
      rcases Multiset.mem_cons.mp listed with rfl | earlier
      · refine ⟨delays, ⟨applied, applies, ?_⟩, ?_, normal⟩
        · simp only [trackSource_lastClock, named]
        · simp only [named]
          exact altered
      · exact inv.waiting slot earlier
  | @forwarded _ data same _ noDelay damaged =>
    have altered : Altered settings buf data := damaged ▸ damage_altered settings buf _
    refine inv.admit running named source same holds (lostTag_forwarded tag data)
      (sentOn_forwarded _ tag data) (sentBack_forwarded tag data) ?_ inv.waiting ?_
      (fun some => absurd rfl some) (List.Sublist.refl _)
    · simp [add_comm]
    · intro entry listed
      obtain rfl := List.mem_singleton.mp listed
      refine ⟨⟨normal, inv.normal⟩, ?_, fun _ => ?_, fun delays => absurd noDelay delays⟩
      · simp only [named]
        exact altered
      · rw [named]

end Admit

/-- The second part keeps the invariant. The cases are those of `Processed`: what arrives from the
source is added to the queue, to what is handed on or to the losses, and what arrives from the
other end to what is relayed. -/
theorem serve_keeps (inv : TrafficInv settings traffic content) (conditions : Conditions Unit)
    {result : ExitStatus × Simulator Admitted × List (Outcome Admitted)}
    (running : traffic.status = .success)
    (serves : servePart settings (traffic.tagged conditions) traffic.sim = .ok result) :
    ∃ after, TrafficInv settings (traffic.after false
      ((traffic.tagged conditions).arrivals settings traffic.sim) result) after := by
  cases readable : (traffic.tagged conditions).readable with
  | false =>
    rw [servePart, readable] at serves
    obtain rfl := Except.ok.inj serves
    have nothing : (traffic.tagged conditions).arrivals settings traffic.sim = ([], []) := by
      simp only [Conditions.arrivals, readable]
    rw [nothing]
    exact ⟨content, inv.quiet running inv.holds rfl inv.sources rfl (fun _ => rfl)
      ⟨List.prefix_refl _, fun _ => rfl⟩ false⟩
  | true =>
    rw [servePart, if_pos readable] at serves
    rcases processIncomingPkt_cases settings (traffic.tagged conditions) inv.holds with
      ⟨status, next, outcomes, after, runs, holds, processed⟩ | ⟨crashes, _⟩
    · obtain rfl := Except.ok.inj (runs.symm.trans serves)
      refine ⟨after, ?_⟩
      cases processed with
      | nothing status unusable =>
        rw [arrivals_nothing traffic.sim unusable]
        exact inv.quiet running holds rfl inv.sources rfl (fun _ => rfl)
          ⟨List.prefix_refl _, fun _ => rfl⟩ false
      | alien got known notDest notSource =>
        rw [arrivals_alien got known notDest notSource]
        exact inv.quiet running holds rfl inv.sources rfl (fun _ => rfl)
          ⟨List.prefix_refl _, fun _ => rfl⟩ false
      | relayed got sends =>
        rw [arrivals_dest readable got]
        exact inv.quiet running holds (trackSource_lastClock ..) (fun _ => inv.tracked _) rfl
          (fun _ => rfl) ⟨List.prefix_refl _, fun _ => rfl⟩ false
      | unrelayed got fails =>
        rw [arrivals_dest readable got]
        exact inv.quiet running holds (trackSource_lastClock ..) (fun _ => inv.tracked _) rfl
          (fun _ => rfl) ⟨by simp, by simp⟩ false
      | linked got source link =>
        rw [arrivals_source readable got source]
        exact linked_keeps inv running (tagged_datagram got) source holds link
    · rw [crashes] at serves
      cases serves

/-- The invariant holds in every reachable state, of the content that the queue then has. -/
theorem reachable_traffic {traffic : Traffic}
    (reached : (trafficSystem settings).Reachable traffic) :
    ∃ content, TrafficInv settings traffic content := by
  refine @System.reachable_invariant _ _ _ (fun one => ∃ content, TrafficInv settings one content)
    traffic ?_ ?_ reached
  · rintro first ⟨reading, random, rfl⟩
    exact ⟨0, trafficStart_inv settings reading random⟩
  · rintro before label after ⟨content, inv⟩ step
    cases step with
    | wake conditions result running asleep wakes => exact wake_keeps inv conditions running wakes
    | serve conditions result running woken serves =>
      exact serve_keeps inv conditions running serves

end SelectiveRepeat
