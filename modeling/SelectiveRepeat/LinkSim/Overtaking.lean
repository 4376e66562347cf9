import SelectiveRepeat.LinkSim.Guarantees

/-!
# How far a packet may overtake another

With a delay, packets leave in another order than they came in. A packet only overtakes
one whose date is not smaller than its own, and no date is ten seconds or more away from
the arrival of its packet. So a packet that overtakes another came soon after it.
-/

namespace SelectiveRepeat

open PriorityBag Transition

variable {settings : Settings} {traffic : Traffic} {content : Multiset (PktSlot Admitted)}

/-- The first datagram came first, or may have got a date that is not larger. -/
def MayLead (settings : Settings) (first second : Admitted) : Prop :=
  first.number < second.number ∨ (settings.delay ≠ 0 ∧ ∃ early late, Applied settings early ∧
    Applied settings late ∧
    (expirationDate first.clock early).key ≤ (expirationDate second.clock late).key)

/-- Of two waiting packets the one with the smaller date may lead. -/
theorem Waiting.mayLead {first second : PktSlot Admitted} (one : Waiting settings first)
    (other : Waiting settings second) (ordered : slotKey first ≤ slotKey second) :
    MayLead settings first.tag second.tag := by
  obtain ⟨early, appliesEarly, earlyDate⟩ := one.dated
  obtain ⟨late, appliesLate, lateDate⟩ := other.dated
  refine .inr ⟨one.delays, early, late, appliesEarly, appliesLate, ?_⟩
  rw [← earlyDate, ← lateDate]
  exact ordered

/-! ## What the parts of a pass move -/

/-- The first part sends packets from the queue, least dates first. -/
theorem wake_moves (inv : TrafficInv settings traffic content) (conditions : Conditions Unit)
    {result : ExitStatus × Simulator Admitted × List (Outcome Admitted)}
    (wakes : wakePart (traffic.tagged conditions) traffic.sim = .ok result) :
    ∃ slots rest, QueueHolds slotKey result.2.1.pktQueue rest ∧
      Takes slotKey content slots rest ∧
      ∀ clock, result.2.2.filterMap (Outcome.sentOn clock) =
        slots.map fun p => ⟨p.tag, clock, p.buf⟩ := by
  rcases wakePart_exact (traffic.tagged conditions) inv.holds with ⟨_, runs⟩ |
    ⟨reading, status, queue, slots, rest, _, runs, holds, done⟩
  · obtain rfl := Except.ok.inj (runs.symm.trans wakes)
    exact ⟨[], content, inv.holds, .done content, fun _ => rfl⟩
  · obtain rfl := Except.ok.inj (runs.symm.trans wakes)
    exact ⟨slots, rest, holds, done.takes, fun clock => (outcomes_delivered clock slots).2.2⟩

/-- The second part adds a packet to the queue, or sends it, or neither. -/
theorem serve_moves (inv : TrafficInv settings traffic content) (conditions : Conditions Unit)
    {result : ExitStatus × Simulator Admitted × List (Outcome Admitted)}
    (serves : servePart settings (traffic.tagged conditions) traffic.sim = .ok result) :
    ∃ rest, QueueHolds slotKey result.2.1.pktQueue rest ∧
      ((rest = content ∧ ∀ clock, result.2.2.filterMap (Outcome.sentOn clock) = []) ∨
        (∃ slot, rest = slot ::ₘ content ∧ slot.tag.number = traffic.admitted.length ∧
          ∀ clock, result.2.2.filterMap (Outcome.sentOn clock) = []) ∨
        (settings.delay = 0 ∧ rest = content ∧ ∃ tag data, tag.number = traffic.admitted.length ∧
          ∀ clock, result.2.2.filterMap (Outcome.sentOn clock) = [⟨tag, clock, data⟩])) := by
  rw [servePart] at serves
  split at serves
  case isFalse =>
    obtain rfl := Except.ok.inj serves
    exact ⟨content, inv.holds, .inl ⟨rfl, fun _ => rfl⟩⟩
  case isTrue =>
    rcases processIncomingPkt_cases settings (traffic.tagged conditions) inv.holds with
      ⟨status, next, outcomes, after, runs, holds, processed⟩ | ⟨crashes, _⟩
    · obtain rfl := Except.ok.inj (runs.symm.trans serves)
      refine ⟨after, holds, ?_⟩
      cases processed with
      | linked got source link =>
        have named := tagged_datagram got
        cases link with
        | delayed => exact .inr (.inl ⟨_, rfl, by rw [named], fun _ => rfl⟩)
        | forwarded _ _ noDelay =>
          exact .inr (.inr ⟨noDelay, rfl, _, _, by rw [named], fun _ => rfl⟩)
        | _ => exact .inl ⟨rfl, fun _ => rfl⟩
      | _ => exact .inl ⟨rfl, fun _ => rfl⟩
    · rw [crashes] at serves
      cases serves

/-! ## The order of what leaves -/

/-- Nothing was sent before another datagram, or before one that still waits, that it may
not precede. -/
structure Led (settings : Settings) (traffic : Traffic) : Prop where
  sent : traffic.forwarded.Pairwise fun first second =>
    MayLead settings first.origin second.origin
  waiting : ∀ entry ∈ traffic.forwarded, ∀ slot ∈ queued traffic.sim.pktQueue,
    MayLead settings entry.origin slot.tag

/-- What was sent before a packet that waits was allowed to lead it. -/
theorem Led.waits (led : Led settings traffic) (inv : TrafficInv settings traffic content)
    {entry : Forwarded} (listed : entry ∈ traffic.forwarded) {slot : PktSlot Admitted}
    (present : slot ∈ content) : MayLead settings entry.origin slot.tag :=
  led.waiting entry listed slot (by rwa [← Multiset.mem_coe, queued_content inv.holds])

/-- What is sent from the queue leads what stays, by their dates. -/
theorem led_wake (inv : TrafficInv settings traffic content) (led : Led settings traffic)
    (conditions : Conditions Unit)
    {result : ExitStatus × Simulator Admitted × List (Outcome Admitted)}
    (wakes : wakePart (traffic.tagged conditions) traffic.sim = .ok result) :
    Led settings (traffic.after true ([], []) result) := by
  obtain ⟨slots, rest, holds, takes, sends⟩ := wake_moves inv conditions wakes
  have left (slot : PktSlot Admitted) (listed : slot ∈ rest) : slot ∈ content := by
    rw [takes.split]
    simp [listed]
  have gone (slot : PktSlot Admitted) (listed : slot ∈ slots) : slot ∈ content := by
    rw [takes.split]
    simp [listed]
  simp only [Traffic.after, sends]
  constructor
  · refine List.pairwise_append.mpr ⟨led.sent, ?_, ?_⟩
    · rw [List.pairwise_map]
      refine takes.sorted.imp_of_mem fun early late ordered => ?_
      exact (inv.waiting _ (gone _ early)).mayLead (inv.waiting _ (gone _ late)) ordered
    · intro entry earlier other new
      obtain ⟨slot, listed, rfl⟩ := List.mem_map.mp new
      exact led.waits inv earlier (gone slot listed)
  · intro entry listed slot stays
    rw [← Multiset.mem_coe, queued_content holds] at stays
    rcases List.mem_append.mp listed with earlier | new
    · exact led.waits inv earlier (left slot stays)
    · obtain ⟨first, taken, rfl⟩ := List.mem_map.mp new
      exact (inv.waiting _ (gone _ taken)).mayLead (inv.waiting _ (left _ stays))
        (takes.le_left _ taken _ stays)

/-- What is new has a larger number than all that was sent. -/
theorem led_serve (inv : TrafficInv settings traffic content) (led : Led settings traffic)
    (conditions : Conditions Unit)
    {result : ExitStatus × Simulator Admitted × List (Outcome Admitted)}
    (serves : servePart settings (traffic.tagged conditions) traffic.sim = .ok result) :
    Led settings (traffic.after false
      ((traffic.tagged conditions).arrivals settings traffic.sim) result) := by
  obtain ⟨rest, holds, moved⟩ := serve_moves inv conditions serves
  have newest {entry : Forwarded} (listed : entry ∈ traffic.forwarded) {origin : Admitted}
      (numbered : origin.number = traffic.admitted.length) :
      MayLead settings entry.origin origin := by
    have less := inv.number_lt (inv.forwarded_admitted listed)
    exact .inl (by omega)
  have stayed {slot : PktSlot Admitted} (stays : slot ∈ queued result.2.1.pktQueue) :
      slot ∈ rest := by
    rw [← queued_content holds]
    exact stays
  simp only [Traffic.after]
  rcases moved with ⟨same, nothing⟩ | ⟨added, more, numbered, nothing⟩ |
    ⟨noDelay, same, tag, data, numbered, sends⟩
  · refine ⟨by simpa [nothing] using led.sent, fun entry listed slot stays => ?_⟩
    simp only [nothing, List.append_nil] at listed
    exact led.waits inv listed (same ▸ stayed stays)
  · refine ⟨by simpa [nothing] using led.sent, fun entry listed slot stays => ?_⟩
    simp only [nothing, List.append_nil] at listed
    rcases Multiset.mem_cons.mp (more ▸ stayed stays) with rfl | earlier
    · exact newest listed numbered
    · exact led.waits inv listed earlier
  · constructor
    · simp only [sends]
      refine List.pairwise_append.mpr ⟨led.sent, List.pairwise_singleton _ _, ?_⟩
      intro entry listed other isNew
      rw [List.mem_singleton.mp isNew]
      exact newest listed numbered
    · intro entry listed slot stays
      exact absurd noDelay (inv.waiting slot (same ▸ stayed stays)).delays

/-- Both parts of a pass keep the order. -/
theorem led_step {next : Traffic} {label : TrafficLabel}
    (inv : TrafficInv settings traffic content) (led : Led settings traffic)
    (step : TrafficStep settings traffic label next) : Led settings next := by
  cases step with
  | wake conditions result running asleep wakes => exact led_wake inv led conditions wakes
  | serve conditions result running woken serves => exact led_serve inv led conditions serves

/-- The order of what leaves, in every reachable state. -/
theorem reachable_led (reached : (trafficSystem settings).Reachable traffic) :
    Led settings traffic := by
  obtain ⟨first, ⟨reading, random, rfl⟩, runs⟩ := reached
  have start : Led settings (trafficStart reading random) :=
    ⟨List.Pairwise.nil, by simp [trafficStart]⟩
  refine (System.reachable_leads_invariant ?_ runs (System.reachable_initial ⟨_, _, rfl⟩) start).2
  intro one label other _ reached led step
  obtain ⟨content, inv⟩ := reachable_traffic reached
  exact led_step inv led step

/-- Dates that are in order may be out of order as times by what they do not carry. -/
theorem dates_close {first second : Timeval} (firstNormal : first.Normal)
    (secondNormal : second.Normal) {early late : Nat}
    (ordered : (expirationDate first early).key ≤ (expirationDate second late).key) :
    first.micros + early * 1000 ≤ second.micros + late * 1000 + 998999 := by
  obtain ⟨firstLow, firstHigh⟩ := firstNormal
  obtain ⟨secondLow, secondHigh⟩ := secondNormal
  rw [Timeval.key, Timeval.key, Prod.Lex.toLex_le_toLex] at ordered
  simp only [expirationDate, Timeval.micros] at ordered ⊢
  omega

/-- In every run, of two datagrams that were handed on in another order than they came
in, the one that overtook the other came less than eleven seconds after it. With options
in their range it came less than twice the jitter and a second after it.

Packets leave the heap in the order of their dates, so that the later one had a date that
is not larger. Two such dates stand for times less than a second out of order, and the
delays behind them differ by ten seconds, or by twice the jitter, at most. -/
theorem overtaking_bounded (settings : Settings) (traffic : Traffic)
    (reached : (trafficSystem settings).Reachable traffic) :
    traffic.forwarded.Pairwise fun first second =>
      first.origin.number < second.origin.number ∨ (settings.delay ≠ 0 ∧
        first.origin.clock.micros < second.origin.clock.micros + 11000000 ∧
        (settings.jitter.toNat ≤ settings.delay.toNat →
          settings.delay.toNat + settings.jitter.toNat ≤ 10000 →
          first.origin.clock.micros <
            second.origin.clock.micros + 2000 * (settings.jitter.toNat : Int) + 1000000)) := by
  obtain ⟨content, inv⟩ := reachable_traffic reached
  refine (reachable_led reached).sent.imp_of_mem fun {first second} listed other leads => ?_
  refine leads.imp_right ?_
  rintro ⟨delays, early, late, appliesEarly, appliesLate, ordered⟩
  have close := dates_close (inv.handedOn first listed).normal.1
    (inv.handedOn second other).normal.1 ordered
  have capped := appliesLate.capped
  refine ⟨delays, by omega, fun below within => ?_⟩
  have low := (applied_range appliesEarly below within).1
  have high := (applied_range appliesLate below within).2
  omega

/-- The second of two datagrams overtakes the first. -/
theorem overtaking_bounded_swing : ∃ traffic : Traffic,
    traffic.forwarded.map (fun entry => entry.origin.number) = [1, 0] ∧
    traffic.forwarded.Pairwise fun first second =>
      first.origin.number < second.origin.number ∨
        first.origin.clock.micros < second.origin.clock.micros + 2000 * 1001 + 1000000 := by
  obtain ⟨traffic, reached, overtakes⟩ := swingLink_overtakes
  refine ⟨traffic, overtakes, (overtaking_bounded swingLink traffic reached).imp ?_⟩
  rintro first second (inOrder | ⟨_, _, close⟩)
  · exact .inl inOrder
  · exact .inr (close (by decide) (by decide))

end SelectiveRepeat
