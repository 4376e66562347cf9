import SelectiveRepeat.LinkSim.Guarantees

/-!
# When delayed packets leave

A delayed packet leaves in the pass that finds its date past, behind every packet with a
smaller date. Dates are compared by their fields, and the microseconds of a date never
carry, so that a packet may leave almost a second before its delay is over, but no
earlier. The timeout of `select` leads to the least date, except that a date in the next
second with fewer microseconds than the clock is taken for a past one.
-/

namespace SelectiveRepeat

open PriorityBag Transition

variable {settings : Settings}

/-- A packet stays in the link for the delay chosen for it, up to 998999 microseconds
short of that, and not short at all if it is a number of whole seconds. With options in
their range the chosen delay is less than the jitter away from the set one.

A packet is handed on when its date is smaller than the clock as a pair. The date does not
carry its microseconds into the seconds, so that it counts as past up to 998999
microseconds too early. -/
theorem forwarded_not_before (settings : Settings) (delays : settings.delay ≠ 0)
    (traffic : Traffic) (reached : (trafficSystem settings).Reachable traffic) :
    ∀ entry ∈ traffic.forwarded, ∃ applied, Applied settings applied ∧ applied < 10000 ∧
      entry.origin.clock.micros + applied * 1000 ≤ entry.clock.micros + 998999 ∧
      (applied % 1000 = 0 → entry.origin.clock.micros + applied * 1000 < entry.clock.micros) ∧
      (settings.jitter.toNat ≤ settings.delay.toNat →
        settings.delay.toNat + settings.jitter.toNat ≤ 10000 →
        settings.delay.toNat < applied + settings.jitter.toNat ∧
          applied < settings.delay.toNat + settings.jitter.toNat) := by
  obtain ⟨content, inv⟩ := reachable_traffic reached
  intro entry listed
  have handedOn := inv.handedOn entry listed
  obtain ⟨originNormal, normal⟩ := handedOn.normal
  obtain ⟨applied, applies, past⟩ := handedOn.dated delays
  obtain ⟨close, whole⟩ := expired_lacks originNormal normal past
  exact ⟨applied, applies, applies.capped, close, whole, applied_range applies⟩

/-- A run in which a packet was handed on after its delay. -/
theorem forwarded_not_before_slow : ∃ traffic : Traffic, traffic.forwarded ≠ [] ∧
    ∀ entry ∈ traffic.forwarded, ∃ applied, 1 < applied ∧
      entry.origin.clock.micros + applied * 1000 ≤ entry.clock.micros + 998999 := by
  obtain ⟨_, traffic, reached, _, _, step, through⟩ := slowLink_through
  refine ⟨traffic, through, fun entry listed => ?_⟩
  obtain ⟨applied, _, _, close, _, range⟩ := forwarded_not_before slowLink (by decide) traffic
    (System.reachable_step reached step) entry listed
  have above : 2 < applied + 1 := (range (by decide) (by decide)).1
  exact ⟨applied, by omega, close⟩

/-- What the first part of a pass sends, and what stays: packets leave in the order of
their dates, each with its date past, and none that could be sent is kept.

The loop takes the least date out of the heap as long as it is past, so that what is taken
is sorted, and in front of what stays. -/
theorem wake_sends_past_dates (settings : Settings) (traffic next : Traffic)
    (reached : (trafficSystem settings).Reachable traffic) (conditions : Conditions Unit)
    (reading : Timespec) (read : conditions.clock = some reading)
    (step : TrafficStep settings traffic (.wake conditions) next) :
    ∃ slots : List (PktSlot Admitted),
      next.forwarded =
        traffic.forwarded ++ slots.map (fun p => ⟨p.tag, updateTime reading, p.buf⟩) ∧
      (queued traffic.sim.pktQueue).Perm (slots ++ queued next.sim.pktQueue) ∧
      slots.Pairwise (fun early late => slotKey early ≤ slotKey late) ∧
      (∀ early ∈ slots, Expired (updateTime reading) early ∧
        ∀ left ∈ queued next.sim.pktQueue, slotKey early ≤ slotKey left) ∧
      ((∀ index, conditions.delayedSends index = .sent) →
        slots.Perm ((queued traffic.sim.pktQueue).filter
          fun p => Expired (updateTime reading) p)) := by
  obtain ⟨content, inv⟩ := reachable_traffic reached
  cases step with
  | wake _ result running asleep wakes =>
    rcases wakePart_exact (traffic.tagged conditions) inv.holds with ⟨unread, _⟩ |
      ⟨now, status, queue, slots, rest, found, runs, holdsNext, done⟩
    · simp [Traffic.tagged, read] at unread
    · obtain rfl : reading = now := by simpa [Traffic.tagged, read] using found
      obtain rfl := Except.ok.inj (runs.symm.trans wakes)
      have before := queued_content inv.holds
      have after : ↑(queued queue) = rest := queued_content holdsNext
      refine ⟨slots, ?_, ?_, done.takes.sorted, ?_, ?_⟩
      · simp only [Traffic.after, (outcomes_delivered (updateTime reading) slots).2.2]
      · rw [← Multiset.coe_eq_coe, before, done.takes.split, ← after, Multiset.coe_add]
        rfl
      · intro early listed
        refine ⟨done.expired early listed, fun left stays => ?_⟩
        refine done.takes.le_left early listed left ?_
        rw [← after]
        exact stays
      · intro sends
        have waits : ∀ slot ∈ rest, ¬ Expired (updateTime reading) slot :=
          done.finished.resolve_right fun fails => fails (sends _)
        have parted := (done.takes.parted (Expired (updateTime reading)) done.expired waits).1
        rw [← Multiset.coe_eq_coe, parted, ← before, Multiset.filter_coe]

/-- Two packets wait and are sent in one pass, the second datagram first. -/
theorem wake_sends_past_dates_swing : ∃ (traffic next : Traffic) (slots : List (PktSlot Admitted)),
    slots.map (fun p => p.tag.number) = [1, 0] ∧
      (queued traffic.sim.pktQueue).Perm (slots ++ queued next.sim.pktQueue) ∧
      slots.Pairwise (fun early late => slotKey early ≤ slotKey late) ∧
      ∀ early ∈ slots, Expired (updateTime ⟨4, 0⟩) early := by
  obtain ⟨traffic, first, second, reached, running, asleep, nothing, numbered, numberedNext, holds⟩ :=
    swingLink_waits
  obtain ⟨next, _, _, _, _, wakes⟩ := @calm_hands_on swingLink traffic running asleep
    {swingSlot second 1, swingSlot first 3} 0 (by rw [add_zero]; exact holds) 4
    (by simp [swingSlot_expired]) (by simp)
  obtain ⟨slots, _, parts, sorted, gone, whole⟩ := wake_sends_past_dates swingLink traffic next
    reached (calm 4 none) ⟨4, 0⟩ rfl wakes.step
  have both : slots.Perm [swingSlot second 1, swingSlot first 3] := by
    rw [← Multiset.coe_eq_coe, Multiset.coe_eq_coe.mpr (whole fun _ => rfl), ← Multiset.filter_coe,
      queued_content holds]
    exact Multiset.filter_eq_self.mpr (by simp [swingSlot_expired])
  refine ⟨traffic, next, slots, ?_, parts, sorted, fun early listed => (gone early listed).1⟩
  obtain ⟨one, other, rfl⟩ := List.length_eq_two.mp both.length_eq
  rcases List.mem_pair.mp (both.mem_iff.mp (List.mem_cons_self ..)) with rfl | rfl
  · obtain rfl := List.singleton_inj.mp (List.perm_singleton.mp ((List.perm_cons _).mp both))
    simp [swingSlot, numbered, numberedNext]
  · -- the larger date does not come first
    obtain rfl := List.singleton_inj.mp (List.perm_singleton.mp
      ((List.perm_cons _).mp (both.trans (List.Perm.swap ..))))
    have ordered := List.pairwise_pair.mp sorted
    simp [slotKey, Timeval.key, swingSlot, Prod.Lex.toLex_le_toLex] at ordered

/-! ## Waiting -/

/-- The date is in the next second, with fewer microseconds than the clock: `timeval_diff`
then leaves them negative. -/
def JustAhead (clock date : Timeval) : Prop :=
  date.tvSec = clock.tvSec + 1 ∧ date.tvUsec < clock.tvUsec

instance (clock date : Timeval) : Decidable (JustAhead clock date) :=
  inferInstanceAs (Decidable (_ ∧ _))

/-- A timeout leads to the date, or is a millisecond where the date is not ahead of the
clock, or just ahead. It is never zero or negative. -/
theorem queueTimeout_exact {clock date : Timeval} (normal : clock.Normal)
    (dateLow : 0 ≤ date.tvUsec) :
    0 ≤ (queueTimeout clock date).tvSec ∧ 0 ≤ (queueTimeout clock date).tvUsec ∧
      0 < (queueTimeout clock date).micros ∧
      (queueTimeout clock date).micros =
        if timevalCmp date clock = true ∧ ¬ JustAhead clock date then date.micros - clock.micros
        else 1000 := by
  obtain ⟨low, high⟩ := normal
  by_cases ahead : timevalCmp date clock = true ∧ ¬ JustAhead clock date
  · rw [if_pos ahead]
    obtain ⟨later, notJust⟩ := ahead
    rw [timevalCmp_iff] at later
    rw [JustAhead] at notJust
    simp only [queueTimeout, timevalDiff, Timeval.micros]
    split_ifs <;> simp only at * <;> omega
  · rw [if_neg ahead]
    rw [timevalCmp_iff, JustAhead] at ahead
    simp only [queueTimeout, timevalDiff, Timeval.micros]
    split_ifs <;> simp only at * <;> omega

/-- The next `select` waits without a limit if nothing is delayed, and otherwise for the
least date of the queue.

`minq_peek` shows the least date of the heap. Of the difference the code forms, only the
case where the seconds are one apart is not compensated; the microseconds then stay
negative, and the timeout becomes a millisecond. -/
theorem select_waits_for_least_date (settings : Settings) (traffic : Traffic)
    (reached : (trafficSystem settings).Reachable traffic) :
    (queued traffic.sim.pktQueue = [] ∧ getQueueTimeout traffic.sim = .ok none) ∨
      ∃ front ∈ queued traffic.sim.pktQueue, ∃ timeout,
        (∀ other ∈ queued traffic.sim.pktQueue, slotKey front ≤ slotKey other) ∧
        getQueueTimeout traffic.sim = .ok (some timeout) ∧
        0 ≤ timeout.tvSec ∧ 0 ≤ timeout.tvUsec ∧ 0 < timeout.micros ∧
        timeout.micros =
          if timevalCmp front.ts traffic.sim.lastClock = true ∧
              ¬ JustAhead traffic.sim.lastClock front.ts then
            front.ts.micros - traffic.sim.lastClock.micros
          else 1000 := by
  obtain ⟨content, inv⟩ := reachable_traffic reached
  have within := queued_content inv.holds
  rcases minq_take pktSlotCmp_compares inv.holds with ⟨rfl, peeks, _⟩ |
    ⟨front, rest, next, least, peeks, _⟩
  · refine .inl ⟨Multiset.coe_eq_zero _ |>.mp within, ?_⟩
    simp only [getQueueTimeout, peeks, bind, Except.bind, pure, Except.pure, Option.map_none]
  · have listed : front ∈ content := by rw [least.split]; exact Multiset.mem_cons_self ..
    obtain ⟨applied, _, dated⟩ := (inv.waiting front listed).dated
    have originNormal := (inv.waiting front listed).normal
    have dateLow : 0 ≤ front.ts.tvUsec := by
      rw [dated]
      exact Int.add_nonneg originNormal.1 (Int.natCast_nonneg _)
    refine .inr ⟨front, ?_, queueTimeout traffic.sim.lastClock front.ts, ?_, ?_,
      queueTimeout_exact inv.normal dateLow⟩
    · rw [← Multiset.mem_coe, within]
      exact listed
    · intro other stays
      rw [← Multiset.mem_coe, within] at stays
      exact least.least other stays
    · simp only [getQueueTimeout, peeks, bind, Except.bind, pure, Except.pure, Option.map_some]

/-- Where a packet waits. -/
theorem select_waits_for_least_date_slow : ∃ traffic : Traffic,
    queued traffic.sim.pktQueue ≠ [] ∧ ∃ timeout, getQueueTimeout traffic.sim = .ok (some timeout) ∧
      0 < timeout.micros := by
  obtain ⟨traffic, next, reached, waits, nothing, step, through⟩ := slowLink_through
  rcases select_waits_for_least_date slowLink traffic reached with ⟨empty, _⟩ |
    ⟨front, _, timeout, _, limits, _, _, positive, _⟩
  · exact absurd empty waits
  · exact ⟨traffic, waits, timeout, limits, positive⟩

end SelectiveRepeat
