import SelectiveRepeat.LinkSim.Options

/-!
# What holds of every run of the simulator

Nothing the source sends is duplicated or disappears by itself, and only its direction is
altered. Without a delay the order is kept. With one, packets leave in the order of their
dates, and up to a second before their time, because a date does not carry its
microseconds. A delay without a jitter lets nothing through.
-/

namespace SelectiveRepeat

open PriorityBag Transition

variable {settings : Settings}

/-- Every datagram of the source is lost, waiting, or handed on, and in one of these
places only; without a loss rate none is lost as long as the loop goes on.

Distinct numbers make the admitted datagrams distinct, and the balance of the invariant
divides them among the three places. It is kept by both parts of a pass. -/
theorem each_datagram_once (settings : Settings) (traffic : Traffic)
    (reached : (trafficSystem settings).Reachable traffic) :
    traffic.admitted.Nodup ∧
      traffic.admitted.Perm (traffic.lost ++ (queued traffic.sim.pktQueue).map PktSlot.tag ++
        traffic.forwarded.map Forwarded.origin) ∧
      (settings.lossRate = 0 → traffic.status = .success → traffic.lost = []) := by
  obtain ⟨content, inv⟩ := reachable_traffic reached
  refine ⟨?_, ?_, ?_⟩
  · apply List.Nodup.of_map Admitted.number
    rw [inv.numbered]
    exact List.nodup_range
  · rw [← Multiset.coe_eq_coe, inv.balance, ← queued_content inv.holds, Multiset.map_coe,
      Multiset.coe_add, Multiset.coe_add]
  · intro lossless running
    by_contra someLost
    rcases inv.losses someLost with loses | failed
    · exact loses lossless
    · simp [running] at failed

/-- After a packet was delayed and sent. -/
theorem each_datagram_once_slow : ∃ traffic : Traffic, traffic.forwarded ≠ [] ∧
    traffic.admitted.Nodup ∧
    traffic.admitted.Perm (traffic.lost ++ (queued traffic.sim.pktQueue).map PktSlot.tag ++
      traffic.forwarded.map Forwarded.origin) ∧
    (slowLink.lossRate = 0 → traffic.status = .success → traffic.lost = []) := by
  obtain ⟨_, traffic, reached, _, _, step, through⟩ := slowLink_through
  exact ⟨traffic, through, each_datagram_once slowLink traffic (System.reachable_step reached step)⟩

/-- Only the forward direction is altered: what reaches the proxied host is a datagram of
the source, its first four bytes, or the datagram with its last byte inverted, each only
with its rate set; what the host sends goes back as it is, in order. Both directions are
about datagrams of four bytes or more, of which the program reads the first 520.

The two parts are fields of the invariant, which each outcome of `Processed` keeps. -/
theorem only_forward_altered (settings : Settings) (traffic : Traffic)
    (reached : (trafficSystem settings).Reachable traffic) :
    (∀ entry ∈ traffic.forwarded, entry.origin ∈ traffic.admitted ∧
      Altered settings entry.origin.data entry.data) ∧
      traffic.relayed <+: traffic.heard ∧
      (traffic.status = .success → traffic.relayed = traffic.heard) := by
  obtain ⟨content, inv⟩ := reachable_traffic reached
  exact ⟨fun entry listed => ⟨inv.forwarded_admitted listed, (inv.handedOn entry listed).altered⟩,
    inv.relays⟩

/-- A run in which a packet waited and was handed on. -/
theorem only_forward_altered_slow : ∃ traffic : Traffic, traffic.forwarded ≠ [] ∧
    (∀ entry ∈ traffic.forwarded, entry.origin ∈ traffic.admitted ∧
      Altered slowLink entry.origin.data entry.data) ∧
    traffic.relayed <+: traffic.heard ∧
    (traffic.status = .success → traffic.relayed = traffic.heard) := by
  obtain ⟨_, traffic, reached, _, _, step, through⟩ := slowLink_through
  exact ⟨traffic, through,
    only_forward_altered slowLink traffic (System.reachable_step reached step)⟩

/-- Without a delay nothing waits, and what is handed on keeps its order and time.

What waits has a delay, so nothing does; the other two are fields of the invariant. -/
theorem order_kept_without_delay (settings : Settings) (noDelay : settings.delay = 0)
    (traffic : Traffic) (reached : (trafficSystem settings).Reachable traffic) :
    queued traffic.sim.pktQueue = [] ∧
      (traffic.forwarded.map fun entry => entry.origin.number).Pairwise (· < ·) ∧
      ∀ entry ∈ traffic.forwarded, entry.clock = entry.origin.clock := by
  obtain ⟨content, inv⟩ := reachable_traffic reached
  refine ⟨?_, inv.inOrder noDelay, fun entry listed => (inv.handedOn entry listed).atOnce noDelay⟩
  refine List.eq_nil_iff_forall_not_mem.mpr fun slot listed => ?_
  rw [← Multiset.mem_coe, queued_content inv.holds] at listed
  exact (inv.waiting slot listed).delays noDelay

/-- Two datagrams one after the other. -/
theorem order_kept_on_plainLink : ∃ traffic : Traffic,
    traffic.forwarded.map (fun entry => entry.origin.number) = [0, 1] ∧
    queued traffic.sim.pktQueue = [] ∧
    (traffic.forwarded.map fun entry => entry.origin.number).Pairwise (· < ·) ∧
    ∀ entry ∈ traffic.forwarded, entry.clock = entry.origin.clock := by
  obtain ⟨traffic, reached, both⟩ := plainLink_two
  exact ⟨traffic, both, order_kept_without_delay plainLink rfl traffic reached⟩

/-! ## Delays -/

/-- Where the options keep the arithmetic below ten seconds and above zero, a delay is
less than the jitter away from the one that is set. -/
theorem applied_range {applied : Nat} (applies : Applied settings applied)
    (below : settings.jitter.toNat ≤ settings.delay.toNat)
    (capped : settings.delay.toNat + settings.jitter.toNat ≤ 10000) :
    settings.delay.toNat < applied + settings.jitter.toNat ∧
      applied < settings.delay.toNat + settings.jitter.toNat := by
  obtain ⟨jitters, value, applied⟩ := applies
  have positive : 0 < settings.jitter.toNat := by
    refine Nat.pos_of_ne_zero fun zero => jitters ?_
    exact BitVec.eq_of_toNat_eq (by simpa using zero)
  have part : (value.setWidth 32 % settings.jitter).toNat < settings.jitter.toNat := by
    rw [BitVec.toNat_umod]
    exact Nat.mod_lt _ positive
  have ten : (10000 : BitVec 32).toNat = 10000 := rfl
  generalize value.setWidth 32 % settings.jitter = delta at applied part
  rcases applied with rfl | rfl
  · rw [BitVec.toNat_umod, BitVec.toNat_add, ten]
    omega
  · rw [BitVec.toNat_umod, BitVec.toNat_sub, ten]
    omega

end SelectiveRepeat
