import SelectiveRepeat.Link.Delivery

/-!
# Flow control

The receiver never announces a closed window, so that the sender's provision for one is
never needed, and what it sends always fits: an intact packet that arrives is delivered
or put into the buffer, and stays there until it is delivered.
-/

namespace SelectiveRepeat

open PackedSlots Reassembly Transition

variable {host : Host} {input : Input} {link next : Link}

/-! ## The window -/

/-- Every answer on its way announces a window that is open. -/
theorem LinkInv.window_open (inv : LinkInv host input link) {answer : Answer}
    (listed : answer ∈ link.backward) : 1 ≤ answer.window host ∧ answer.window host ≤ 31 := by
  have trusted := inv.trusted answer (List.mem_append_left _ listed)
  cases kind : answer.positive with
  | true =>
    obtain ⟨_, window, room, announces⟩ := trusted.ack kind
    rw [Answer.window_announced announces]
    exact ⟨room, announced_window host announces⟩
  | false =>
    obtain ⟨_, window, room, announces⟩ := trusted.nack kind
    rw [Answer.window_announced announces]
    exact ⟨room, announced_window host announces⟩

/-- In every reachable state the window the sender knows of is open, and so is the one of
every answer on its way. The input is looked at exactly if it has not ended and fewer
packets are unacknowledged than the window has room for, and always if none is. Every
datagram on its way to the receiver is of a packet that its buffer has a place for, or
of an older one.

All of it is arithmetic on the joint invariant: the receiver always announces a slot or
more, and what it has written is between the sender's base and 31 packets behind it. -/
theorem flow_control (host : Host) (input : Input) (link : Link)
    (reached : (linkSystem host input).Reachable link) :
    (1 ≤ link.sender.state.limitedWindowSize ∧ link.sender.state.limitedWindowSize ≤ 31) ∧
      (∀ answer ∈ link.backward, 1 ≤ answer.window host ∧ answer.window host ≤ 31) ∧
      (CanRead link.sender.state ↔
        link.sender.state.currentIndexWindow < link.sender.state.limitedWindowSize ∧
          link.sender.state.finish = 0) ∧
      (link.sender.base = link.sender.built.length → link.sender.state.finish = 0 →
        CanRead link.sender.state) ∧
      ∀ entry ∈ link.forward, entry.1 < link.written.length + 31 := by
  have inv := reachable_linkInv reached
  have limited := inv.limited
  have index := inv.sender.index
  have opens : CanRead link.sender.state ↔
      link.sender.state.currentIndexWindow < link.sender.state.limitedWindowSize ∧
        link.sender.state.finish = 0 := by
    rw [CanRead]
    omega
  refine ⟨⟨limited, inv.sender.limited.2⟩, fun answer => inv.window_open, opens, ?_, ?_⟩
  · intro idle running
    exact opens.mpr ⟨by omega, running⟩
  · intro entry listed
    have inside := (inv.known (inv.forward entry listed)).1
    have heard := inv.heard
    omega

/-- Where the acknowledgement of the first packet is on its way. -/
theorem flow_control_letter : ∃ (link : Link) (answer : Answer), answer ∈ link.backward ∧
    1 ≤ answer.window zlibHost ∧ 1 ≤ link.sender.state.limitedWindowSize := by
  obtain ⟨link, reached, _, idle, _, _, answer, listed, _⟩ := first_delivery zlibHost letterInput
  rw [inFlight_idle idle] at listed
  obtain ⟨limited, opens, _⟩ := flow_control zlibHost letterInput link reached
  exact ⟨link, answer, listed, (opens answer listed).1, limited.1⟩

/-! ## Packets that arrived -/

/-- The payload of this index is written, or is about to be, or its packet is in the
buffer. -/
def Kept (input : Input) (link : Link) (index : Nat) : Prop :=
  (deliveries link)[index]? = some (input.chunk index) ∨
    ∃ i pkt, slot link.receiver.receiveBuffer i = some pkt ∧ pktGetSeqnum pkt = index % 256 ∧
      pkt.body = input.chunk index

/-- The packet is kept if the abstract receiver got it. -/
theorem kept_of_got {reassembler : Reassembly31} {built : Nat}
    (represents : Represents id reassembler link.receiver)
    (receiving : Receiving input built reassembler) (output : reassembler.output = deliveries link)
    {index : Nat} (got : reassembler.Got index) : Kept input link index := by
  rcases got with delivered | present
  · left
    rw [← output, receiving.follows.output, List.getElem?_map, List.getElem?_range delivered]
    rfl
  · obtain ⟨payload, held⟩ := Option.ne_none_iff_exists'.mp present
    have entry := mem_entries.mpr ⟨reassembler.inWindow index present, held⟩
    obtain ⟨items, packing, labels⟩ := represents.buffer
    have shows := List.mem_map_of_mem (f := shown) entry
    rw [← labels] at shows
    obtain ⟨pkt, listed, same⟩ := List.mem_map.mp shows
    obtain ⟨i, found⟩ := List.mem_iff_getElem?.mp listed
    obtain ⟨number, body⟩ := Prod.mk.inj same
    refine .inr ⟨i, pkt, by rw [packing, slot_packed, found], number, ?_⟩
    rw [← receiving.follows.held index payload held]
    exact body

/-- And the abstract receiver got it if it is kept, as long as it is not beyond the
window. -/
theorem got_of_kept {reassembler : Reassembly31} {built : Nat}
    (represents : Represents id reassembler link.receiver)
    (receiving : Receiving input built reassembler) (output : reassembler.output = deliveries link)
    {index : Nat} (near : index < reassembler.delivered + 31) (kept : Kept input link index) :
    reassembler.Got index := by
  by_cases delivered : index < reassembler.delivered
  · exact .inl delivered
  · rcases kept with written | ⟨i, pkt, found, number, _⟩
    · rw [← output, receiving.follows.output] at written
      have inside := (List.getElem?_eq_some_iff.mp written).1
      rw [List.length_map, List.length_range] at inside
      exact .inl inside
    · obtain ⟨items, packing, labels⟩ := represents.buffer
      rw [packing, slot_packed] at found
      obtain ⟨other, payload, entry, same⟩ :=
        entry_of_label labels (List.mem_of_getElem? found)
      obtain ⟨inWindow, held⟩ := mem_entries.mp entry
      -- within the window the number tells the index
      obtain rfl : index = other := by
        rw [id, number] at same
        omega
      right
      rw [held]
      exact Option.some_ne_none payload

/-- A pass of the receiver loses nothing that was delivered or held before it. -/
theorem reassemble_got (before : Reassembly31) (accepted : Option (Nat × List Byte)) {index : Nat}
    (got : before.Got index) : (reassemble before accepted).Got index := by
  cases accepted with
  | none => exact got
  | some packet => exact Reassembler.offer_got before _ packet.2 got

/-- A pass of the receiver keeps the packets it had, and the one that arrived intact. -/
theorem arrive_kept (inv : LinkInv host input link) {ambient : Ambient} {position : Nat}
    {fate : Fate} (step : LinkStep host input link (.arrive ambient position fate) next)
    {index : Nat} (sent : index < link.sender.built.length)
    (kept : Kept input link index ∨ (fate = .intact ∧
      (link.forward[position]?).map Prod.fst = some index)) : Kept input next index := by
  cases step with
  | arrive _ _ _ arrived datagram receiver events idle found recent possible handles =>
    obtain ⟨inside, crc, built⟩ := inv.known (inv.forward _ (List.mem_of_getElem? found))
    obtain ⟨before, represents, receiving, output, delivered⟩ := inv.represented idle
    have near {other : Nat} (sent : other < link.sender.built.length) :
        other < before.delivered + 31 := by
      have window := inv.sender.index.2
      have heard := inv.heard
      omega
    obtain ⟨same, done, passes, passed, _⟩ := selRepeatReadBody_passes host Allocator.values ambient
      (some (fate.arriving datagram)) represents
    obtain ⟨rfl, rfl⟩ : same = receiver ∧ done = events :=
      Prod.mk.inj (Except.ok.inj (passes.symm.trans handles))
    have taken := (receiving.handed inside (near inside) (by omega) built fate possible.noticed
      represents (possible.honest _ _)).1
    refine kept_of_got passed.represents taken (by rw [passed.output, output]; rfl) ?_
    rcases kept with earlier | ⟨rfl, position⟩
    · rw [← deliveries_idle idle] at output
      exact reassemble_got before _ (got_of_kept represents receiving output (near sent) earlier)
    · rw [found] at position
      obtain rfl : arrived = index := Option.some.inj position
      rw [built, Fate.arriving, accepted_chunk host arrived _ crc (input.bounded arrived),
        reassemble_index before arrived _ (near sent) (by omega)]
      exact Reassembler.offer_takes before arrived _ (near sent)

/-- No step loses a packet that the receiver has. -/
theorem kept_step (inv : LinkInv host input link) {label : LinkLabel}
    (step : LinkStep host input link label next) {index : Nat}
    (sent : index < link.sender.built.length) (kept : Kept input link index) :
    Kept input next index := by
  cases step with
  | arrive ambient position fate arrived datagram receiver events idle found recent possible
      handles =>
    exact arrive_kept inv (.arrive link ambient position fate arrived datagram receiver events idle
      found recent possible handles) sent (.inl kept)
  | play event rest pending =>
    have delivered := (play_inFlight link event rest pending).2
    have receiver : (playEvent { link with pending := rest } event).receiver = link.receiver := by
      cases event <;> rfl
    rw [Kept, delivered, receiver]
    exact kept
  | _ => exact kept

/-- No part of a pass of the sender forgets what was built. -/
theorem sendStep_built {run after : SendRun} {label : SendLabel}
    (steps : sendStep host run label = .ok after) : run.built.length ≤ after.built.length := by
  cases label with
  | scan ambient =>
    obtain ⟨_, _, same⟩ := run_bind steps
    cases same
    exact Nat.le_refl _
  | read ambient chunk =>
    obtain ⟨_, _, same⟩ := run_bind steps
    cases same
    simp only [List.length_append]
    omega
  | ack ambient index datagram =>
    obtain ⟨_, _, rfl⟩ := ack_served steps
    exact Nat.le_refl _
  | nack ambient index datagram =>
    obtain ⟨_, _, rfl⟩ := nack_served steps
    exact Nat.le_refl _

/-- No step of the link takes back a packet that the sender has built. -/
theorem linkStep_built {label : LinkLabel} (step : LinkStep host input link label next) :
    link.sender.built.length ≤ next.sender.built.length := by
  cases step with
  | scan ambient sender running ready scans => exact sendStep_built scans
  | select ambient reads answered sender last running ready canRead inputs serves =>
    have read : link.sender.built.length ≤ sender.built.length := by
      cases reads with
      | false => rw [Except.ok.inj inputs]
      | true =>
        rw [inputPart, if_pos rfl] at inputs
        exact sendStep_built inputs
    refine Nat.le_trans read ?_
    cases heard : (if answered then link.backward.head? else none) with
    | none =>
      rw [heard] at serves
      rw [Except.ok.inj serves]
    | some answer =>
      rw [heard] at serves
      exact sendStep_built serves
  | play event rest pending => cases event <;> exact Nat.le_refl _
  | _ => exact Nat.le_refl _

/-- Once an intact packet has arrived, it is never lost: in every later state its payload
is written or about to be, or it is in the buffer with its number and payload.

The pass that reads the packet delivers or holds it, and every later step of the link
keeps what is held or delivered. -/
theorem arrived_kept (host : Host) (input : Input) (link next later : Link)
    (reached : (linkSystem host input).Reachable link) (ambient : Ambient) (position index : Nat)
    (datagram : List Byte) (found : link.forward[position]? = some (index, datagram))
    (arrives : LinkStep host input link (.arrive ambient position .intact) next)
    (runs : (linkSystem host input).Runs next later) : Kept input later index := by
  have inv := reachable_linkInv reached
  have inside := (inv.known (inv.forward _ (List.mem_of_getElem? found))).1
  have first := arrive_kept inv arrives inside (.inr ⟨rfl, by rw [found]; rfl⟩)
  have start : index < next.sender.built.length ∧ Kept input next index :=
    ⟨Nat.lt_of_lt_of_le inside (linkStep_built arrives), first⟩
  have held := @System.reachable_leads_invariant _ _ _ _
    (fun one => index < one.sender.built.length ∧ Kept input one index) _ _ ?_ runs
    (System.reachable_step reached arrives) start
  · exact held.2.2
  · rintro one label other _ reachedOne ⟨sent, kept⟩ step
    exact ⟨Nat.lt_of_lt_of_le sent (linkStep_built step),
      kept_step (reachable_linkInv reachedOne) step sent kept⟩

/-- The first packet, after its arrival and the pass that writes it. -/
theorem arrived_kept_letter : ∃ (later : Link) (index : Nat), later.pending = [] ∧
    later.written ≠ [] ∧ Kept letterInput later index := by
  obtain ⟨link, position, datagram, reached, running, idle, built, written, _, found⟩ :=
    first_sent zlibHost letterInput
  have kept := reachable_linkInv reached
  have recent : link.written.length ≤ 0 + 225 := by simp [written]
  obtain ⟨receiver, events, handles, arrived, _, writes, _⟩ := arrive_keeps kept idle
    (kept.forward _ (List.mem_of_getElem? found)) recent .intact trivial id quietAmbient
  have arrives : LinkStep zlibHost letterInput link (.arrive quietAmbient position .intact) _ :=
    .arrive link quietAmbient position .intact 0 datagram receiver events idle found recent trivial
      handles
  obtain ⟨later, plays, _, unmoved, done, _⟩ := playOut (linkStep_keeps kept arrives)
  refine ⟨later, 0, done, ?_, arrived_kept zlibHost letterInput link _ later reached quietAmbient
    position 0 datagram found arrives (System.leads_weaken (fun _ _ => trivial) plays)⟩
  rw [← deliveries_idle done, unmoved.deliveries]
  simp [deliveries, written, writes]

end SelectiveRepeat
