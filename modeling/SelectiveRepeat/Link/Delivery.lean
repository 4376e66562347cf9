import SelectiveRepeat.Link.Completion

/-!
# What is written is what was read

Safety of both loops over the link: nothing is skipped, repeated, swapped or altered,
however often the sequence numbers wrap; the sender exits only when everything is
written; and the positions it computes from answers stay inside its window.
-/

namespace SelectiveRepeat

open Transition

/-- One byte, then the end of the input. -/
def letterInput : Input where
  chunk index := if index = 0 then [0x41] else []
  bounded index := by split <;> simp

/-- The input of one letter ends after one chunk. -/
theorem letterInput_finite : FiniteInput letterInput 1 := by
  refine ⟨?_, rfl⟩
  intro index early
  obtain rfl : index = 0 := by omega
  simp [letterInput]

/-- A run over this input to its end. -/
theorem letterInput_completes : ∃ link, (linkSystem zlibHost letterInput).Reachable link ∧
    Complete letterInput 1 link := by
  have start : (linkSystem zlibHost letterInput).initial (linkStart (fun _ => 0) (fun _ => 0) 0) :=
    ⟨_, _, _, rfl⟩
  obtain ⟨last, leads, complete⟩ := recoverable_completes
    (linkStart_inv zlibHost letterInput (fun _ => 0) (fun _ => 0) 0) rfl letterInput_finite
    (start_recoverable _ _ _)
  exact ⟨last, System.reachable_leads (System.reachable_initial start) leads, complete⟩

/-- Over every input there is a run in which the first packet is on its way, and nothing
else has happened. -/
theorem first_sent (host : Host) (input : Input) : ∃ (link : Link) (position : Nat)
    (datagram : List Byte), (linkSystem host input).Reachable link ∧ link.sender.exited = false ∧
      link.pending = [] ∧ link.sender.built.length = 1 ∧ link.written = [] ∧ link.backward = [] ∧
      link.forward[position]? = some (0, datagram) := by
  obtain ⟨one, reads, kept, running, longer, nothing, quiet⟩ :=
    readMore (linkStart_inv host input (fun _ => 0) (fun _ => 0) 0) rfl rfl
      (by simp [linkStart, sendRunStart, sendStart])
  obtain ⟨two, resends, kept, unmoved, idle, _, resent⟩ := resend kept running
  have written : two.written = [] := by
    rw [← deliveries_idle idle, unmoved.deliveries, nothing]
    rfl
  have built : two.sender.built.length = 1 := by
    rw [unmoved.built, longer]
    rfl
  have base : two.sender.base = 0 := Nat.le_zero.mp (by simpa [written] using kept.heard)
  obtain ⟨datagram, listed⟩ := resent 0 (Nat.le_of_eq base) (by omega)
  obtain ⟨position, found⟩ := List.mem_iff_getElem?.mp listed
  refine ⟨two, position, datagram, ?_, unmoved.exited.trans running, idle, built, written, ?_,
    found⟩
  · exact System.reachable_leads (System.reachable_initial ⟨_, _, _, rfl⟩)
      (System.leads_trans reads resends)
  · rw [← inFlight_idle idle, unmoved.inFlight, quiet]
    rfl

/-- Over every input there is a run in which the first packet is delivered, and its
acknowledgement is on its way. -/
theorem first_delivery (host : Host) (input : Input) : ∃ link,
    (linkSystem host input).Reachable link ∧ link.sender.exited = false ∧ link.pending = [] ∧
      link.sender.built.length = 1 ∧ (deliveries link).length = 1 ∧ Confirmed link := by
  obtain ⟨one, _, _, reached, running, idle, built, written, _⟩ := first_sent host input
  have missing : (deliveries one).length = 0 := by
    rw [deliveries_idle idle, written]
    rfl
  obtain ⟨two, delivers, kept, running, same, _, all, confirmed⟩ :=
    catchUp (reachable_linkInv reached) running (by rw [missing, built]; exact Nat.zero_lt_one)
  obtain ⟨three, plays, _, unmoved, idle, _⟩ := playOut kept
  refine ⟨three, ?_, unmoved.exited.trans running, idle, ?_, ?_, ?_⟩
  · exact System.reachable_leads reached (System.leads_trans delivers plays)
  · rw [unmoved.built, same, built]
  · rw [unmoved.deliveries, all, same, built]
  · simpa only [Confirmed, unmoved.inFlight, unmoved.deliveries] using confirmed

/-- In every reachable state the receiver has written a beginning of what the sender
has read.

What is written and what is about to be written together are the first chunks of the
input, as many as the abstract receiver has delivered, and no more than the sender has
read. Both come from the invariant of the two loops. -/
theorem written_prefix_of_read (host : Host) (input : Input) (link : Link)
    (reached : (linkSystem host input).Reachable link) : link.written <+: link.sender.chunks := by
  have inv := reachable_linkInv reached
  exact inv.written_prefix

/-- At the end of a run over one byte. -/
theorem written_prefix_of_letter : ∃ link : Link, link.sender.exited = true ∧
    link.written <+: link.sender.chunks := by
  obtain ⟨link, reached, exited, _⟩ := letterInput_completes
  exact ⟨link, exited, written_prefix_of_read zlibHost letterInput link reached⟩

/-- When the sender has exited successfully, every chunk it read is written, in order
and once, and the last one is the empty one of the end of the input.

The sender exits only when its window is empty and the input has ended. An empty window
means that everything built was acknowledged, and in the joint invariant nothing is
acknowledged before it is written. -/
theorem exit_after_delivery (host : Host) (input : Input) (link : Link)
    (reached : (linkSystem host input).Reachable link) (exited : link.sender.exited = true) :
    link.written = link.sender.chunks ∧ ∃ front,
      link.sender.chunks = front ++ [[]] ∧ [] ∉ front := by
  have inv := reachable_linkInv reached
  exact inv.exit_written exited

/-- A run over one byte does exit, after both of its packets. -/
theorem exit_after_letter : ∃ link : Link, link.written = [[0x41], []] ∧
    link.written = link.sender.chunks := by
  obtain ⟨link, reached, exited, written⟩ := letterInput_completes
  exact ⟨link, written, (exit_after_delivery zlibHost letterInput link reached exited).1⟩

/-! ## Positions -/

/-- The position the sender computes from the number of an answer. -/
def answerPosition (run : SendRun) (answer : Answer) (number : Nat) : Int :=
  getAckPosition ((run.state.seqnum.toNat : Int) - 1)
    (if answer.positive then (number : Int) - 1 else number) (run.state.currentIndexWindow - 1)

/-- The position of an acknowledgement is in the window or just in front of it; that of
a negative one is in the window, and the slot there holds the packet that was cut. -/
structure InRange (host : Host) (run : SendRun) (answer : Answer) : Prop where
  ack : answer.positive = true → ∃ number window,
    Announces host answer.datagram ptypeAck number window ∧
    -1 ≤ answerPosition run answer number ∧
    answerPosition run answer number ≤ run.state.currentIndexWindow - 1
  nack : answer.positive = false → ∃ number window,
    Announces host answer.datagram ptypeNack number window ∧
    0 ≤ answerPosition run answer number ∧
    answerPosition run answer number ≤ run.state.currentIndexWindow - 1 ∧
    ∃ pkt, run.built[answer.about]? = some pkt ∧
      (windowPackets run.state)[(answerPosition run answer number).toNat]? = some (some pkt)

/-- A trusted answer is in range of a window that ends at most 31 packets further on. -/
theorem trusted_inRange {host : Host} {run : SendRun} (inv : SendInv host run) {delivered : Nat}
    (bounded : delivered ≤ run.built.length) {answer : Answer}
    (trusted : Trusted host run.base run.built.length delivered answer) :
    InRange host run answer := by
  obtain ⟨index, near⟩ := inv.index
  have seqnum := inv.number
  have base := trusted.base
  constructor
  · intro positive
    obtain ⟨least, window, _, announces⟩ := trusted.ack positive
    have position := ack_position run.state.seqnum.toNat (answer.about % 256)
      (run.state.currentIndexWindow - 1) run.state.seqnum.isLt (Nat.mod_lt _ (by decide))
    refine ⟨_, window, announces, ?_⟩
    simp only [answerPosition, positive, if_true]
    rw [position, seqnum]
    omega
  · intro negative
    obtain ⟨inside, window, _, announces⟩ := trusted.nack negative
    have position := nack_position run.state.seqnum.toNat (answer.about % 256)
      (run.state.currentIndexWindow - 1) run.state.seqnum.isLt (Nat.mod_lt _ (by decide))
    have located : answerPosition run answer (answer.about % 256) =
        ((answer.about - run.base : Nat) : Int) := by
      simp only [answerPosition, negative, Bool.false_eq_true, if_false]
      rw [position, seqnum]
      omega
    refine ⟨_, window, announces, by omega, by omega, _, List.getElem?_eq_getElem inside, ?_⟩
    rw [located, Int.toNat_natCast, inv.windowPackets, List.getElem?_map, List.getElem?_drop,
      Nat.add_sub_cancel' base, List.getElem?_eq_getElem inside]
    rfl

/-- What is acknowledged was sent; and the answers the sender reads are in range of its
window at that moment, which may have grown by a packet since `select`, so that no part
of a pass faults. -/
def PositionsInRange (host : Host) (input : Input) (link : Link) : Prop :=
  (∀ answer ∈ link.backward, answer.positive = true →
    ∀ index < answer.about, ∃ datagram, (index, datagram) ∈ link.sender.log) ∧
  (link.sender.exited = false → ∀ ambient reads,
    (reads = true → CanRead link.sender.state) →
    ∃ sender, inputPart host input ambient reads link.sender = .ok sender ∧
      ∀ answer rest, link.backward = answer :: rest → InRange host sender answer ∧
        ∃ last, socketPart host ambient (some answer) sender = .ok last)

/-- In every run over the noisy link in which no datagram is both cut and damaged so that
it misleads the receiver, all positions are in range.

The invariant of both loops holds all along such a run. It says of every answer in flight
that it is about an index of the window, with the number of that index. -/
theorem positions_in_range (host : Host) (input : Input) (link : Link)
    (reached : (carefulSystem host input).Reachable link) : PositionsInRange host input link := by
  have inv := careful_linkInv reached
  constructor
  · intro answer listed positive index early
    have trusted := inv.trusted answer (List.mem_append_left _ listed)
    have bounded := (trusted.ack positive).1
    have delivered := inv.delivered.2
    exact ⟨_, inv.sender.transmitted index _ (List.getElem?_eq_getElem (by omega))⟩
  · intro running ambient reads canRead
    obtain ⟨sender, inputs, kept, _, _, exited, _⟩ := inputPart_keeps inv ambient reads canRead
    refine ⟨sender, inputs, ?_⟩
    intro answer rest first
    obtain ⟨last, serves, _⟩ := socketPart_keeps kept (exited.trans running) ambient first
    have trusted := kept.trusted answer
      (List.mem_append_left _ (by rw [first]; exact List.mem_cons_self ..))
    exact ⟨trusted_inRange kept.sender kept.delivered.2 trusted, last, serves⟩

/-- The acknowledgement of the first of two packets. -/
theorem first_position_in_range : ∃ (link : Link) (answer : Answer) (rest : List Answer),
    link.backward = answer :: rest ∧ InRange zlibHost link.sender answer := by
  obtain ⟨link, reached, running, idle, _, _, answer, listed, _⟩ :=
    first_delivery zlibHost letterInput
  rw [inFlight_idle idle] at listed
  obtain ⟨first, rest, backward⟩ := List.exists_cons_of_ne_nil (List.ne_nil_of_mem listed)
  obtain ⟨sender, inputs, answers⟩ :=
    (positions_in_range zlibHost letterInput link (linkSystem_careful reached)).2 running
    quietAmbient false (by simp)
  obtain rfl := Except.ok.inj inputs
  exact ⟨link, first, rest, backward, (answers first rest backward).1⟩

/-! ## A datagram both cut and damaged -/

/-- What is pending can be performed on the noisy link. -/
theorem noisy_playOut (host : Host) (input : Input) (link : Link) :
    ∃ next, (noisySystem host input).Runs link next ∧ next.sender = link.sender ∧
      inFlight next = inFlight link ∧ next.pending = [] := by
  induction pending : link.pending generalizing link with
  | nil => exact ⟨link, System.leads_refl _ link, rfl, rfl, pending⟩
  | cons event rest inductionHypothesis =>
    have step : ChannelStep host input (Fate.Noticed host) link .play
        (playEvent { link with pending := rest } event) := .play link event rest pending
    have shorter : (playEvent { link with pending := rest } event).pending = rest ∧
        (playEvent { link with pending := rest } event).sender = link.sender := by
      cases event <;> exact ⟨rfl, rfl⟩
    obtain ⟨next, runs, sender, flight, done⟩ := inductionHypothesis _ shorter.1
    exact ⟨next, System.leads_trans (System.leads_single _ trivial step) runs,
      sender.trans shorter.2, flight.trans (play_inFlight link event rest pending).1, done⟩

/-- Four bytes whose number lies in the window are answered with that number, whatever
packet they were cut from. -/
theorem refused_arrival {host : Host} {input : Input} {link : Link} (inv : LinkInv host input link)
    (idle : link.pending = []) (silent : link.backward = []) {position index : Nat}
    {datagram : List Byte} (found : link.forward[position]? = some (index, datagram))
    (recent : link.written.length ≤ index + 225) {bytes : List Byte} {number : Nat}
    (shown : cutNumber (some bytes) = some number)
    (near : CyclicNumbers.distance 256 link.written.length number < 31) :
    ∃ next window, (noisySystem host input).Runs link next ∧ next.sender = link.sender ∧
      window ≤ 31 ∧ next.backward = [⟨index, false, nackDatagram host number window⟩] := by
  have short : bytes.length < 8 := by
    by_contra long
    rw [cutNumber_other bytes (by omega)] at shown
    cases shown
  have rejected := accepted_short host bytes short
  obtain ⟨before, represents, _, _, delivered⟩ := inv.represented idle
  obtain ⟨receiver, events, handles, passed, sent⟩ := selRepeatReadBody_passes host
    Allocator.values quietAmbient (some bytes) represents
  rw [rejected] at passed
  -- nothing is written, and the one answer is the refusal
  have unwritten : payloads events = [] := List.append_right_eq_self.mp passed.output.symm
  have refusal : refused before (some bytes) = some number := by
    rw [refused, shown, Option.filter_some, delivered]
    simp [near]
  rw [refusal] at sent
  have arrives : ChannelStep host input (Fate.Noticed host) link
      (.arrive quietAmbient position (.corrupt bytes)) _ :=
    .arrive link quietAmbient position (.corrupt bytes) index datagram receiver events idle found
      recent rejected handles
  obtain ⟨next, plays, sender, flight, done⟩ := noisy_playOut host input { link with
    receiver := receiver
    pending := events
    arrived := index
    forward := link.forward.eraseIdx position }
  refine ⟨next, 31 - before.count, System.leads_trans (System.leads_single _ trivial arrives) plays,
    sender, Nat.sub_le .., ?_⟩
  rw [← inFlight_idle done, flight, inFlight, answersOf_nacks _ _ _ (passed.quiet unwritten), sent,
    silent]
  rfl

/-- The datagram of the first packet, cut and damaged: the receiver asks for number 5,
and the sender computes a position far in front of its window. -/
theorem damaged_cut_out_of_range : ∃ (link : Link) (answer : Answer) (window : Nat),
    (noisySystem zlibHost letterInput).Reachable link ∧ link.sender.exited = false ∧
      link.backward = [answer] ∧ answer.positive = false ∧
      Announces zlibHost answer.datagram ptypeNack 5 window ∧
      answerPosition link.sender answer 5 = -251 ∧
      ¬ PositionsInRange zlibHost letterInput link := by
  obtain ⟨front, position, datagram, reached, running, idle, built, empty, silent, found⟩ :=
    first_sent zlibHost letterInput
  have kept := reachable_linkInv reached
  have base : front.sender.base = 0 := Nat.le_zero.mp (by simpa [empty] using kept.heard)
  obtain ⟨link, window, runs, sender, bounded, backward⟩ :=
    @refused_arrival _ _ _ kept idle silent position 0 datagram found (by simp [empty])
      [0x20, 0x05, 0x00, 0x01] 5 rfl (by rw [empty]; decide)
  have announces : Announces zlibHost (nackDatagram zlibHost 5 window) ptypeNack 5 window :=
    announces_nack zlibHost 5 window bounded
  have located : answerPosition link.sender ⟨0, false, nackDatagram zlibHost 5 window⟩ 5 = -251 := by
    have index := kept.sender.index.1
    rw [built, base] at index
    rw [answerPosition, sender, kept.sender.number, built, index]
    simp only [Bool.false_eq_true, if_false]
    decide
  refine ⟨link, _, window, System.reachable_leads (carefulSystem_noisy (linkSystem_careful reached))
    runs, ?_, backward, rfl, announces, located, ?_⟩
  · rw [sender]
    exact running
  · rintro ⟨_, inRange⟩
    obtain ⟨same, inputs, answers⟩ := inRange (by rw [sender]; exact running) quietAmbient false
      (by simp)
    obtain rfl := Except.ok.inj inputs
    obtain ⟨number, other, again, inside, _⟩ := (answers _ _ backward).1.nack rfl
    obtain rfl := announces_number zlibHost announces again
    rw [located] at inside
    exact absurd inside (by decide)

end SelectiveRepeat
