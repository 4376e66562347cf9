import SelectiveRepeat.Packet.Damage
import SelectiveRepeat.Deployment.Network

/-!
# The deployment refines the link

Without the simulator and its hops, a run of the deployment is a run of both loops over
the link. Whatever the simulator holds or has sent on is what the link may make of a
datagram in flight: the datagram, its first four bytes, or bytes that `pkt_decode`
rejects because only the last byte of the CRC was inverted. The two hops of the answers,
one behind the other, are the way back of the link.

A datagram stays in flight on the link for as long as the run goes on, so that no step of
the simulator or of the network forward has to be matched.
-/

namespace SelectiveRepeat

open PriorityBag Transition

/-- Bytes the link may hand over for a datagram in flight. -/
def Carried (host : Host) (forward : List (Nat × List Byte)) (entry : Nat × List Byte) : Prop :=
  ∃ (datagram : List Byte) (fate : Fate), (entry.1, datagram) ∈ forward ∧ fate.Possible host ∧
    entry.2 = fate.arriving datagram

/-- What is carried by the link's forward channel is carried by a longer one. -/
theorem Carried.more {host : Host} {forward further : List (Nat × List Byte)}
    {entry : Nat × List Byte} (carried : Carried host forward entry)
    (grows : ∀ one ∈ forward, one ∈ further) : Carried host further entry := by
  obtain ⟨datagram, fate, listed, possible, arriving⟩ := carried
  exact ⟨datagram, fate, grows _ listed, possible, arriving⟩

/-- The deployment without the simulator and its hops. -/
structure Projects (host : Host) (network : Network) (deployment : Deployment) (link : Link) :
    Prop where
  sender : link.sender = deployment.sender
  scanned : link.scanned = deployment.scanned
  receiver : link.receiver = deployment.receiver
  pending : link.pending = deployment.pending
  arrived : link.arrived = deployment.arrived
  written : link.written = deployment.written
  backward : link.backward = deployment.toSender ++ deployment.fromReceiver
  toSim : ∀ entry ∈ deployment.toSim, entry ∈ link.forward
  toReceiver : ∀ entry ∈ deployment.toReceiver, Carried host link.forward entry
  queue : ∃ content, QueueHolds slotKey deployment.sim.pktQueue content ∧
    (∀ slot ∈ content, Carried host link.forward (slot.tag.about, slot.buf)) ∧
    (deployment.sim.hasSourceAddr = false → content = 0)
  source : deployment.sim.hasSourceAddr = true → deployment.sim.srcAddr = network.source
  unknown : deployment.sim.hasSourceAddr = false →
    deployment.toReceiver = [] ∧ deployment.pending = [] ∧ deployment.fromReceiver = []

/-- Three programs before their first pass project to the link before its first. -/
theorem deploymentStart_projects (host : Host) (network : Network) (junk other : Nat → Byte)
    (clock : Int) (reading : Timespec) (random : Random) :
    Projects host network (deploymentStart junk other clock reading random)
      (linkStart junk other clock) where
  sender := rfl
  scanned := rfl
  receiver := rfl
  pending := rfl
  arrived := rfl
  written := rfl
  backward := rfl
  toSim := by simp [deploymentStart]
  toReceiver := by simp [deploymentStart]
  queue := ⟨0, minqNew_holds slotKey, by simp, fun _ => rfl⟩
  source := by simp [deploymentStart, proxyStart]
  unknown := fun _ => ⟨rfl, rfl, rfl⟩

variable {host : Host} {input : Input} {network : Network} {deployment : Deployment} {link : Link}

/-! ## What the simulator makes of a datagram -/

/-- The damage of the simulator inverts the bits of the last byte. -/
theorem invertLast_concat (front : List Byte) (last : Byte) :
    invertLast (front ++ [last]) = front ++ [~~~ last] := by
  have position : (front ++ [last]).length - 1 = front.length := by simp
  rw [invertLast, position, List.modify_eq_take_drop]
  simp

/-- No byte is its own complement. -/
theorem not_ne_self (byte : Byte) : ~~~ byte ≠ byte := by
  revert byte
  decide

/-- Another last byte spoils the CRC, and nothing else. -/
theorem invertLast_rejected (pkt : Pkt) (readable : Readable pkt)
    (bounded : pkt.length.toNat ≤ 512) :
    (Fate.corrupt (invertLast (wire host pkt))).Possible host := by
  have size := wire_length host pkt readable
  have fits := wire_bounded host pkt readable bounded
  -- all but the last byte, which belongs to the CRC
  obtain ⟨front, last, split, crc⟩ : ∃ front last,
      wire host pkt = covered pkt ++ front ++ [last] ∧
        bigEndian (host.crc32 (covered pkt)) = front ++ [last] :=
    ⟨[_, _, _], _, List.append_assoc .. ▸ rfl, rfl⟩
  have changed : invertLast (wire host pkt) = covered pkt ++ front ++ [~~~ last] := by
    rw [split, invertLast_concat]
  have length : (invertLast (wire host pkt)).length = (wire host pkt).length := by
    rw [changed, split]
    simp
  refine ⟨by omega, ?_⟩
  rw [acceptedPacket, List.take_of_length_le (by rw [length]; exact fits)]
  split
  · next other decoded =>
    have held := holds_getElem (invertLast (wire host pkt)) (fun _ => 0)
    have accepted := accepted_of_ok host _ _ blankPkt (congrArg Prod.fst decoded)
    obtain ⟨content, isSealed⟩ := accepted_sealed host _ _ held (by omega) accepted
    rw [changed, List.append_assoc] at isSealed
    have sizes : (front ++ [~~~ last]).length = (bigEndian (host.crc32 content)).length := by
      rw [show (front ++ [~~~ last]).length = (front ++ [last]).length by simp, ← crc]
      rfl
    obtain ⟨rfl, trailers⟩ := List.append_inj' isSealed sizes
    rw [crc, List.append_cancel_left_eq, List.cons.injEq] at trailers
    exact absurd trailers.1 (not_ne_self last)
  · rfl

/-- A datagram in flight on the link fits the buffer of the simulator, and more than its
header is in it. -/
theorem LinkInv.forward_size (inv : LinkInv host input link) {index : Nat} {datagram : List Byte}
    (listed : (index, datagram) ∈ link.forward) :
    8 ≤ datagram.length ∧ datagram.length ≤ maxPktLen := by
  obtain ⟨_, crc, rfl⟩ := inv.known (inv.forward _ listed)
  have valid := chunk_valid index (input.chunk index) crc (input.bounded index)
  have size := wire_length host _ valid.readable
  exact ⟨by omega, wire_bounded host _ valid.readable valid.bounded⟩

/-- An answer on its way back has eight bytes. -/
theorem LinkInv.backward_size (inv : LinkInv host input link) {answer : Answer}
    (listed : answer ∈ link.backward) : answer.datagram.length = 8 := by
  have trusted := inv.trusted answer (List.mem_append_left _ listed)
  cases sign : answer.positive with
  | true =>
    obtain ⟨window, _, announces⟩ := (trusted.ack sign).2
    exact announces.1
  | false =>
    obtain ⟨window, _, announces⟩ := (trusted.nack sign).2
    exact announces.1

/-- What the simulator makes of a datagram, the link may make of it too. -/
theorem LinkInv.altered_carried (inv : LinkInv host input link) {settings : Settings} {index : Nat}
    {datagram data : List Byte} (listed : (index, datagram) ∈ link.forward)
    (altered : Altered settings datagram data) : Carried host link.forward (index, data) := by
  cases altered with
  | intact => exact ⟨datagram, .intact, listed, trivial, rfl⟩
  | cut => exact ⟨datagram, .cut, listed, trivial, rfl⟩
  | corrupted =>
    refine ⟨datagram, .corrupt (invertLast datagram), listed, ?_, rfl⟩
    obtain ⟨_, crc, rfl⟩ := inv.known (inv.forward _ listed)
    have valid := chunk_valid index (input.chunk index) crc (input.bounded index)
    exact invertLast_rejected _ valid.readable valid.bounded

/-! ## Steps of the simulator -/

/-- What is sent after a delay was carried before. -/
theorem carried_delivered (delivered : List (PktSlot Mark)) :
    let outcomes := delivered.map fun p => Outcome.forwarded p.tag p.buf
    outcomes.filterMap Outcome.carried = delivered.map (fun p => (p.tag.about, p.buf)) ∧
      outcomes.filterMap Outcome.answered = [] := by
  induction delivered with
  | nil => exact ⟨rfl, rfl⟩
  | cons slot rest inductionHypothesis =>
    obtain ⟨sent, none⟩ := inductionHypothesis
    refine ⟨?_, ?_⟩
    · simpa [Outcome.carried] using sent
    · simp [Outcome.answered]

/-- Where nothing leaves the simulator, only its phase and its status change. -/
theorem Projects.silent (projects : Projects host network deployment link) (awake : Bool)
    (status : ExitStatus) {outcomes : List (Outcome Mark)}
    (none : outcomes.filterMap Outcome.carried = [] ∧ outcomes.filterMap Outcome.answered = []) :
    Projects host network (deployment.after awake (status, deployment.sim, outcomes)) link :=
  { projects with
    backward := by simpa [Deployment.after, none] using projects.backward
    toReceiver := by simpa [Deployment.after, none] using projects.toReceiver
    unknown := by simpa [Deployment.after, none] using projects.unknown }

/-- What the simulator sends when it wakes was on the link's forward channel before: a packet that
waited and one that was handed on project to the same. -/
theorem wake_projects (projects : Projects host network deployment link)
    {conditions : Conditions Mark} {result : ExitStatus × Simulator Mark × List (Outcome Mark)}
    (wakes : wakePart conditions deployment.sim = .ok result) :
    Projects host network (deployment.after true result) link := by
  obtain ⟨content, holds, carried, empty⟩ := projects.queue
  rcases wakePart_exact conditions holds with ⟨_, runs⟩ |
    ⟨reading, status, queue, delivered, rest, _, runs, holdsNext, done⟩
  · obtain rfl := Except.ok.inj (runs.symm.trans wakes)
    exact projects.silent true .failure ⟨rfl, rfl⟩
  · obtain rfl := Except.ok.inj (runs.symm.trans wakes)
    obtain ⟨sent, none⟩ := carried_delivered delivered
    have split := done.takes.split
    have parts (unknown : deployment.sim.hasSourceAddr = false) : delivered = [] ∧ rest = 0 := by
      have sizes := congrArg Multiset.card split
      rw [empty unknown, Multiset.card_zero, Multiset.card_add, Multiset.coe_card] at sizes
      exact ⟨List.length_eq_zero_iff.mp (by omega), Multiset.card_eq_zero.mp (by omega)⟩
    refine { projects with
      backward := ?_
      toReceiver := ?_
      queue := ⟨rest, holdsNext, ?_, fun unknown => (parts unknown).2⟩
      unknown := ?_ }
    · simpa only [Deployment.after, none, List.append_nil] using projects.backward
    · intro entry listed
      simp only [Deployment.after, sent, List.mem_append, List.mem_map] at listed
      rcases listed with earlier | ⟨slot, isDelivered, rfl⟩
      · exact projects.toReceiver entry earlier
      · exact carried slot (by rw [split]; simp [isDelivered])
    · intro slot listed
      exact carried slot (by rw [split]; simp [listed])
    · intro unknown
      simpa [Deployment.after, (parts unknown).1] using projects.unknown unknown

/-- What was read is a datagram of the sender, an answer of the receiver, or of no
concern. -/
theorem received_cases {conditions : Conditions Mark} {incoming : Incoming} {sender : SockAddr}
    {mark : Mark} {buf : List Byte}
    (possible : incoming.Possible network deployment conditions.readable)
    (got : GotDatagram { conditions with received := deployment.received network incoming } sender
      mark buf) :
    (∃ position datagram, incoming = .datagram position ∧ sender = network.source ∧
      deployment.toSim[position]? = some (mark.about, datagram) ∧ buf = datagram.take maxPktLen) ∨
    (∃ answer rest, incoming = .answer ∧ sender = network.settings.destAddr ∧
      deployment.fromReceiver = answer :: rest ∧ mark = ⟨answer.about, answer.positive⟩ ∧
      buf = answer.datagram.take maxPktLen) ∨
    (sender ≠ network.source ∧ sender ≠ network.settings.destAddr ∧
      deployment.sim.hasSourceAddr = true) := by
  obtain ⟨bytes, found, rfl, _⟩ := got
  cases incoming with
  | nothing => simp [Deployment.received] at found
  | datagram position =>
    simp only [Deployment.received, Option.map_eq_some_iff, Prod.mk.injEq] at found
    obtain ⟨⟨index, datagram⟩, entry, rfl, rfl, rfl⟩ := found
    exact .inl ⟨position, datagram, rfl, rfl, entry, rfl⟩
  | answer =>
    simp only [Deployment.received, Option.map_eq_some_iff, Prod.mk.injEq] at found
    obtain ⟨answer, first, rfl, rfl, rfl⟩ := found
    obtain ⟨rest, whole⟩ := List.head?_eq_some_iff.mp first
    exact .inr (.inl ⟨answer, rest, rfl, rfl, whole, rfl, rfl⟩)
  | alien other data =>
    obtain ⟨rfl, _⟩ : other = sender ∧ _ := by simpa [Deployment.received] using found
    exact .inr (.inr possible.2)

/-- What was read may as well be lost. -/
theorem taken_projects (projects : Projects host network deployment link) (incoming : Incoming) :
    ∃ later, (linkSystem host input).Runs link later ∧
      Projects host network (deployment.taken incoming) later := by
  cases incoming with
  | nothing => exact ⟨link, System.leads_refl _ link, projects⟩
  | alien => exact ⟨link, System.leads_refl _ link, projects⟩
  | datagram position =>
    exact ⟨link, System.leads_refl _ link, { projects with
      toSim := fun entry listed => projects.toSim entry (List.mem_of_mem_eraseIdx listed) }⟩
  | answer =>
    refine ⟨_, System.leads_single (.loseAnswer deployment.toSender.length) trivial
      (ChannelStep.loseAnswer link deployment.toSender.length), { projects with
        backward := ?_
        unknown := ?_ }⟩
    · simp [Deployment.taken, projects.backward, List.eraseIdx_append_of_length_le]
    · intro unknown
      obtain ⟨nothing, idle, silent⟩ := projects.unknown unknown
      simp [Deployment.taken, nothing, idle, silent]

/-- Taking a datagram from the network leaves the simulator as it is. -/
theorem taken_sim (incoming : Incoming) : (deployment.taken incoming).sim = deployment.sim := by
  cases incoming <;> rfl

/-- Where the simulator neither hands on nor relays what it read, the link loses it as well. -/
theorem lost_projects (projects : Projects host network deployment link) (incoming : Incoming)
    (status : ExitStatus) {outcomes : List (Outcome Mark)}
    (none : outcomes.filterMap Outcome.carried = [] ∧ outcomes.filterMap Outcome.answered = []) :
    ∃ later, (linkSystem host input).Runs link later ∧ Projects host network
      ((deployment.taken incoming).after false (status, deployment.sim, outcomes)) later := by
  obtain ⟨later, run, kept⟩ := taken_projects projects incoming
  rw [← taken_sim incoming]
  exact ⟨later, run, kept.silent false status none⟩

/-- A datagram of the sender was read, and whatever the simulator holds or sends now is
carried. -/
theorem Projects.datagram_taken (projects : Projects host network deployment link)
    (position : Nat) (status : ExitStatus) {next : Simulator Mark} {outcomes : List (Outcome Mark)}
    {after : Multiset (PktSlot Mark)} (holds : QueueHolds slotKey next.pktQueue after)
    (known : next.hasSourceAddr = true) (source : next.srcAddr = network.source)
    (waits : ∀ slot ∈ after, Carried host link.forward (slot.tag.about, slot.buf))
    (leaves : ∀ entry ∈ outcomes.filterMap Outcome.carried, Carried host link.forward entry)
    (noAnswer : outcomes.filterMap Outcome.answered = []) :
    Projects host network
      ((deployment.taken (.datagram position)).after false (status, next, outcomes)) link := by
  have never {goal : Prop} (unknown : next.hasSourceAddr = false) : goal := by
    simp [known] at unknown
  refine { projects with
    backward := ?_
    toSim := fun entry stays => projects.toSim entry (List.mem_of_mem_eraseIdx stays)
    toReceiver := fun entry listed => ?_
    queue := ⟨after, holds, waits, never⟩
    source := fun _ => source
    unknown := never }
  · simpa only [Deployment.after, Deployment.taken, noAnswer, List.append_nil] using
      projects.backward
  · exact (List.mem_append.mp listed).elim (projects.toReceiver entry) (leaves entry)

/-- A datagram of the sender is lost, waits, or is sent on. -/
theorem linked_projects (inv : LinkInv host input link)
    (projects : Projects host network deployment link) {conditions : Conditions Mark}
    {position : Nat} {mark : Mark} {datagram : List Byte} {status : ExitStatus}
    {next : Simulator Mark} {outcomes : List (Outcome Mark)}
    {content after : Multiset (PktSlot Mark)}
    (found : deployment.toSim[position]? = some (mark.about, datagram))
    (carried : ∀ slot ∈ content, Carried host link.forward (slot.tag.about, slot.buf))
    (holds : QueueHolds slotKey next.pktQueue after)
    (known : next.hasSourceAddr = true) (source : next.srcAddr = network.source)
    (linked : Linked network.settings conditions mark datagram
      (trackSource network.source deployment.sim) content status next outcomes after) :
    Projects host network
      ((deployment.taken (.datagram position)).after false (status, next, outcomes)) link := by
  have listed := projects.toSim _ (List.mem_of_getElem? found)
  have altered := damage_altered network.settings datagram
  have taken := @projects.datagram_taken _ _ _ _ position status next outcomes after holds known
    source
  cases linked with
  | dropped => exact taken carried (by simp [Outcome.carried]) rfl
  | broken => exact taken carried (by simp [Outcome.carried]) rfl
  | delayed _ _ _ _ damaged =>
    refine taken (fun slot waits => ?_) (by simp) rfl
    rcases Multiset.mem_cons.mp waits with rfl | earlier
    · exact inv.altered_carried listed (damaged ▸ altered _)
    · exact carried slot earlier
  | forwarded _ _ _ damaged =>
    refine taken carried (fun entry sent => ?_) rfl
    obtain rfl := List.mem_singleton.mp sent
    exact inv.altered_carried listed (damaged ▸ altered _)

/-- An answer of the receiver goes back to the sender. -/
theorem relayed_projects (projects : Projects host network deployment link) {answer : Answer}
    {rest : List Answer} (first : deployment.fromReceiver = answer :: rest) :
    Projects host network ((deployment.taken .answer).after false (.success, deployment.sim,
      [.relayed ⟨answer.about, answer.positive⟩ answer.datagram])) link where
  sender := projects.sender
  scanned := projects.scanned
  receiver := projects.receiver
  pending := projects.pending
  arrived := projects.arrived
  written := projects.written
  backward := by
    simp [Deployment.after, Deployment.taken, Outcome.answered, projects.backward, first]
  toSim := projects.toSim
  toReceiver := by
    simpa [Deployment.after, Deployment.taken, Outcome.carried, List.filterMap_cons] using
      projects.toReceiver
  queue := projects.queue
  source := projects.source
  unknown := by
    intro unknown
    have silent := (projects.unknown unknown).2.2
    simp [first] at silent

/-- The receiver answers nothing before the simulator knows its source. -/
theorem Projects.answer_known (projects : Projects host network deployment link) {answer : Answer}
    {rest : List Answer} (first : deployment.fromReceiver = answer :: rest) :
    deployment.sim.hasSourceAddr = true := by
  by_contra unknown
  have silent := (projects.unknown (Bool.eq_false_iff.mpr unknown)).2.2
  simp [first] at silent

/-- What goes through the link was a datagram of the sender, as it was sent. -/
theorem linked_datagram (inv : LinkInv host input link)
    (projects : Projects host network deployment link) {conditions : Conditions Mark}
    {incoming : Incoming} {sender : SockAddr} {mark : Mark} {buf : List Byte}
    (possible : incoming.Possible network deployment conditions.readable)
    (got : GotDatagram { conditions with received := deployment.received network incoming } sender
      mark buf)
    (source : FromSource network.settings deployment.sim sender) :
    ∃ position, incoming = .datagram position ∧ sender = network.source ∧
      deployment.toSim[position]? = some (mark.about, buf) ∧ (mark.about, buf) ∈ link.forward := by
  rcases received_cases possible got with ⟨position, datagram, rfl, rfl, found, rfl⟩ |
    ⟨_, _, _, atDest, _⟩ | ⟨notSource, _, known⟩
  · have listed := projects.toSim _ (List.mem_of_getElem? found)
    rw [List.take_of_length_le (inv.forward_size listed).2]
    exact ⟨position, rfl, rfl, found, listed⟩
  · exact absurd atDest source.1
  · have tracked := source.2
    rw [trackSource, if_pos known, projects.source known] at tracked
    exact absurd tracked.symm notSource

/-- A datagram the simulator reads is lost, cut, damaged or handed on, or waits; an answer is lost
or relayed. Each is at most one step of the link's channels. -/
theorem serve_projects (inv : LinkInv host input link)
    (projects : Projects host network deployment link) {conditions : Conditions Mark}
    {incoming : Incoming} {result : ExitStatus × Simulator Mark × List (Outcome Mark)}
    (possible : incoming.Possible network deployment conditions.readable)
    (serves : servePart network.settings
      { conditions with received := deployment.received network incoming } deployment.sim =
        .ok result) :
    ∃ later, (linkSystem host input).Runs link later ∧
      Projects host network ((deployment.taken incoming).after false result) later := by
  rw [servePart] at serves
  split at serves
  · obtain ⟨content, holds, carried, _⟩ := projects.queue
    rcases processIncomingPkt_cases network.settings
      { conditions with received := deployment.received network incoming } holds with
      ⟨status, next, outcomes, after, runs, holdsNext, processed⟩ | ⟨crashes, _⟩
    · obtain rfl := Except.ok.inj (runs.symm.trans serves)
      cases processed with
      | nothing => exact lost_projects projects incoming status ⟨rfl, rfl⟩
      | alien => exact lost_projects projects incoming .success ⟨rfl, rfl⟩
      | relayed got =>
        rcases received_cases possible got with ⟨_, _, _, atSource, _⟩ |
          ⟨answer, rest, rfl, _, first, rfl, rfl⟩ | ⟨_, elsewhere, _⟩
        · exact absurd atSource.symm network.apart
        · have listed : answer ∈ link.backward := by
            rw [projects.backward, first]
            simp
          have size := inv.backward_size listed
          have whole : answer.datagram.take maxPktLen = answer.datagram :=
            List.take_of_length_le (by rw [size, maxPktLen]; decide)
          rw [trackSource, if_pos (projects.answer_known first), whole]
          exact ⟨link, System.leads_refl _ link, relayed_projects projects first⟩
        · exact absurd rfl elsewhere
      | unrelayed got =>
        rcases received_cases possible got with ⟨_, _, _, atSource, _⟩ |
          ⟨answer, rest, rfl, _, first, rfl, rfl⟩ | ⟨_, elsewhere, _⟩
        · exact absurd atSource.symm network.apart
        · rw [trackSource, if_pos (projects.answer_known first)]
          exact lost_projects projects .answer .failure ⟨rfl, rfl⟩
        · exact absurd rfl elsewhere
      | linked got source linked =>
        obtain ⟨position, rfl, rfl, found, _⟩ := linked_datagram inv projects possible got source
        have hosts := linked.sameHosts
        refine ⟨link, System.leads_refl _ link, linked_projects inv projects found carried holdsNext
          ?_ ?_ linked⟩
        · rw [hosts.hasSourceAddr, trackSource_hasSourceAddr]
        · rw [hosts.srcAddr, source.2]
    · simp [crashes] at serves
  · obtain rfl := Except.ok.inj serves
    exact lost_projects projects incoming .success ⟨rfl, rfl⟩

/-! ## Steps of the two ends -/

/-- More in flight on the link. -/
theorem Projects.grown (projects : Projects host network deployment link)
    (further : List (Nat × List Byte)) (grows : ∀ entry ∈ link.forward, entry ∈ further) :
    Projects host network deployment { link with forward := further } :=
  { projects with
    toSim := fun entry listed => grows entry (projects.toSim entry listed)
    toReceiver := fun entry listed => (projects.toReceiver entry listed).more grows
    queue := by
      obtain ⟨content, holds, carried, empty⟩ := projects.queue
      exact ⟨content, holds, fun slot listed => (carried slot listed).more grows, empty⟩ }

/-- The sender sends, and turns to the other part of its pass. -/
theorem Projects.sends (projects : Projects host network deployment link) (scanned : Bool)
    (sender : SendRun) :
    Projects host network
      { deployment with
        sender := sender
        scanned := scanned
        toSim := deployment.toSim ++ sentSince deployment.sender sender }
      { link with
        sender := sender
        scanned := scanned
        forward := link.forward ++ sentSince link.sender sender } := by
  have further := projects.grown (link.forward ++ sentSince link.sender sender)
    fun _ => List.mem_append_left _
  refine { further with sender := rfl, scanned := rfl, toSim := ?_ }
  intro entry listed
  rcases List.mem_append.mp listed with earlier | new
  · exact further.toSim entry earlier
  · rw [projects.sender]
    exact List.mem_append_right _ new

/-- What follows the sender's `select` is that of the link, since the answers the simulator has
relayed are the link's oldest. -/
theorem select_projects (projects : Projects host network deployment link) {ambient : Ambient}
    {reads answered : Bool} {sender last : SendRun} (running : deployment.sender.exited = false)
    (ready : deployment.scanned = true)
    (canRead : reads = true → CanRead deployment.sender.state)
    (inputs : inputPart host input ambient reads deployment.sender = .ok sender)
    (serves : socketPart host ambient
      (if answered then deployment.toSender.head? else none) sender = .ok last) :
    ∃ later, (linkSystem host input).Runs link later ∧ Projects host network
      { deployment with
        sender := last
        scanned := false
        toSim := deployment.toSim ++ sentSince deployment.sender last
        toSender := if answered then deployment.toSender.tail else deployment.toSender }
      later := by
  have sent := projects.sends false last
  rw [← projects.sender] at running canRead inputs
  rw [← projects.scanned] at ready
  by_cases heard : answered = true ∧ deployment.toSender ≠ []
  · obtain ⟨rfl, nonempty⟩ := heard
    obtain ⟨answer, rest, whole⟩ := List.exists_cons_of_ne_nil nonempty
    have first : link.backward = answer :: (rest ++ deployment.fromReceiver) := by
      rw [projects.backward, whole, List.cons_append]
    have same : socketPart host ambient (if true then link.backward.head? else none) sender =
        .ok last := by
      simpa [whole, first] using serves
    refine ⟨_, System.leads_single _ trivial
      (ChannelStep.select link ambient reads true sender last running ready canRead inputs same),
      { sent with backward := ?_ }⟩
    simp [first, whole]
  · have silent : (if answered then deployment.toSender.head? else none) = none := by
      cases answered with
      | false => rfl
      | true => simpa using heard
    have kept : (if answered then deployment.toSender.tail else deployment.toSender) =
        deployment.toSender := by
      cases answered with
      | false => rfl
      | true =>
        have empty : deployment.toSender = [] := by simpa using heard
        simp [empty]
    rw [silent] at serves
    rw [kept]
    exact ⟨_, System.leads_single _ trivial
      (ChannelStep.select link ambient reads false sender last running ready canRead inputs serves),
      sent⟩

/-- Of two copies, one stays. -/
theorem mem_after_copy {α : Type} {items : List α} {item : α} {position : Nat}
    (found : items[position]? = some item) {one : α} (listed : one ∈ items) :
    one ∈ (items ++ [item]).eraseIdx position := by
  have inside : position < items.length := (List.getElem?_eq_some_iff.mp found).1
  rw [List.mem_eraseIdx_iff_getElem?]
  obtain ⟨place, there⟩ := List.mem_iff_getElem?.mp listed
  have early : place < items.length := (List.getElem?_eq_some_iff.mp there).1
  by_cases erased : place = position
  · subst erased
    obtain rfl := Option.some.inj (there.symm.trans found)
    exact ⟨items.length, Nat.ne_of_gt inside, by simp⟩
  · exact ⟨place, erased, by rw [List.getElem?_append_left early, there]⟩

/-- A datagram handed on arrives over the link with the fate it was given by the simulator. -/
theorem arrive_projects (projects : Projects host network deployment link) {ambient : Ambient}
    {position index : Nat} {bytes : List Byte} {receiver : RecvState Pkt}
    {events : List (Event Pkt)} (idle : deployment.pending = [])
    (found : deployment.toReceiver[position]? = some (index, bytes))
    (recent : deployment.written.length ≤ index + 225)
    (handles : selRepeatReadBody id host Allocator.values ambient (some bytes)
      deployment.receiver = .ok (receiver, events)) :
    ∃ later, (linkSystem host input).Runs link later ∧ Projects host network
      { deployment with
        receiver := receiver
        pending := events
        arrived := index
        toReceiver := deployment.toReceiver.eraseIdx position }
      later := by
  obtain ⟨datagram, fate, listed, possible, rfl⟩ :=
    projects.toReceiver _ (List.mem_of_getElem? found)
  obtain ⟨place, there⟩ := List.mem_iff_getElem?.mp listed
  rw [← projects.pending] at idle
  rw [← projects.written] at recent
  rw [← projects.receiver] at handles
  -- a copy of the datagram stays in flight
  have copies : LinkStep host input link (.duplicate place)
      { link with forward := link.forward ++ [(index, datagram)] } :=
    .duplicate link place _ there
  have again : (link.forward ++ [(index, datagram)])[place]? = some (index, datagram) := by
    rw [List.getElem?_append_left (List.getElem?_eq_some_iff.mp there).1, there]
  have arrives : LinkStep host input { link with forward := link.forward ++ [(index, datagram)] }
      (.arrive ambient place fate) _ :=
    .arrive _ ambient place fate index datagram receiver events idle again recent possible handles
  have kept := projects.grown ((link.forward ++ [(index, datagram)]).eraseIdx place)
    fun _ => mem_after_copy there
  refine ⟨_, System.leads_trans (System.leads_single _ trivial copies)
    (System.leads_single _ trivial arrives), { kept with
      receiver := rfl
      pending := rfl
      arrived := rfl
      toReceiver := fun entry stays => kept.toReceiver entry (List.mem_of_mem_eraseIdx stays)
      unknown := ?_ }⟩
  intro unknown
  have nothing := (projects.unknown unknown).1
  simp [nothing] at found

/-- The receiver performs an event. -/
theorem perform_projects (projects : Projects host network deployment link) (event : Event Pkt)
    (rest : List (Event Pkt)) (pending : deployment.pending = event :: rest) :
    Projects host network ({ deployment with pending := rest }.perform event)
      (playEvent { link with pending := rest } event) := by
  have known (unknown : deployment.sim.hasSourceAddr = false) {goal : Prop} : goal := by
    simp [(projects.unknown unknown).2.1] at pending
  cases event with
  | writePayload payload =>
    exact { projects with
      pending := rfl
      written := by simp [playEvent, Deployment.perform, projects.written]
      unknown := fun unknown => known unknown }
  | sendAck datagram slots =>
    exact { projects with
      pending := rfl
      backward := by
        simp [playEvent, Deployment.perform, projects.written, projects.backward]
      unknown := fun unknown => known unknown }
  | sendNack datagram slots =>
    exact { projects with
      pending := rfl
      backward := by
        simp [playEvent, Deployment.perform, projects.arrived, projects.backward]
      unknown := fun unknown => known unknown }
  | pktDel pkt => exact { projects with pending := rfl, unknown := fun unknown => known unknown }
  | free pkt => exact { projects with pending := rfl, unknown := fun unknown => known unknown }

/-- Every step of the deployment is a run of the link from a state it projects to, to one the next
state projects to. One case for each program and each act of the network. -/
theorem deploymentStep_projects {label : DeploymentLabel} {next : Deployment}
    (inv : LinkInv host input link) (projects : Projects host network deployment link)
    (step : DeploymentStep host input network deployment label next) :
    ∃ later, (linkSystem host input).Runs link later ∧ Projects host network next later := by
  have still (kept : Projects host network next link) :
      ∃ later, (linkSystem host input).Runs link later ∧ Projects host network next later :=
    ⟨link, System.leads_refl _ link, kept⟩
  cases step with
  | scan ambient sender running ready scans =>
    have linkStep : LinkStep host input link (.scan ambient) _ :=
      .scan link ambient sender (projects.sender ▸ running) (projects.scanned ▸ ready)
        (projects.sender ▸ scans)
    exact ⟨_, System.leads_single _ trivial linkStep, projects.sends true sender⟩
  | select ambient reads answered sender last running ready canRead inputs serves =>
    exact select_projects projects running ready canRead inputs serves
  | wake conditions result running asleep wakes => exact still (wake_projects projects wakes)
  | serve conditions incoming result running woken possible serves =>
    exact serve_projects inv projects possible serves
  | arrive ambient position index bytes receiver events idle found recent handles =>
    exact arrive_projects projects idle found recent handles
  | perform event rest pending =>
    have linkStep : LinkStep host input link .play _ :=
      .play link event rest (projects.pending.trans pending)
    exact ⟨_, System.leads_single _ trivial linkStep, perform_projects projects event rest pending⟩
  | loseToSim position =>
    exact still { projects with
      toSim := fun entry listed => projects.toSim entry (List.mem_of_mem_eraseIdx listed) }
  | duplicateToSim position entry found =>
    refine still { projects with toSim := fun one listed => ?_ }
    rcases List.mem_append.mp listed with earlier | copy
    · exact projects.toSim one earlier
    · rw [List.mem_singleton.mp copy]
      exact projects.toSim entry (List.mem_of_getElem? found)
  | loseToReceiver position =>
    refine still { projects with
      toReceiver := fun entry listed => projects.toReceiver entry (List.mem_of_mem_eraseIdx listed)
      unknown := fun unknown => ?_ }
    obtain ⟨nothing, others⟩ := projects.unknown unknown
    exact ⟨by simp [nothing], others⟩
  | duplicateToReceiver position entry found =>
    refine still { projects with
      toReceiver := fun one listed => ?_
      unknown := fun unknown => ?_ }
    · rcases List.mem_append.mp listed with earlier | copy
      · exact projects.toReceiver one earlier
      · rw [List.mem_singleton.mp copy]
        exact projects.toReceiver entry (List.mem_of_getElem? found)
    · simp [(projects.unknown unknown).1] at found
  | loseFromReceiver position =>
    have linkStep : LinkStep host input link
        (.loseAnswer (deployment.toSender.length + position)) _ :=
      .loseAnswer link _
    refine ⟨_, System.leads_single _ trivial linkStep, { projects with
      backward := ?_
      unknown := fun unknown => ?_ }⟩
    · simp [projects.backward, List.eraseIdx_append_of_length_le]
    · obtain ⟨nothing, idle, silent⟩ := projects.unknown unknown
      exact ⟨nothing, idle, by simp [silent]⟩
  | loseToSender position =>
    by_cases inside : position < deployment.toSender.length
    · have linkStep : LinkStep host input link (.loseAnswer position) _ := .loseAnswer link position
      refine ⟨_, System.leads_single _ trivial linkStep, { projects with backward := ?_ }⟩
      simp [projects.backward, List.eraseIdx_append_of_lt_length inside]
    · refine still { projects with backward := ?_ }
      simp [projects.backward, List.eraseIdx_of_length_le (not_lt.mp inside)]

/-- Every reachable state of the deployment projects to a reachable state of the link. -/
theorem deployment_projects (reached : (deploymentSystem host input network).Reachable deployment) :
    ∃ link, (linkSystem host input).Reachable link ∧ Projects host network deployment link := by
  refine System.reachable_simulation ?_ ?_ reached
  · rintro first ⟨junk, other, clock, reading, random, rfl⟩
    exact ⟨linkStart junk other clock, ⟨junk, other, clock, rfl⟩,
      deploymentStart_projects host network junk other clock reading random⟩
  · intro one label other link reachedLink projects step
    exact deploymentStep_projects (reachable_linkInv reachedLink) projects step

end SelectiveRepeat
