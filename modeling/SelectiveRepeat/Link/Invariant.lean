import SelectiveRepeat.Link.Arrivals

/-!
# What holds of both loops together

The sender's window, the datagrams in flight, the receiver's buffer and the answers in
flight are tied together by the indices that the code counts modulo 256. The answers a
pass of the receiver still has to perform count as in flight behind those already sent.

An answer in flight is trusted: it is about an index the sender still waits for when it
reads it. The reason is the order on the way back. An acknowledgement never is about
more than an answer behind it, so that reading one leaves the others trusted.
-/

namespace SelectiveRepeat

open Transition Reassembly

/-! ## Answers in flight -/

/-- The answers among the events of a pass, after `before` writes. -/
def answersOf (arrived : Nat) : Nat → List (Event Pkt) → List Answer
  | _, [] => []
  | before, .writePayload _ :: rest => answersOf arrived (before + 1) rest
  | before, .sendAck datagram _ :: rest => ⟨before, true, datagram⟩ :: answersOf arrived before rest
  | before, .sendNack datagram _ :: rest =>
      ⟨arrived, false, datagram⟩ :: answersOf arrived before rest
  | before, .pktDel _ :: rest => answersOf arrived before rest
  | before, .free _ :: rest => answersOf arrived before rest

/-- Sent answers in front, then those the receiver is about to send. -/
def inFlight (link : Link) : List Answer :=
  link.backward ++ answersOf link.arrived link.written.length link.pending

/-- What the receiver has written or is about to write. -/
def deliveries (link : Link) : List (List Byte) := link.written ++ payloads link.pending

/-- Between two passes of the receiver only sent answers are in flight. -/
theorem inFlight_idle {link : Link} (idle : link.pending = []) :
    inFlight link = link.backward := by
  rw [inFlight, idle, answersOf, List.append_nil]

/-- Between two passes of the receiver nothing is left to be written. -/
theorem deliveries_idle {link : Link} (idle : link.pending = []) :
    deliveries link = link.written := by
  rw [deliveries, idle]
  exact List.append_nil _

/-- An answer the sender can act on when it has removed the packets before `base` and
built those before `next`, and the receiver has delivered those before `delivered`. -/
structure Trusted (host : Host) (base next delivered : Nat) (answer : Answer) : Prop where
  base : base ≤ answer.about
  ack : answer.positive = true → answer.about ≤ delivered ∧
    ∃ window, 1 ≤ window ∧ Announces host answer.datagram ptypeAck (answer.about % 256) window
  nack : answer.positive = false → answer.about < next ∧
    ∃ window, 1 ≤ window ∧ Announces host answer.datagram ptypeNack (answer.about % 256) window

/-- An answer stays trusted while the sender builds and the receiver delivers. -/
theorem Trusted.more {host : Host} {base next later delivered further : Nat} {answer : Answer}
    (trusted : Trusted host base next delivered answer) (grows : next ≤ later)
    (moves : delivered ≤ further) : Trusted host base later further answer where
  base := trusted.base
  ack := fun positive =>
    ⟨Nat.le_trans (trusted.ack positive).1 moves, (trusted.ack positive).2⟩
  nack := fun negative =>
    ⟨Nat.lt_of_lt_of_le (trusted.nack negative).1 grows, (trusted.nack negative).2⟩

/-- No acknowledgement is about more than an answer behind it. -/
def Ordered (answers : List Answer) : Prop :=
  answers.Pairwise fun first second => first.positive = true → first.about ≤ second.about

/-- The answers of a sound pass, when its negative ones are about the packet that
arrived and that packet is not delivered in it. -/
theorem answersOf_sound (host : Host) (arrived : Nat) {before after : Nat}
    {events : List (Event Pkt)} (sound : Sound host before events after)
    (named : ∀ datagram ∈ nacks events, after ≤ arrived ∧
      ∃ window, 1 ≤ window ∧ Announces host datagram ptypeNack (arrived % 256) window) :
    (∀ answer ∈ answersOf arrived before events,
      before ≤ answer.about ∧ Trusted host before (arrived + 1) after answer) ∧
    Ordered (answersOf arrived before events) := by
  induction events generalizing before with
  | nil => exact ⟨by simp [answersOf], List.Pairwise.nil⟩
  | cons event rest inductionHypothesis =>
    have grows := sound_count host sound
    cases event with
    | writePayload payload =>
      obtain ⟨trusted, ordered⟩ := inductionHypothesis sound named
      refine ⟨?_, ordered⟩
      intro answer listed
      obtain ⟨later, valid⟩ := trusted answer listed
      exact ⟨by omega, { valid with base := by omega }⟩
    | sendAck datagram slots =>
      obtain ⟨⟨bounded, rfl⟩, tail⟩ := sound
      obtain ⟨trusted, ordered⟩ := inductionHypothesis tail named
      refine ⟨?_, List.Pairwise.cons (fun answer listed _ => (trusted answer listed).1) ordered⟩
      intro answer listed
      rcases List.mem_cons.mp listed with rfl | later
      · exact ⟨Nat.le_refl _, Nat.le_refl _,
          fun _ => ⟨by simp only; omega, _, bounded.1, announces_ack host _ _ bounded.2⟩, by simp⟩
      · exact trusted answer later
    | sendNack datagram slots =>
      have own := named datagram (by simp [nacks])
      obtain ⟨trusted, ordered⟩ := inductionHypothesis sound.2
        (fun other listed => named other
          (by simp only [nacks, List.filterMap_cons]; exact .tail _ listed))
      refine ⟨?_, List.Pairwise.cons (fun _ _ negative => by simp at negative) ordered⟩
      intro answer listed
      rcases List.mem_cons.mp listed with rfl | later
      · have later : before ≤ arrived := by omega
        exact ⟨later, later, by simp, fun _ => ⟨Nat.lt_succ_self _, own.2⟩⟩
      · exact trusted answer later
    | pktDel pkt => exact inductionHypothesis sound named
    | free pkt => exact inductionHypothesis sound named

/-- Without acknowledgements the answers are the negative ones, about what arrived. -/
theorem answersOf_nacks (arrived before : Nat) (events : List (Event Pkt))
    (noAcks : acks events = []) :
    answersOf arrived before events = (nacks events).map fun datagram =>
      ⟨arrived, false, datagram⟩ := by
  induction events generalizing before with
  | nil => rfl
  | cons event rest inductionHypothesis =>
    cases event with
    | writePayload payload => exact inductionHypothesis (before + 1) noAcks
    | sendAck datagram slots => simp [acks] at noAcks
    | sendNack datagram slots =>
      rw [answersOf, inductionHypothesis before noAcks]
      rfl
    | pktDel pkt => exact inductionHypothesis before noAcks
    | free pkt => exact inductionHypothesis before noAcks

/-- A pass that sends nothing has no answers. -/
theorem answersOf_quiet (arrived before : Nat) (events : List (Event Pkt))
    (noAcks : acks events = []) (noNacks : nacks events = []) :
    answersOf arrived before events = [] := by
  rw [answersOf_nacks arrived before events noAcks, noNacks]
  rfl

/-! ## The invariant -/

/-- The joint invariant. The sender keeps its own invariant, and its packets carry the chunks of
the input in their order. Whatever travels forward is one of its datagrams, so that the receiver
reassembles the input and has written a prefix of it. Answers in flight, sent or still to be sent,
are trusted, and the acknowledgements among them are in the order of what they acknowledge; the
sender has removed no more than the receiver has written. -/
structure LinkInv (host : Host) (input : Input) (link : Link) : Prop where
  sender : SendInv host link.sender
  limited : 1 ≤ link.sender.state.limitedWindowSize
  chunks : link.sender.chunks = (List.range link.sender.built.length).map input.chunk
  forward : ∀ entry ∈ link.forward, entry ∈ link.sender.log
  receiver : ∃ reassembler, Represents id reassembler link.receiver ∧
    Receiving input link.sender.built.length reassembler ∧ reassembler.output = deliveries link
  trusted : ∀ answer ∈ inFlight link, Trusted host link.sender.base link.sender.built.length
    (deliveries link).length answer
  ordered : Ordered (inFlight link)
  heard : link.sender.base ≤ link.written.length
  sent : ∀ answer ∈ link.backward, answer.positive = true → answer.about ≤ link.written.length

/-- Both programs start with nothing built, nothing in flight and nothing held. -/
theorem linkStart_inv (host : Host) (input : Input) (junk other : Nat → Byte) (clock : Int) :
    LinkInv host input (linkStart junk other clock) where
  sender := sendRunStart_inv host junk clock
  limited := by simp [linkStart, sendRunStart, sendStart]
  chunks := rfl
  forward := by simp [linkStart]
  receiver := ⟨start 31 (List Byte), represents_start other,
    ⟨Reassembler.start_follows input.chunk, Reassembler.start_below _⟩, rfl⟩
  trusted := by simp [linkStart, inFlight, answersOf]
  ordered := List.Pairwise.nil
  heard := Nat.le_refl _
  sent := by simp [linkStart]

/-- What is delivered is counted by the abstract receiver, and was built. -/
theorem LinkInv.delivered {host : Host} {input : Input} {link : Link}
    (inv : LinkInv host input link) :
    deliveries link = (List.range (deliveries link).length).map input.chunk ∧
      (deliveries link).length ≤ link.sender.built.length := by
  obtain ⟨reassembler, _, receiving, output⟩ := inv.receiver
  have follows := receiving.follows.output
  rw [output] at follows
  have counted : (deliveries link).length = reassembler.delivered := by
    rw [follows, List.length_map, List.length_range]
  exact ⟨by rw [counted]; exact follows, by rw [counted]; exact receiving.below.delivered⟩

/-! ## Steps of the receiver and the channels -/

/-- Performing an event changes nothing in flight. -/
theorem play_inFlight (link : Link) (event : Event Pkt) (rest : List (Event Pkt))
    (pending : link.pending = event :: rest) :
    inFlight (playEvent { link with pending := rest } event) = inFlight link ∧
      deliveries (playEvent { link with pending := rest } event) = deliveries link := by
  cases event with
  | writePayload payload => simp [inFlight, deliveries, playEvent, pending, answersOf, payloads]
  | sendAck datagram slots => simp [inFlight, deliveries, playEvent, pending, answersOf, payloads]
  | sendNack datagram slots => simp [inFlight, deliveries, playEvent, pending, answersOf, payloads]
  | pktDel pkt =>
    rw [inFlight, inFlight, deliveries, deliveries, pending]
    exact ⟨rfl, rfl⟩
  | free pkt =>
    rw [inFlight, inFlight, deliveries, deliveries, pending]
    exact ⟨rfl, rfl⟩

/-- Performing an event moves it from what is pending to what is sent or written; the answers in
flight and the deliveries, taken together, stay the same. -/
theorem play_keeps {host : Host} {input : Input} {link : Link} (inv : LinkInv host input link)
    (event : Event Pkt) (rest : List (Event Pkt)) (pending : link.pending = event :: rest) :
    LinkInv host input (playEvent { link with pending := rest } event) := by
  obtain ⟨flight, delivered⟩ := play_inFlight link event rest pending
  have receiver := inv.receiver
  have trusted := inv.trusted
  have ordered := inv.ordered
  rw [← flight] at trusted ordered
  rw [← delivered] at trusted
  simp only [← delivered] at receiver
  have heard := inv.heard
  cases event with
  | writePayload payload =>
    refine ⟨inv.sender, inv.limited, inv.chunks, inv.forward, receiver, trusted, ordered, ?_, ?_⟩
    · simp only [playEvent, List.length_append]
      omega
    · intro answer listed positive
      have earlier := inv.sent answer listed positive
      simp only [playEvent, List.length_append]
      omega
  | sendAck datagram slots =>
    refine ⟨inv.sender, inv.limited, inv.chunks, inv.forward, receiver, trusted, ordered, heard, ?_⟩
    intro answer listed positive
    rcases List.mem_append.mp listed with earlier | new
    · exact inv.sent answer earlier positive
    · rw [List.mem_singleton.mp new]
      exact Nat.le_refl _
  | sendNack datagram slots =>
    refine ⟨inv.sender, inv.limited, inv.chunks, inv.forward, receiver, trusted, ordered, heard, ?_⟩
    intro answer listed positive
    rcases List.mem_append.mp listed with earlier | new
    · exact inv.sent answer earlier positive
    · rw [List.mem_singleton.mp new] at positive
      simp at positive
  | pktDel pkt =>
    exact ⟨inv.sender, inv.limited, inv.chunks, inv.forward, receiver, trusted, ordered,
      heard, inv.sent⟩
  | free pkt =>
    exact ⟨inv.sender, inv.limited, inv.chunks, inv.forward, receiver, trusted, ordered,
      heard, inv.sent⟩

/-- A lost answer leaves fewer, in the same order. -/
theorem loseAnswer_keeps {host : Host} {input : Input} {link : Link} (inv : LinkInv host input link)
    (position : Nat) :
    LinkInv host input { link with backward := link.backward.eraseIdx position } := by
  have fewer : (inFlight { link with backward := link.backward.eraseIdx position }).Sublist
      (inFlight link) := (List.eraseIdx_sublist link.backward position).append_right _
  exact { inv with
    trusted := fun answer listed => inv.trusted answer (fewer.subset listed)
    ordered := inv.ordered.sublist fewer
    sent := fun answer listed => inv.sent answer
      ((List.eraseIdx_sublist _ position).subset listed) }

/-- Whatever is in flight forward only has to be something the sender sent. -/
theorem forward_keeps {host : Host} {input : Input} {link : Link} (inv : LinkInv host input link)
    (forward : List (Nat × List Byte)) (known : ∀ entry ∈ forward, entry ∈ link.sender.log) :
    LinkInv host input { link with forward := forward } :=
  { inv with forward := known }

/-- What the sender sent under an index is the datagram of that chunk. -/
theorem LinkInv.known {host : Host} {input : Input} {link : Link} (inv : LinkInv host input link)
    {index : Nat} {datagram : List Byte} (listed : (index, datagram) ∈ link.sender.log) :
    index < link.sender.built.length ∧
      ∃ crc, datagram = wire host (chunkPacket index (input.chunk index) crc) := by
  obtain ⟨pkt, found, rfl⟩ := inv.sender.log _ listed
  obtain ⟨chunk, crc, read, _, rfl⟩ := inv.sender.built index pkt found
  have inside := (List.getElem?_eq_some_iff.mp found).1
  rw [inv.chunks, List.getElem?_map, List.getElem?_range inside, Option.map_some] at read
  exact ⟨inside, crc, by rw [Option.some.inj read]⟩

/-- Between two passes the abstract receiver has output what is written. -/
theorem LinkInv.represented {host : Host} {input : Input} {link : Link}
    (inv : LinkInv host input link) (idle : link.pending = []) :
    ∃ reassembler, Represents id reassembler link.receiver ∧
      Receiving input link.sender.built.length reassembler ∧ reassembler.output = link.written ∧
      reassembler.delivered = link.written.length := by
  obtain ⟨reassembler, represents, receiving, output⟩ := inv.receiver
  have written := deliveries_idle idle
  rw [written] at output
  have counted := congrArg List.length receiving.follows.output
  rw [output, List.length_map, List.length_range] at counted
  exact ⟨reassembler, represents, receiving, output, counted.symm⟩

/-- A negative acknowledgement is about the packet that was refused. -/
theorem nacks_named (host : Host) {before : Reassembly31} {result : Option (List Byte)}
    {events : List (Event Pkt)} {index delivered : Nat}
    (sent : nacks events =
      ((refused before result).map fun number => nackDatagram host number
        (31 - before.count)).toList)
    (refusal : ∀ number, refused before result = some number →
      number = index % 256 ∧ delivered ≤ index) :
    ∀ datagram ∈ nacks events, delivered ≤ index ∧
      ∃ window, 1 ≤ window ∧ Announces host datagram ptypeNack (index % 256) window := by
  intro datagram member
  rw [sent, Option.mem_toList, Option.map_eq_some_iff] at member
  obtain ⟨number, cut, rfl⟩ := member
  obtain ⟨rfl, ahead⟩ := refusal number cut
  have counted : before.count ≤ 30 := entries_bounded before
  have announces := announces_nack host (index % 256) (31 - before.count) (by omega)
  rw [Nat.mod_mod] at announces
  exact ⟨ahead, 31 - before.count, by omega, announces⟩

/-- A pass that follows the abstract receiver keeps the invariant. -/
theorem LinkInv.passed {host : Host} {input : Input} {link : Link} (inv : LinkInv host input link)
    (idle : link.pending = []) {index : Nat} (inside : index < link.sender.built.length)
    {before after : Reassembly31} {receiver : RecvState Pkt} {events : List (Event Pkt)}
    (output : before.output = link.written) (delivered : before.delivered = link.written.length)
    (passed : Passed id host before after receiver events)
    (taken : Receiving input link.sender.built.length after)
    (named : ∀ datagram ∈ nacks events, after.delivered ≤ index ∧
      ∃ window, 1 ≤ window ∧ Announces host datagram ptypeNack (index % 256) window) :
    LinkInv host input { link with receiver := receiver, pending := events, arrived := index } := by
  have sound := passed.sound
  rw [delivered] at sound
  obtain ⟨trusted, ordered⟩ := answersOf_sound host index sound named
  have grows := sound_count host sound
  have total : (link.written ++ payloads events).length = after.delivered := by
    rw [List.length_append]
    exact grows.symm
  have heard := inv.heard
  have written := deliveries_idle idle
  have earlier := inFlight_idle idle
  refine ⟨inv.sender, inv.limited, inv.chunks, inv.forward,
    ⟨_, passed.represents, taken, ?_⟩, ?_, ?_, heard, inv.sent⟩
  · rw [passed.output, output]
    rfl
  · intro answer member
    simp only [deliveries, total]
    rcases List.mem_append.mp member with old | new
    · refine (inv.trusted answer (earlier ▸ old)).more (Nat.le_refl _) ?_
      rw [written]
      omega
    · obtain ⟨later, valid⟩ := trusted answer new
      exact { valid.more inside (Nat.le_refl _) with base := by omega }
  · refine List.pairwise_append.mpr ⟨earlier ▸ inv.ordered, ordered, ?_⟩
    intro old member new fresh positive
    have bound := inv.sent old member positive
    have later := (trusted new fresh).1
    omega

/-- A pass of the receiver on a datagram that was sent, is not too old and does not
mislead it. It never faults, and closes with an acknowledgement if it delivers. An intact
datagram of the next packet is delivered; one of an older packet makes nothing happen. -/
theorem arrive_keeps {host : Host} {input : Input} {link : Link} (inv : LinkInv host input link)
    (idle : link.pending = []) {index : Nat} {datagram : List Byte}
    (listed : (index, datagram) ∈ link.sender.log) (recent : link.written.length ≤ index + 225)
    (fate : Fate) (noticed : fate.Noticed host) (honest : ¬ Misleads link.receiver index fate)
    (ambient : Ambient) :
    ∃ receiver events,
      selRepeatReadBody id host Allocator.values ambient (some (fate.arriving datagram))
        link.receiver = .ok (receiver, events) ∧
      LinkInv host input { link with receiver := receiver, pending := events, arrived := index } ∧
      (payloads events ≠ [] → ∃ front last slots, events = front ++ [.sendAck last slots]) ∧
      (fate = .intact → index = link.written.length → payloads events ≠ []) ∧
      (fate = .intact → index < link.written.length →
        payloads events = [] ∧ acks events = [] ∧ nacks events = []) := by
  obtain ⟨inside, crc, built⟩ := inv.known listed
  obtain ⟨before, represents, receiving, output, delivered⟩ := inv.represented idle
  have near : index < before.delivered + 31 := by
    have window := inv.sender.index.2
    have heard := inv.heard
    omega
  obtain ⟨receiver, events, handles, passed, sent⟩ := selRepeatReadBody_passes host Allocator.values
    ambient (some (fate.arriving datagram)) represents
  obtain ⟨taken, refusal⟩ :=
    receiving.handed inside near (by omega) built fate noticed represents honest
  -- an intact datagram offers its chunk under its index
  have offered (intact : fate = .intact) :
      reassemble before (acceptedPacket host (some (fate.arriving datagram))) =
        before.offer index (input.chunk index) := by
    rw [intact, built, Fate.arriving, accepted_chunk host index _ crc (input.bounded index),
      reassemble_index before index _ near (by omega)]
  generalize reassemble before (acceptedPacket host (some (fate.arriving datagram))) = after
    at passed taken refusal offered
  have grows := sound_count host passed.sound
  refine ⟨receiver, events, handles, inv.passed idle inside output delivered passed taken
    (nacks_named host sent refusal), passed.closes, ?_, ?_⟩
  · intro intact same nothing
    have moved := (before.offer_delivered index (input.chunk index)).2.1 (by omega)
    rw [← offered intact, grows, nothing, List.length_nil] at moved
    omega
  · intro intact old
    have same := offered intact
    rw [(before.offer_delivered index (input.chunk index)).2.2 (by omega)] at same
    have nothing : payloads events = [] := by
      rw [same] at grows
      exact List.length_eq_zero_iff.mp (by omega)
    have silent : refused before (some (fate.arriving datagram)) = none := by
      cases refuses : refused before (some (fate.arriving datagram)) with
      | none => rfl
      | some number =>
        have ahead := (refusal number refuses).2
        rw [same] at ahead
        omega
    exact ⟨nothing, passed.quiet nothing, by rw [sent, silent]; rfl⟩

/-! ## Steps of the sender -/

/-- What the sender appends to its log is put on the channel. -/
theorem sentSince_append (before after : SendRun) (more : List (Nat × List Byte))
    (appended : after.log = before.log ++ more) : sentSince before after = more := by
  rw [sentSince, appended, List.drop_left]

/-- What a pass of the sender put on the way is in its log. -/
theorem sentSince_known {before after : SendRun} {entry : Nat × List Byte}
    (listed : entry ∈ sentSince before after) : entry ∈ after.log := List.mem_of_mem_drop listed

/-- The scan of the timers. If enough time passes it sends every packet of the window. -/
theorem scan_keeps {host : Host} {input : Input} {link : Link} (inv : LinkInv host input link)
    (ambient : Ambient) :
    ∃ sender, sendStep host link.sender (.scan ambient) = .ok sender ∧
      LinkInv host input { link with
        sender := sender
        scanned := true
        forward := link.forward ++ sentSince link.sender sender } ∧
      (sender.base = link.sender.base ∧ sender.built = link.sender.built ∧
        sender.exited = link.sender.exited ∧ SameButTimers link.sender.state sender.state) ∧
      ((∀ reading, ambient.elapsed reading = 6) → ∀ index, link.sender.base ≤ index →
        index < link.sender.built.length → ∃ datagram,
          (index, datagram) ∈ sentSince link.sender sender) := by
  obtain ⟨state, sent, steps, kept, same, resends⟩ := scan_step host ambient inv.sender
  obtain ⟨window, clock, rfl⟩ := same
  refine ⟨_, steps, ?_, ⟨rfl, rfl, rfl, window, clock, rfl⟩, ?_⟩
  · refine { inv with sender := kept, forward := ?_ }
    intro entry listed
    rcases List.mem_append.mp listed with earlier | new
    · exact List.mem_append_left _ (inv.forward entry earlier)
    · exact sentSince_known new
  · intro slow index beyond inside
    rw [sentSince_append link.sender _ _ rfl]
    exact ⟨_, resends slow index _ beyond (List.getElem?_eq_getElem inside)⟩

/-- The part that reads the input: at most one more packet is built. -/
theorem inputPart_keeps {host : Host} {input : Input} {link : Link} (inv : LinkInv host input link)
    (ambient : Ambient) (ready : Bool) (canRead : ready = true → CanRead link.sender.state) :
    ∃ sender, inputPart host input ambient ready link.sender = .ok sender ∧
      LinkInv host input { link with sender := sender } ∧
      (∀ entry ∈ link.sender.log, entry ∈ sender.log) ∧
      sender.base = link.sender.base ∧ sender.exited = link.sender.exited ∧
      sender.built.length = link.sender.built.length + ready.toNat := by
  cases ready with
  | false => exact ⟨link.sender, rfl, inv, fun _ listed => listed, rfl, rfl, rfl⟩
  | true =>
    obtain ⟨next, steps, kept, base, exited, chunks, limited, pkt, built, log⟩ :=
      read_step host ambient inv.sender (canRead rfl) (input.chunk link.sender.chunks.length)
        (input.bounded _)
    have longer : next.built.length = link.sender.built.length + 1 := by rw [built]; simp
    have grown (entry : Nat × List Byte) (listed : entry ∈ link.sender.log) : entry ∈ next.log := by
      rw [log]
      exact List.mem_append_left _ listed
    obtain ⟨reassembler, represents, receiving, output⟩ := inv.receiver
    refine ⟨next, steps, ⟨kept, ?_, ?_, fun entry listed => grown entry (inv.forward entry listed),
      ⟨reassembler, represents, receiving.more (by simp only; omega), output⟩, ?_, inv.ordered, ?_,
      inv.sent⟩, grown, base, exited, longer⟩
    · simp only [limited]
      exact inv.limited
    · simp only [longer, chunks]
      rw [List.range_succ, List.map_append, ← inv.chunks, ← inv.sender.counted]
      rfl
    · intro answer listed
      simp only [base, longer]
      exact (inv.trusted answer listed).more (Nat.le_succ _) (Nat.le_refl _)
    · simp only [base]
      exact inv.heard

/-- The window an answer advertises. -/
def Answer.window (host : Host) (answer : Answer) : Nat :=
  pktGetWindow (pktDecode host (fun i => (answer.datagram[i]?).getD 0) 8 blankPkt).2

/-- The window an answer announces is the one read from its datagram. -/
theorem Answer.window_announced {host : Host} {answer : Answer} {type : BitVec 32}
    {number window : Nat} (announces : Announces host answer.datagram type number window) :
    answer.window host = window := by
  obtain ⟨pkt, decoded, _, _, rfl⟩ :=
    announces.2 _ blankPkt (holds_getElem answer.datagram (fun _ => 0))
  rw [Answer.window, decoded]

/-- The oldest packet in the window after an answer was read. -/
def Answer.baseAfter (base : Nat) (answer : Answer) : Nat :=
  if answer.positive then answer.about else base

/-- The part that reads the socket, with the first answer in flight. -/
theorem socketPart_keeps {host : Host} {input : Input} {link : Link} (inv : LinkInv host input link)
    (running : link.sender.exited = false) (ambient : Ambient) {answer : Answer}
    {rest : List Answer} (first : link.backward = answer :: rest) :
    ∃ last, socketPart host ambient (some answer) link.sender = .ok last ∧
      LinkInv host input { link with sender := last, backward := rest } ∧
      (∀ entry ∈ link.sender.log, entry ∈ last.log) ∧ last.built = link.sender.built ∧
      last.base = answer.baseAfter link.sender.base ∧
      last.state.limitedWindowSize = answer.window host ∧
      last.state.finish = link.sender.state.finish ∧
      (last.exited = true ↔ answer.positive = true ∧ answer.about = link.sender.built.length ∧
        link.sender.state.finish = 1) := by
  have flight : inFlight link = answer :: inFlight { link with backward := rest } := by
    simp only [inFlight, first]
    rfl
  have trusted := inv.trusted answer (by rw [flight]; exact List.mem_cons_self ..)
  have later (other : Answer) (listed : other ∈ inFlight { link with backward := rest }) :
      Trusted host link.sender.base link.sender.built.length (deliveries link).length other :=
    inv.trusted other (by rw [flight]; exact List.mem_cons_of_mem _ listed)
  have ordered := inv.ordered
  rw [flight, Ordered, List.pairwise_cons] at ordered
  have sent (other : Answer) (listed : other ∈ rest) (positive : other.positive = true) :
      other.about ≤ link.written.length :=
    inv.sent other (by rw [first]; exact List.mem_cons_of_mem _ listed) positive
  have delivered := inv.delivered.2
  cases kind : answer.positive with
  | true =>
    obtain ⟨bounded, window, room, announces⟩ := trusted.ack kind
    obtain ⟨slots, steps, kept⟩ := ack_step host ambient inv.sender
      ⟨trusted.base, Nat.le_trans bounded delivered⟩ announces
    have heard := inv.sent answer (by rw [first]; exact List.mem_cons_self ..) kind
    refine ⟨_, by rw [socketPart, Answer.label, if_pos kind]; exact steps, ⟨kept, ?_, inv.chunks,
      inv.forward, inv.receiver, ?_, ordered.2, heard, sent⟩, fun _ listed => listed, rfl,
      by rw [Answer.baseAfter, if_pos kind], by rw [Answer.window_announced announces], rfl, ?_⟩
    · simp only
      omega
    · intro other listed
      exact { later other listed with base := ordered.1 other listed kind }
    · simp only [decide_eq_true_eq, true_and]
      exact ⟨fun both => ⟨both.1.symm, both.2⟩, fun both => ⟨both.1.symm, both.2⟩⟩
  | false =>
    obtain ⟨inside, window, room, announces⟩ := trusted.nack kind
    obtain ⟨slots, clock, pkt, _, steps, kept⟩ := nack_step host ambient inv.sender running
      ⟨trusted.base, inside⟩ announces
    refine ⟨_, by rw [socketPart, Answer.label, if_neg (by rw [kind]; simp)]; exact steps,
      ⟨kept, ?_, inv.chunks, ?_, inv.receiver, later, ordered.2, inv.heard, sent⟩, ?_, rfl,
      by rw [Answer.baseAfter, if_neg (by rw [kind]; simp)],
      by rw [Answer.window_announced announces], rfl, ?_⟩
    · simp only
      omega
    · exact fun entry listed => List.mem_append_left _ (inv.forward entry listed)
    · exact fun _ listed => List.mem_append_left _ listed
    · simp [running]

/-! ## Runs -/

/-- Every step of the loops and of the noisy channels keeps the invariant, unless it
misleads the receiver. -/
theorem channelStep_keeps {host : Host} {input : Input} {link next : Link} {label : LinkLabel}
    (inv : LinkInv host input link)
    (step : ChannelStep host input (Fate.Noticed host) link label next)
    (honest : ¬ Misled link label) : LinkInv host input next := by
  cases step with
  | scan ambient sender running ready scans =>
    obtain ⟨same, steps, kept, _⟩ := scan_keeps inv ambient
    obtain rfl : same = sender := Except.ok.inj (steps.symm.trans scans)
    exact kept
  | select ambient reads answered sender last running ready canRead inputs serves =>
    obtain ⟨same, steps, kept, grown, _, exited, _⟩ := inputPart_keeps inv ambient reads canRead
    obtain rfl : same = sender := Except.ok.inj (steps.symm.trans inputs)
    -- an answer is read only if there is one
    obtain ⟨after, known⟩ : LinkInv host input { link with
          sender := last
          backward := if answered then link.backward.tail else link.backward } ∧
        ∀ entry ∈ same.log, entry ∈ last.log := by
      cases answered with
      | false =>
        obtain rfl := Except.ok.inj serves
        exact ⟨kept, fun _ listed => listed⟩
      | true =>
        cases head : link.backward with
        | nil =>
          rw [head] at serves
          obtain rfl := Except.ok.inj serves
          exact ⟨{ kept with
            trusted := by simpa [inFlight, head] using kept.trusted
            ordered := by simpa [inFlight, head] using kept.ordered
            sent := by simp }, fun _ listed => listed⟩
        | cons answer rest =>
          rw [head] at serves
          obtain ⟨served, serving, after, grows, _⟩ := socketPart_keeps kept (exited.trans running)
            ambient head
          obtain rfl : served = last := Except.ok.inj (serving.symm.trans serves)
          exact ⟨after, grows⟩
    refine { after with forward := ?_ }
    intro entry listed
    rcases List.mem_append.mp listed with earlier | new
    · exact known entry (grown entry (inv.forward entry earlier))
    · exact sentSince_known new
  | loseDatagram position =>
    exact forward_keeps inv _ fun entry listed =>
      inv.forward entry ((List.eraseIdx_sublist _ position).subset listed)
  | duplicate position entry found =>
    refine forward_keeps inv _ ?_
    intro other listed
    rcases List.mem_append.mp listed with earlier | new
    · exact inv.forward other earlier
    · rw [List.mem_singleton.mp new]
      exact inv.forward entry (List.mem_of_getElem? found)
  | arrive ambient position fate index datagram receiver events idle found recent
      possible handles =>
    obtain ⟨same, done, steps, kept, _⟩ := arrive_keeps inv idle
      (inv.forward _ (List.mem_of_getElem? found)) recent fate possible
      (fun misleads => honest ⟨_, found, misleads⟩) ambient
    obtain ⟨rfl, rfl⟩ : same = receiver ∧ done = events :=
      Prod.mk.inj (Except.ok.inj (steps.symm.trans handles))
    refine { kept with forward := ?_ }
    exact fun entry listed => inv.forward entry ((List.eraseIdx_sublist _ position).subset listed)
  | play event rest pending => exact play_keeps inv event rest pending
  | loseAnswer position => exact loseAnswer_keeps inv position

/-- In particular every step over the link proper. -/
theorem linkStep_keeps {host : Host} {input : Input} {link next : Link} {label : LinkLabel}
    (inv : LinkInv host input link) (step : LinkStep host input link label next) :
    LinkInv host input next :=
  channelStep_keeps inv (linkStep_careful step).1 (linkStep_careful step).2

/-- The joint invariant holds in every reachable state: at the start, and by `linkStep_keeps`
after every step. -/
theorem reachable_linkInv {host : Host} {input : Input} {link : Link}
    (reached : (linkSystem host input).Reachable link) : LinkInv host input link := by
  refine System.reachable_invariant ?_ ?_ reached
  · rintro first ⟨junk, other, clock, rfl⟩
    exact linkStart_inv host input junk other clock
  · exact fun before label after inv step => linkStep_keeps inv step

/-- The invariant holds in every run over the careful link. -/
theorem careful_linkInv {host : Host} {input : Input} {link : Link}
    (reached : (carefulSystem host input).Reachable link) : LinkInv host input link := by
  refine System.reachable_invariant ?_ ?_ reached
  · rintro first ⟨junk, other, clock, rfl⟩
    exact linkStart_inv host input junk other clock
  · exact fun before label after inv step => channelStep_keeps inv step.1 step.2

end SelectiveRepeat
