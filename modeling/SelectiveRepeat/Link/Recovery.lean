import SelectiveRepeat.Link.Confirmation
import SelectiveRepeat.Link.Delivery

/-!
# States without a way out

The receiver acknowledges when it delivers, and never again: a packet it has delivered
already is outside its window when it is sent once more. When everything built is
delivered, no acknowledgement of it is on its way any more, and the window or the end
of the input keeps the sender from building another packet, the sender resends its
window for ever.
-/

namespace SelectiveRepeat

open Transition Reassembly

variable {host : Host} {input : Input}

/-- Recoverability depends on what the bookkeeping leaves alone. -/
theorem Unmoved.recoverable {link next : Link} (unmoved : Unmoved link next) :
    Recoverable host next ↔ Recoverable host link := by
  simp only [Recoverable, unmoved.built, unmoved.base, unmoved.limited, unmoved.finish,
    unmoved.inFlight, unmoved.deliveries]

/-- Once there is no way out, reading an answer does not open one. -/
theorem stuck_answer {link : Link} (stuck : ¬ Recoverable host link) {answer : Answer}
    {rest : List Answer} (flight : inFlight link = answer :: rest) {next : Link}
    (built : next.sender.built = link.sender.built)
    (base : next.sender.base = answer.baseAfter link.sender.base)
    (limited : next.sender.state.limitedWindowSize = answer.window host)
    (finish : next.sender.state.finish = link.sender.state.finish)
    (remaining : inFlight next = rest) (delivered : deliveries next = deliveries link) :
    ¬ Recoverable host next := by
  rintro (missing | ⟨other, listed, positive, all⟩ | ⟨unfinished, front, back, split, room⟩)
  · exact stuck (.inl (by rwa [delivered, built] at missing))
  · refine stuck (.inr (.inl ⟨other, ?_, positive, all.trans (by rw [built])⟩))
    rw [flight]
    exact List.mem_cons_of_mem _ (remaining ▸ listed)
  · refine stuck (.inr (.inr ⟨finish.symm.trans unfinished, answer :: front, back, ?_, ?_⟩))
    · rw [flight, ← remaining, split]
      rfl
    · rw [built, base, limited] at room
      exact room

/-- A state without a way out, in which the sender goes on. -/
structure Stuck (host : Host) (input : Input) (link : Link) : Prop where
  inv : LinkInv host input link
  running : link.sender.exited = false
  stuck : ¬ Recoverable host link

/-- A stuck link is still stuck where nothing was moved. -/
theorem Unmoved.stuck {link next : Link} (unmoved : Unmoved link next)
    (stuck : Stuck host input link)
    (kept : LinkInv host input next) : Stuck host input next :=
  ⟨kept, unmoved.exited.trans stuck.running,
    fun recovered => stuck.stuck (unmoved.recoverable.mp recovered)⟩

/-- Everything is delivered, -/
theorem Stuck.delivered {link : Link} (stuck : Stuck host input link) :
    (deliveries link).length = link.sender.built.length := by
  have bounded := stuck.inv.delivered.2
  by_contra missing
  exact stuck.stuck (.inl (by omega))

/-- and the input is not looked at. -/
theorem Stuck.closed {link : Link} (stuck : Stuck host input link) :
    ¬ CanRead link.sender.state := by
  rintro (⟨room, unended⟩ | ⟨shut, _⟩)
  · refine stuck.stuck (.inr (.inr ⟨unended, [], inFlight link, rfl, ?_⟩))
    rw [stuck.inv.sender.index.1] at room
    exact room
  · have limited := stuck.inv.limited
    omega

/-- After `select` the sender can at most read an answer, which does not help. -/
theorem Stuck.select {link : Link} (stuck : Stuck host input link) {ambient : Ambient}
    {reads answered : Bool} {sender last : SendRun}
    (canRead : reads = true → CanRead link.sender.state)
    (inputs : inputPart host input ambient reads link.sender = .ok sender)
    (serves : socketPart host ambient (if answered then link.backward.head? else none) sender =
      .ok last) (next : Link)
    (moves : next = { link with
      sender := last
      scanned := false
      forward := link.forward ++ sentSince link.sender last
      backward := if answered then link.backward.tail else link.backward })
    (kept : LinkInv host input next) : Stuck host input next := by
  have closed : reads = false := by
    cases reads with
    | false => rfl
    | true => exact absurd (canRead rfl) stuck.closed
  subst closed
  obtain rfl := Except.ok.inj inputs
  cases answered with
  | false =>
    obtain rfl := Except.ok.inj serves
    have unmoved : Unmoved link next := by
      subst moves
      exact ⟨rfl, rfl, rfl, rfl, rfl, rfl, rfl⟩
    exact unmoved.stuck stuck kept
  | true =>
    cases head : link.backward with
    | nil =>
      rw [if_pos rfl, head] at serves
      obtain rfl := Except.ok.inj serves
      have unmoved : Unmoved link next := by
        subst moves
        exact ⟨rfl, rfl, rfl, rfl, rfl, by simp [inFlight, head], rfl⟩
      exact unmoved.stuck stuck kept
    | cons answer rest =>
      rw [if_pos rfl, head] at serves
      obtain ⟨served, serving, _, _, built, base, limited, finish, exits⟩ :=
        socketPart_keeps stuck.inv stuck.running ambient head
      obtain rfl : served = last := Except.ok.inj (serving.symm.trans serves)
      have flight : inFlight link =
          answer :: (rest ++ answersOf link.arrived link.written.length link.pending) := by
        simp only [inFlight, head, List.cons_append]
      have runs : served.exited = false := by
        rw [← Bool.not_eq_true, exits]
        rintro ⟨positive, about, _⟩
        exact stuck.stuck (.inr (.inl
          ⟨answer, by rw [flight]; exact List.mem_cons_self .., positive, about⟩))
      subst moves
      refine ⟨kept, runs, stuck_answer stuck.stuck flight built base limited finish ?_ rfl⟩
      simp only [inFlight, head, List.tail_cons, if_true]

/-- Every packet the receiver is handed is delivered already, so that nothing happens. -/
theorem Stuck.arrive {link : Link} (stuck : Stuck host input link) {ambient : Ambient}
    {index : Nat} {datagram : List Byte} {receiver : RecvState Pkt} {events : List (Event Pkt)}
    (idle : link.pending = []) (listed : (index, datagram) ∈ link.forward)
    (recent : link.written.length ≤ index + 225)
    (handles : selRepeatReadBody id host Allocator.values ambient (some datagram) link.receiver =
      .ok (receiver, events)) (forward : List (Nat × List Byte)) :
    Unmoved link { link with
      receiver := receiver
      pending := events
      arrived := index
      forward := forward } := by
  have known := stuck.inv.forward _ listed
  have written := deliveries_idle idle
  have old : index < link.written.length := by
    have sent := (stuck.inv.known known).1
    have all := stuck.delivered
    rw [written] at all
    omega
  obtain ⟨same, done, steps, _, _, _, nothing⟩ := arrive_keeps stuck.inv idle known recent .intact
    trivial id ambient
  obtain ⟨rfl, rfl⟩ : same = receiver ∧ done = events :=
    Prod.mk.inj (Except.ok.inj (steps.symm.trans handles))
  obtain ⟨silent, noAcks, noNacks⟩ := nothing rfl old
  refine ⟨rfl, rfl, rfl, rfl, rfl, ?_, ?_⟩
  · simp only [inFlight, idle, answersOf_quiet _ _ _ noAcks noNacks, answersOf]
  · simp only [deliveries, idle, silent]
    rfl

/-- Steps without loss and damage do not lead out: the trap. -/
theorem Stuck.stays {link next : Link} {label : LinkLabel} (permitted : Lossless label)
    (stuck : Stuck host input link) (step : LinkStep host input link label next) :
    Stuck host input next := by
  have kept := linkStep_keeps stuck.inv step
  cases step with
  | scan ambient sender running ready scans =>
    obtain ⟨same, steps, _, ⟨base, built, exited, window, clock, state⟩, _⟩ :=
      scan_keeps stuck.inv ambient
    obtain rfl : same = sender := Except.ok.inj (steps.symm.trans scans)
    have unmoved : Unmoved link { link with
        sender := same
        scanned := true
        forward := link.forward ++ sentSince link.sender same } :=
      ⟨built, base, by rw [state], by rw [state], exited, rfl, rfl⟩
    exact unmoved.stuck stuck kept
  | select ambient reads answered sender last running ready canRead inputs serves =>
    exact stuck.select canRead inputs serves _ rfl kept
  | loseDatagram position => exact absurd permitted id
  | duplicate position entry found =>
    have unmoved : Unmoved link { link with forward := link.forward ++ [entry] } :=
      ⟨rfl, rfl, rfl, rfl, rfl, rfl, rfl⟩
    exact unmoved.stuck stuck kept
  | arrive ambient position fate index datagram receiver events idle found recent
      possible handles =>
    cases fate with
    | intact =>
      exact (stuck.arrive idle (List.mem_of_getElem? found) recent handles _).stuck stuck kept
    | cut => exact absurd permitted id
    | corrupt bytes => exact absurd permitted id
  | play event rest pending => exact (play_unmoved link event rest pending).stuck stuck kept
  | loseAnswer position => exact absurd permitted id

/-- No run out of such a state completes the input, as long as nothing else is lost. -/
theorem stuck_never_completes {link last : Link} {count : Nat} (stuck : Stuck host input link)
    (leads : (linkSystem host input).Leads Lossless link last) : ¬ Complete input count last := by
  have misses (one : Link) (inside : Stuck host input one) : ¬ Complete input count one := by
    rintro ⟨exited, _⟩
    exact Bool.noConfusion (inside.running.symm.trans exited)
  have stays (one : Link) (label : LinkLabel) (other : Link) (permitted : Lossless label)
      (inside : Stuck host input one) (step : LinkStep host input one label other) :
      Stuck host input other := Stuck.stays permitted inside step
  exact System.trap stays misses stuck leads

/-- The link can lose all answers that were sent. -/
theorem lose_answers (link : Link) :
    (linkSystem host input).Runs link { link with backward := [] } := by
  induction answers : link.backward generalizing link with
  | nil =>
    rw [← answers]
    exact System.leads_refl _ link
  | cons answer rest inductionHypothesis =>
    have step : LinkStep host input link (.loseAnswer 0)
        { link with backward := link.backward.eraseIdx 0 } := .loseAnswer link 0
    rw [answers] at step
    exact System.leads_trans (System.leads_single _ trivial step)
      (inductionHypothesis { link with backward := rest } rfl)

/-- From a reachable state in which the sender runs, the input can be delivered completely
without further losses exactly if the state is recoverable. After a run that lost no
answer it always can.

From a recoverable state the rest of the input is sent packet by packet, each arriving and
being answered at once. In any other state everything built is delivered, no
acknowledgement of all of it is in flight, and no answer on its way lets the sender read:
no lossless step leads out of that. Without a lost answer the last delivery is still to be
acknowledged. -/
theorem completes_iff_recoverable (host : Host) (input : Input) (count : Nat)
    (finite : FiniteInput input count) :
    (∀ link, (linkSystem host input).Reachable link → link.sender.exited = false →
      ((∃ last, (linkSystem host input).Leads Lossless link last ∧ Complete input count last) ↔
        Recoverable host link)) ∧
    (∀ first link, (linkSystem host input).initial first →
      (linkSystem host input).Leads KeepsAnswers first link → link.sender.exited = false →
      ∃ last, (linkSystem host input).Leads Lossless link last ∧ Complete input count last) := by
  constructor
  · intro link reached running
    have inv := reachable_linkInv reached
    refine ⟨?_, recoverable_completes inv running finite⟩
    rintro ⟨last, leads, complete⟩
    by_contra stuck
    exact stuck_never_completes ⟨inv, running, stuck⟩ leads complete
  · intro first link start run running
    have held := assured_run start run
    exact recoverable_completes held.inv running finite (held.recoverable running)

/-- One byte can still be delivered once a datagram of its packet is lost. -/
theorem letter_completes : ∃ link lost last, link.forward ≠ [] ∧
    LinkStep zlibHost letterInput link (.loseDatagram 0) lost ∧
    (linkSystem zlibHost letterInput).Leads Lossless lost last ∧ Complete letterInput 1 last := by
  obtain ⟨link, position, datagram, reached, running, idle, built, written, _, found⟩ :=
    first_sent zlibHost letterInput
  have loses : LinkStep zlibHost letterInput link (.loseDatagram 0)
      { link with forward := link.forward.eraseIdx 0 } := .loseDatagram link 0
  have missing : (deliveries link).length < link.sender.built.length := by
    rw [deliveries_idle idle, written, built]
    exact Nat.zero_lt_one
  obtain ⟨last, leads, complete⟩ := ((completes_iff_recoverable zlibHost letterInput 1
    letterInput_finite).1 _ (System.reachable_step reached loses) running).mpr (.inl missing)
  exact ⟨link, _, last, List.ne_nil_of_mem (List.mem_of_getElem? found), loses, leads, complete⟩

/-- The end of the input at once. -/
def emptyInput : Input where
  chunk _ := []
  bounded _ := Nat.zero_le _

/-- The empty input ends before its first chunk. -/
theorem emptyInput_finite : FiniteInput emptyInput 0 := by
  refine ⟨?_, rfl⟩
  intro index early
  omega

/-- The empty packet at the end of the input is delivered, and its acknowledgement is
lost: everything is written, but the sender never exits. -/
theorem lost_acknowledgement_never_completes : ∃ link : Link,
    (linkSystem zlibHost emptyInput).Reachable link ∧ link.sender.exited = false ∧
      link.written = [[]] ∧
      ¬ ∃ last, (linkSystem zlibHost emptyInput).Leads Lossless link last ∧
        Complete emptyInput 0 last := by
  obtain ⟨link, reached, running, idle, built, delivered, _⟩ := first_delivery zlibHost emptyInput
  have lost : (linkSystem zlibHost emptyInput).Reachable { link with backward := [] } :=
    System.reachable_leads reached (lose_answers link)
  have inv := reachable_linkInv lost
  have silent : inFlight { link with backward := [] } = [] := inFlight_idle idle
  have written := deliveries_idle idle
  have all : (deliveries { link with backward := [] }).length = 1 := delivered
  have stuck : ¬ Recoverable zlibHost { link with backward := [] } := by
    rintro (missing | ⟨answer, listed, _⟩ | ⟨unfinished, _⟩)
    · rw [all, built] at missing
      exact Nat.lt_irrefl _ missing
    · rw [silent] at listed
      cases listed
    · rcases inv.read emptyInput_finite with ⟨_, short⟩ | ⟨ended, _⟩
      · simp only [built] at short
        omega
      · exact absurd (ended.symm.trans unfinished) (by decide)
  refine ⟨_, lost, running, ?_, ?_⟩
  · have chunks := inv.delivered.1
    rw [all] at chunks
    exact written.symm.trans chunks
  · rintro ⟨last, leads, complete⟩
    exact stuck_never_completes ⟨inv, running, stuck⟩ leads complete

end SelectiveRepeat
