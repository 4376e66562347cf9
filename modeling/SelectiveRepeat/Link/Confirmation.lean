import SelectiveRepeat.Link.Completion

/-!
# Runs in which no answer is lost

The receiver closes every pass that delivers with an acknowledgement of all it has
delivered. Unless the link loses it, this acknowledgement is in flight or was read, so
that everything delivered is also known to the sender, now or later. Datagrams may be
lost, cut, corrupted, duplicated and reordered all the while.
-/

namespace SelectiveRepeat

open Transition

variable {host : Host} {input : Input}

/-- Labels of steps that lose no answer. -/
def KeepsAnswers : LinkLabel → Prop
  | .loseAnswer _ => False
  | _ => True

/-- The sender knows everything that is delivered, or will when it has read the answers
in flight. -/
def Assured (link : Link) : Prop :=
  link.sender.base = (deliveries link).length ∨ Confirmed link

/-- What moves neither base, answers in flight nor deliveries does not change whether the sender
is assured. -/
theorem Unmoved.assured {link next : Link} (unmoved : Unmoved link next) :
    Assured next ↔ Assured link := by
  simp only [Assured, Confirmed, unmoved.base, unmoved.inFlight, unmoved.deliveries]

/-- Reading the first answer in flight keeps the sender assured: either it is the one
that confirms, or that one is still to come. -/
theorem assured_answer {link next : Link} (inv : LinkInv host input link) {answer : Answer}
    {rest : List Answer} (flight : inFlight link = answer :: rest) (assured : Assured link)
    (base : next.sender.base = answer.baseAfter link.sender.base) (remaining : inFlight next = rest)
    (delivered : deliveries next = deliveries link) : Assured next := by
  have trusted := inv.trusted answer (by rw [flight]; exact List.mem_cons_self ..)
  rcases assured with known | ⟨last, listed, positive, about⟩
  · refine .inl ?_
    rw [base, delivered]
    cases kind : answer.positive with
    | true =>
      have least := trusted.base
      have most := (trusted.ack kind).1
      rw [Answer.baseAfter, if_pos kind]
      omega
    | false => rw [Answer.baseAfter, if_neg (by rw [kind]; simp), known]
  · rcases List.mem_cons.mp (flight ▸ listed) with rfl | later
    · exact .inl (by rw [base, delivered, Answer.baseAfter, if_pos positive, about])
    · exact .inr ⟨last, remaining ▸ later, positive, by rw [delivered]; exact about⟩

/-- A pass of the receiver keeps the sender assured: it delivers nothing, or confirms
what it delivers. -/
theorem assured_arrival {link next : Link} (idle : link.pending = [])
    (closing : payloads next.pending ≠ [] → ∃ front last slots,
      next.pending = front ++ [.sendAck last slots])
    (sender : next.sender = link.sender) (backward : next.backward = link.backward)
    (written : next.written = link.written) (assured : Assured link) : Assured next := by
  by_cases nothing : payloads next.pending = []
  · have delivered : deliveries next = deliveries link := by
      simp only [deliveries, nothing, idle, written]
      rfl
    rcases assured with known | ⟨last, listed, confirms⟩
    · exact .inl (by rw [sender, delivered]; exact known)
    · refine .inr ⟨last, ?_, by rw [delivered]; exact confirms⟩
      rw [inFlight_idle idle] at listed
      exact List.mem_append_left _ (backward ▸ listed)
  · obtain ⟨front, last, slots, closes⟩ := closing nothing
    refine .inr ⟨⟨next.written.length + (payloads front).length, true, last⟩, ?_, rfl, ?_⟩
    · rw [inFlight, closes, answersOf_closing]
      exact List.mem_append_right _ (List.mem_append_right _ (List.mem_singleton.mpr rfl))
    · simp [deliveries, closes, payloads]

/-- Only the loss of an answer can take the assurance away. -/
theorem assured_step {link next : Link} {label : LinkLabel} (permitted : KeepsAnswers label)
    (inv : LinkInv host input link) (assured : Assured link)
    (step : LinkStep host input link label next) : Assured next := by
  cases step with
  | scan ambient sender running ready scans =>
    obtain ⟨same, steps, _, ⟨base, _⟩, _⟩ := scan_keeps inv ambient
    obtain rfl : same = sender := Except.ok.inj (steps.symm.trans scans)
    rcases assured with known | confirmed
    · exact .inl (base.trans known)
    · exact .inr confirmed
  | select ambient reads answered sender last running ready canRead inputs serves =>
    obtain ⟨same, steps, kept, _, base, exited, _⟩ := inputPart_keeps inv ambient reads canRead
    obtain rfl : same = sender := Except.ok.inj (steps.symm.trans inputs)
    have reading : Assured { link with sender := same } := by
      rcases assured with known | confirmed
      · exact .inl (base.trans known)
      · exact .inr confirmed
    cases answered with
    | false =>
      obtain rfl := Except.ok.inj serves
      exact reading
    | true =>
      cases head : link.backward with
      | nil =>
        rw [if_pos rfl, head] at serves
        obtain rfl := Except.ok.inj serves
        simpa [Assured, Confirmed, inFlight, deliveries, head] using reading
      | cons answer rest =>
        rw [if_pos rfl, head] at serves
        obtain ⟨served, serving, _, _, _, moved, _⟩ :=
          socketPart_keeps kept (exited.trans running) ambient head
        obtain rfl : served = last := Except.ok.inj (serving.symm.trans serves)
        have flight : inFlight { link with sender := same } =
            answer :: (rest ++ answersOf link.arrived link.written.length link.pending) := by
          simp only [inFlight, head, List.cons_append]
        exact assured_answer kept flight reading moved rfl rfl
  | loseDatagram position => exact assured
  | duplicate position entry found => exact assured
  | arrive ambient position fate index datagram receiver events idle found recent
      possible handles =>
    obtain ⟨same, done, steps, _, closing, _⟩ := arrive_keeps inv idle
      (inv.forward _ (List.mem_of_getElem? found)) recent fate possible.noticed
      (possible.honest _ _) ambient
    obtain ⟨rfl, rfl⟩ : same = receiver ∧ done = events :=
      Prod.mk.inj (Except.ok.inj (steps.symm.trans handles))
    exact assured_arrival idle closing rfl rfl rfl assured
  | play event rest pending => exact (play_unmoved link event rest pending).assured.mpr assured
  | loseAnswer position => exact absurd permitted id

/-- The invariant of runs that lose no answer. -/
structure AssuredInv (host : Host) (input : Input) (link : Link) : Prop where
  inv : LinkInv host input link
  assured : Assured link

/-- A run that loses no answer leaves the sender assured. -/
theorem assured_run {first link : Link} (start : (linkSystem host input).initial first)
    (run : (linkSystem host input).Leads KeepsAnswers first link) : AssuredInv host input link := by
  obtain ⟨junk, other, clock, rfl⟩ := start
  have kept (one : Link) (label : LinkLabel) (next : Link) (permitted : KeepsAnswers label)
      (held : AssuredInv host input one) (step : LinkStep host input one label next) :
      AssuredInv host input next :=
    ⟨linkStep_keeps held.inv step, assured_step permitted held.inv held.assured step⟩
  exact System.leads_invariant kept run ⟨linkStart_inv host input junk other clock, .inl rfl⟩

/-- An assured sender can always move on. -/
theorem AssuredInv.recoverable {link : Link} (held : AssuredInv host input link)
    (running : link.sender.exited = false) : Recoverable host link := by
  obtain ⟨inv, assured⟩ := held
  have delivered := inv.delivered.2
  by_cases all : (deliveries link).length = link.sender.built.length
  case neg => exact .inl (by omega)
  rcases assured with known | ⟨answer, listed, positive, about⟩
  · rcases inv.sender.ended with ⟨unfinished, _⟩ | ⟨ended, _⟩
    · have limited := inv.limited
      refine .inr (.inr ⟨unfinished, [], inFlight link, rfl, ?_⟩)
      simp only [baseAfterAll, limitedAfterAll, List.foldl_nil]
      omega
    · have waiting := inv.sender.running running ended
      omega
  · exact .inr (.inl ⟨answer, listed, positive, about.trans all⟩)

end SelectiveRepeat
