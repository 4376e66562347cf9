import SelectiveRepeat.Link.Progress

/-!
# Running to the end of the input

When the input ends, the goal is that everything read is written and the sender has
exited. It can be reached without further losses from every state in which something
can still move the sender's window: a packet that is not delivered, an acknowledgement
of everything on its way, or room for another packet after some answers on their way.
-/

namespace SelectiveRepeat

open Transition Reassembly

/-- The input ends after `count` chunks. -/
def FiniteInput (input : Input) (count : Nat) : Prop :=
  (∀ index < count, input.chunk index ≠ []) ∧ input.chunk count = []

/-- The whole input is written, with its end, and the sender has exited. -/
def Complete (input : Input) (count : Nat) (link : Link) : Prop :=
  link.sender.exited = true ∧ link.written = (List.range (count + 1)).map input.chunk

/-- The oldest packet of the window after some answers were read. -/
def baseAfterAll (base : Nat) (answers : List Answer) : Nat :=
  answers.foldl (fun base answer => answer.baseAfter base) base

/-- The advertised window after some answers were read. -/
def limitedAfterAll (host : Host) (limited : Int) (answers : List Answer) : Int :=
  answers.foldl (fun _ answer => (answer.window host : Int)) limited

/-- Something can still move the window of the sender. -/
def Recoverable (host : Host) (link : Link) : Prop :=
  (deliveries link).length < link.sender.built.length ∨
    (∃ answer ∈ inFlight link, answer.positive = true ∧
      answer.about = link.sender.built.length) ∨
    (link.sender.state.finish = 0 ∧ ∃ front back, inFlight link = front ++ back ∧
      ((link.sender.built.length - baseAfterAll link.sender.base front : Nat) : Int) <
        limitedAfterAll host link.sender.state.limitedWindowSize front)

variable {host : Host} {input : Input}

/-- The sender stops reading at the end of the input, and not before. -/
theorem LinkInv.read {link : Link} (inv : LinkInv host input link) {count : Nat}
    (finite : FiniteInput input count) :
    (link.sender.state.finish = 0 ∧ link.sender.built.length ≤ count) ∨
      (link.sender.state.finish = 1 ∧ link.sender.built.length = count + 1) := by
  have chunks := inv.chunks
  rcases inv.sender.ended with ⟨unfinished, unended⟩ | ⟨ended, front, last, unended⟩
  · refine .inl ⟨unfinished, ?_⟩
    by_contra longer
    refine unended ?_
    rw [chunks, List.mem_map]
    exact ⟨count, List.mem_range.mpr (by omega), finite.2⟩
  · refine .inr ⟨ended, ?_⟩
    have size : link.sender.built.length = front.length + 1 := by
      rw [inv.sender.counted, last, List.length_append, List.length_singleton]
    rw [size, List.range_succ, List.map_append, last] at chunks
    obtain ⟨begins, ends⟩ := List.append_inj chunks (by simp)
    have empty : input.chunk front.length = [] := by simpa using ends.symm
    have least : count ≤ front.length := by
      by_contra early
      exact finite.1 front.length (by omega) empty
    have most : front.length ≤ count := by
      by_contra late
      refine unended ?_
      rw [begins, List.mem_map]
      exact ⟨count, List.mem_range.mpr (by omega), finite.2⟩
    omega

/-- When the sender has exited, all it built is delivered, and nothing is left to play. -/
theorem LinkInv.exit_flushed {link : Link} (inv : LinkInv host input link)
    (exited : link.sender.exited = true) :
    deliveries link = link.written ∧ (deliveries link).length = link.sender.built.length := by
  have base := (inv.sender.exited exited).1
  have bounded := inv.delivered.2
  have heard := inv.heard
  have size : (deliveries link).length = link.written.length + (payloads link.pending).length :=
    List.length_append
  have nothing : payloads link.pending = [] := List.length_eq_zero_iff.mp (by omega)
  exact ⟨by rw [deliveries, nothing, List.append_nil], by omega⟩

/-- What is written is a beginning of what is delivered, and that one of what was read. -/
theorem LinkInv.written_prefix {link : Link} (inv : LinkInv host input link) :
    link.written <+: link.sender.chunks := by
  obtain ⟨delivered, bounded⟩ := inv.delivered
  have front : link.written <+: deliveries link := List.prefix_append _ _
  have back : deliveries link <+: link.sender.chunks := by
    rw [inv.chunks, delivered]
    refine List.IsPrefix.map input.chunk ?_
    rw [← Nat.min_eq_left bounded, ← List.take_range]
    exact List.take_prefix _ _
  exact front.trans back

/-- When the sender has exited, everything it read is written, and ends with the empty
chunk of the end of the input. -/
theorem LinkInv.exit_written {link : Link} (inv : LinkInv host input link)
    (exited : link.sender.exited = true) : link.written = link.sender.chunks ∧
      ∃ front, link.sender.chunks = front ++ [[]] ∧ [] ∉ front := by
  obtain ⟨base, ended⟩ := inv.sender.exited exited
  obtain ⟨written, flushed⟩ := inv.exit_flushed exited
  constructor
  · rw [← written, inv.delivered.1, flushed, inv.chunks]
  · rcases inv.sender.ended with ⟨unfinished, _⟩ | ⟨_, front, last, unended⟩
    · omega
    · exact ⟨front, last, unended⟩

/-- When the sender has exited, everything is written. -/
theorem LinkInv.complete {link : Link} (inv : LinkInv host input link) {count : Nat}
    (finite : FiniteInput input count) (exited : link.sender.exited = true) :
    Complete input count link := by
  obtain ⟨base, ended⟩ := inv.sender.exited exited
  obtain ⟨written, flushed⟩ := inv.exit_flushed exited
  have all : link.sender.built.length = count + 1 := by
    rcases inv.read finite with ⟨unfinished, _⟩ | ⟨_, all⟩
    · omega
    · exact all
  refine ⟨exited, ?_⟩
  rw [← written, inv.delivered.1, flushed, all]

/-- Answers in front of an acknowledgement of everything can be read, and it too. Then
the sender exits, or the window is empty. -/
theorem readConfirmation {link : Link} (inv : LinkInv host input link)
    (running : link.sender.exited = false)
    (confirmed : ∃ answer ∈ inFlight link, answer.positive = true ∧
      answer.about = link.sender.built.length) :
    ∃ next, (linkSystem host input).Leads Lossless link next ∧ LinkInv host input next ∧
      next.sender.built = link.sender.built ∧ deliveries next = deliveries link ∧
      (next.sender.exited = true ∨ (next.sender.exited = false ∧
        next.sender.state.finish = 0 ∧ next.sender.base = next.sender.built.length)) := by
  obtain ⟨answer, listed, positive, all⟩ := confirmed
  induction flight : inFlight link generalizing link with
  | nil => simp [flight] at listed
  | cons first rest inductionHypothesis =>
    obtain ⟨next, leads, kept, built, base, _, finish, remaining, delivered, exits⟩ :=
      readAnswer inv running flight
    by_cases last : first.positive = true ∧ first.about = link.sender.built.length
    · refine ⟨next, leads, kept, built, delivered, ?_⟩
      rcases inv.sender.ended with ⟨unfinished, _⟩ | ⟨ended, _⟩
      · refine .inr ⟨?_, finish.trans unfinished, ?_⟩
        · rw [← Bool.not_eq_true, exits, unfinished]
          simp
        · rw [base, Answer.baseAfter, if_pos last.1, last.2, built]
      · exact .inl (exits.mpr ⟨last.1, last.2, ended⟩)
    · have runs : next.sender.exited = false := by
        rw [← Bool.not_eq_true, exits]
        exact fun all => last ⟨all.1, all.2.1⟩
      have later : answer ∈ inFlight next := by
        rw [remaining]
        rcases List.mem_cons.mp (flight ▸ listed) with rfl | later
        · exact absurd ⟨positive, all⟩ last
        · exact later
      obtain ⟨final, more, after, same, still, ends⟩ :=
        inductionHypothesis kept runs later (by rw [built]; exact all) remaining
      exact ⟨final, System.leads_trans leads more, after, same.trans built,
        still.trans delivered, ends⟩

/-- As long as the input has not ended, any number of answers can be read. -/
theorem readAnswers {link : Link} (inv : LinkInv host input link)
    (running : link.sender.exited = false) (unfinished : link.sender.state.finish = 0)
    (front back : List Answer) (flight : inFlight link = front ++ back) :
    ∃ next, (linkSystem host input).Leads Lossless link next ∧ LinkInv host input next ∧
      next.sender.exited = false ∧ next.sender.state.finish = 0 ∧
      next.sender.built = link.sender.built ∧ deliveries next = deliveries link ∧
      next.sender.base = baseAfterAll link.sender.base front ∧
      next.sender.state.limitedWindowSize =
        limitedAfterAll host link.sender.state.limitedWindowSize front := by
  induction front generalizing link with
  | nil => exact ⟨link, System.leads_refl _ link, inv, running, unfinished, rfl, rfl, rfl, rfl⟩
  | cons first rest inductionHypothesis =>
    obtain ⟨next, leads, kept, built, base, limited, finish, remaining, delivered, exits⟩ :=
      readAnswer inv running flight
    have runs : next.sender.exited = false := by
      rw [← Bool.not_eq_true, exits, unfinished]
      simp
    obtain ⟨last, more, after, still, ended, same, all, bases, limits⟩ :=
      inductionHypothesis kept runs (finish.trans unfinished) remaining
    refine ⟨last, System.leads_trans leads more, after, still, ended, same.trans built,
      all.trans delivered, ?_, ?_⟩
    · rw [bases, base]
      rfl
    · rw [limits, limited]
      rfl

/-- With an empty window and an open input, another packet can be read, which is then
missing at the receiver. -/
theorem readMissing {link : Link} (inv : LinkInv host input link)
    (running : link.sender.exited = false) (unfinished : link.sender.state.finish = 0)
    (room : ((link.sender.built.length - link.sender.base : Nat) : Int) <
      link.sender.state.limitedWindowSize) :
    ∃ next, (linkSystem host input).Leads Lossless link next ∧ LinkInv host input next ∧
      next.sender.exited = false ∧ Recoverable host next ∧
      next.sender.built.length = link.sender.built.length + 1 := by
  obtain ⟨next, leads, kept, runs, longer, delivered, _⟩ := readMore inv running unfinished room
  refine ⟨next, leads, kept, runs, .inl ?_, longer⟩
  have bounded := inv.delivered.2
  rw [delivered, longer]
  omega

/-- Once everything is confirmed, the run ends or reads more. -/
theorem confirmed_progress {link : Link} (inv : LinkInv host input link)
    (running : link.sender.exited = false)
    (confirmed : ∃ answer ∈ inFlight link, answer.positive = true ∧
      answer.about = link.sender.built.length) :
    ∃ next, (linkSystem host input).Leads Lossless link next ∧ LinkInv host input next ∧
      (next.sender.exited = true ∨ (next.sender.exited = false ∧ Recoverable host next ∧
        next.sender.built.length = link.sender.built.length + 1)) := by
  obtain ⟨middle, leads, kept, built, _, exited | ⟨runs, unfinished, empty⟩⟩ :=
    readConfirmation inv running confirmed
  · exact ⟨middle, leads, kept, .inl exited⟩
  · have limited := kept.limited
    obtain ⟨next, more, after, still, recoverable, longer⟩ :=
      readMissing kept runs unfinished (by rw [empty]; omega)
    exact ⟨next, System.leads_trans leads more, after,
      .inr ⟨still, recoverable, by rw [longer, built]⟩⟩

/-- One round from a recoverable state: everything is delivered and confirmed, and then
the sender exits or reads one more chunk. -/
theorem recoverable_round {link : Link} (inv : LinkInv host input link)
    (running : link.sender.exited = false) (recoverable : Recoverable host link) :
    ∃ next, (linkSystem host input).Leads Lossless link next ∧ LinkInv host input next ∧
      (next.sender.exited = true ∨ (next.sender.exited = false ∧ Recoverable host next ∧
        next.sender.built.length = link.sender.built.length + 1)) := by
  rcases recoverable with missing | confirmed | ⟨unended, front, back, flight, room⟩
  · obtain ⟨middle, leads, kept, runs, built, _, all, answer, listed, positive, about⟩ :=
      catchUp inv running missing
    obtain ⟨next, more, after, ends⟩ :=
      confirmed_progress kept runs ⟨answer, listed, positive, about.trans all⟩
    exact ⟨next, System.leads_trans leads more, after, by rwa [built] at ends⟩
  · exact confirmed_progress inv running confirmed
  · obtain ⟨middle, leads, kept, runs, unended, built, _, bases, limits⟩ :=
      readAnswers inv running unended front back flight
    obtain ⟨next, more, after, still, recoverable, longer⟩ :=
      readMissing kept runs unended (by rw [built, bases, limits]; exact room)
    exact ⟨next, System.leads_trans leads more, after,
      .inr ⟨still, recoverable, by rw [longer, built]⟩⟩

/-- A state with a way out. -/
structure Ongoing (host : Host) (input : Input) (link : Link) : Prop where
  inv : LinkInv host input link
  running : link.sender.exited = false
  recoverable : Recoverable host link

/-- From a recoverable state the run can be completed without further losses, round by
round: each one that does not end leaves fewer chunks to read. -/
theorem recoverable_completes {link : Link} (inv : LinkInv host input link)
    (running : link.sender.exited = false) {count : Nat} (finite : FiniteInput input count)
    (recoverable : Recoverable host link) :
    ∃ last, (linkSystem host input).Leads Lossless link last ∧ Complete input count last := by
  have progress (one : Link) (ongoing : Ongoing host input one) : ∃ next,
      (linkSystem host input).Leads Lossless one next ∧ (Complete input count next ∨
        (Ongoing host input next ∧
          count + 1 - next.sender.built.length < count + 1 - one.sender.built.length)) := by
    obtain ⟨next, leads, after, exited | ⟨still, recoverable, longer⟩⟩ :=
      recoverable_round ongoing.inv ongoing.running ongoing.recoverable
    · exact ⟨next, leads, .inl (after.complete finite exited)⟩
    · have bounded := after.read finite
      exact ⟨next, leads, .inr ⟨⟨after, still, recoverable⟩, by omega⟩⟩
  exact System.descent _ progress link ⟨inv, running, recoverable⟩

/-- Before the first pass everything is still possible. -/
theorem start_recoverable (junk other : Nat → Byte) (clock : Int) :
    Recoverable host (linkStart junk other clock) := by
  refine .inr (.inr ⟨rfl, [], [], rfl, ?_⟩)
  simp [linkStart, sendRunStart, sendStart, baseAfterAll, limitedAfterAll]

end SelectiveRepeat
