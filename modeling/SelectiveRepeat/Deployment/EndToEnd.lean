import SelectiveRepeat.Deployment.Starvation
import SelectiveRepeat.Link.Delivery

/-!
# What holds of the whole deployment

With the simulator in between, whatever its options and whatever it does to the traffic,
the receiver writes a beginning of what the sender reads, and everything if the sender
exits; no program ever faults but by the simulator's division; and an input can be
transferred to its end exactly when no rate is negative and a delay comes with a jitter.
-/

namespace SelectiveRepeat

open Transition

/-- A run of the deployment, seen from the two ends, is a run of the link.

By the simulation rule for runs, from `deploymentStep_projects`; the joint invariant of
the link, which that lemma needs, holds because the link's state stays reachable. -/
theorem deployment_refines_link (host : Host) (input : Input) (network : Network)
    (before after : Deployment) (link : Link) (reached : (linkSystem host input).Reachable link)
    (projects : Projects host network before link)
    (runs : (deploymentSystem host input network).Runs before after) :
    ∃ later, (linkSystem host input).Runs link later ∧ Projects host network after later := by
  obtain ⟨later, run, _, kept⟩ := @System.leads_simulation _ _
    (deploymentSystem host input network) _ _ (linkSystem host input)
    (fun deployment link => (linkSystem host input).Reachable link ∧
      Projects host network deployment link) (fun _ => True) (fun _ => True) _ _ _
    (fun one label other image _ related step => by
      obtain ⟨later, run, kept⟩ :=
        deploymentStep_projects (reachable_linkInv related.1) related.2 step
      exact ⟨later, run, System.reachable_leads related.1 run, kept⟩) runs ⟨reached, projects⟩
  exact ⟨later, run, kept⟩

/-! ## Transfers that complete -/

/-- With options that let something through, an input can be transferred to its end. -/
theorem passable_completes (host : Host) {input : Input} {network : Network}
    (passable : Passable network.settings) {count : Nat} (finite : FiniteInput input count) :
    ∃ deployment, (deploymentSystem host input network).Reachable deployment ∧
      deployment.sender.exited = true ∧
      deployment.written = (List.range (count + 1)).map input.chunk := by
  obtain ⟨link, run, exited, written⟩ := recoverable_completes
    (linkStart_inv host input (fun _ => 0) (fun _ => 0) 0) rfl finite (start_recoverable _ _ _)
  obtain ⟨deployment, reached, mirrors⟩ := run_mirrored passable run
  obtain ⟨sim, rfl, _⟩ := mirrors.mirrored
  exact ⟨_, reached, exited, written⟩

/-- The sender, and a simulator that relays what it gets. -/
def plainNetwork : Network := ⟨plainLink, ⟨2, 40000⟩, by decide⟩

/-- Without loss, delay and damage the settings let datagrams through. -/
theorem plainNetwork_passable : Passable plainNetwork.settings :=
  ⟨by decide, by decide, by decide, .inl rfl⟩

/-- There is a run of the three programs that transfers one letter: the receiver has written it
and the end of the input, and the sender has exited. -/
theorem letter_transferred : ∃ deployment,
    (deploymentSystem zlibHost letterInput plainNetwork).Reachable deployment ∧
      deployment.sender.exited = true ∧ deployment.written = [[0x41], []] :=
  passable_completes zlibHost plainNetwork_passable letterInput_finite

/-- The transfer of one byte. -/
theorem deployment_refines_link_letter : ∃ (deployment : Deployment) (link : Link),
    deployment.sender.exited = true ∧ (linkSystem zlibHost letterInput).Reachable link ∧
      Projects zlibHost plainNetwork deployment link := by
  obtain ⟨deployment, ⟨_, ⟨junk, other, clock, reading, random, rfl⟩, runs⟩, exited, _⟩ :=
    letter_transferred
  have start : (linkSystem zlibHost letterInput).Reachable (linkStart junk other clock) :=
    System.reachable_initial ⟨junk, other, clock, rfl⟩
  obtain ⟨link, run, projects⟩ := deployment_refines_link zlibHost letterInput plainNetwork _
    deployment _ start (deploymentStart_projects zlibHost plainNetwork junk other clock reading
      random) runs
  exact ⟨deployment, link, exited, System.reachable_leads start run, projects⟩

/-- Whatever the simulator does, the receiver has written a beginning of what the sender
has read, and if the sender has exited, all of it to the end of the input.

The run projects to one of the link, whose state has the same sender and the same writes.
-/
theorem delivered_through_simulator (host : Host) (input : Input) (network : Network)
    (deployment : Deployment)
    (reached : (deploymentSystem host input network).Reachable deployment) :
    deployment.written <+: deployment.sender.chunks ∧
      (deployment.sender.exited = true → deployment.written = deployment.sender.chunks ∧
        ∃ front, deployment.sender.chunks = front ++ [[]] ∧ [] ∉ front) := by
  obtain ⟨link, reachedLink, projects⟩ := deployment_projects reached
  have inv := reachable_linkInv reachedLink
  rw [← projects.written, ← projects.sender]
  constructor
  · exact inv.written_prefix
  · intro exited
    exact inv.exit_written exited

/-- At the end of that run the receiver has written every chunk the sender has read. -/
theorem delivered_through_plainLink : ∃ deployment : Deployment,
    deployment.sender.exited = true ∧ deployment.written = deployment.sender.chunks := by
  obtain ⟨deployment, reached, exited, _⟩ := letter_transferred
  exact ⟨deployment, exited, ((delivered_through_simulator zlibHost letterInput plainNetwork
    deployment reached).2 exited).1⟩

/-! ## Faults -/

/-- No rate is negative after its remainder, and a delay comes with a jitter after theirs. -/
def Options.LetThrough (options : Options) : Prop :=
  0 ≤ options.lossRate.tmod 101 ∧ 0 ≤ options.cutRate.tmod 101 ∧ 0 ≤ options.errRate.tmod 101 ∧
    (options.delay.tmod intMax = 0 ∨ options.jitter.tmod intMax ≠ 0)

instance (options : Options) : Decidable options.LetThrough :=
  inferInstanceAs (Decidable (_ ∧ _))

/-- The settings made of parsed options are passable exactly where the options let datagrams
through. -/
theorem passable_iff (options : Options) (destAddr : SockAddr) :
    Passable (options.settings destAddr) ↔ options.LetThrough := by
  have loss := readintCap_le_iff options.lossRate
  have cut := readintCap_le_iff options.cutRate
  have err := readintCap_le_iff options.errRate
  have noDelay := readintCap_zero_iff options.delay
  have still := readintCap_zero_iff options.jitter
  constructor
  · intro passable
    refine ⟨loss.mp passable.loss, cut.mp passable.cut, err.mp passable.err, ?_⟩
    exact passable.divisible.imp noDelay.mp fun jitters isZero => jitters (still.mpr isZero)
  · rintro ⟨lossOk, cutOk, errOk, divisible⟩
    refine ⟨loss.mpr lossOk, cut.mpr cutOk, err.mpr errOk, ?_⟩
    exact divisible.imp noDelay.mpr fun jitters isZero => jitters (still.mp isZero)

/-- Whatever the finite input and the options of the simulator, the deployment can
transfer the input to its end if and only if no rate is negative after its remainder, and
a delay comes with a jitter. Otherwise the sender exits in no run.

With such options a generator can spare every datagram, and a lossless run of the link is
mirrored. Without them every datagram is dropped, damaged or undeliverable, and the
receiver is starved. -/
theorem transfer_completes_iff (host : Host) (input : Input) (count : Nat)
    (finite : FiniteInput input count) (options : Options) (source destAddr : SockAddr)
    (apart : source ≠ destAddr) :
    ((∃ deployment, (deploymentSystem host input
        ⟨options.settings destAddr, source, apart⟩).Reachable deployment ∧
      deployment.sender.exited = true ∧
      deployment.written = (List.range (count + 1)).map input.chunk) ↔ options.LetThrough) ∧
    (¬ options.LetThrough → ∀ deployment, (deploymentSystem host input
        ⟨options.settings destAddr, source, apart⟩).Reachable deployment →
      deployment.sender.exited = false) := by
  have never (closed : ¬ options.LetThrough) (deployment : Deployment)
      (reached : (deploymentSystem host input
        ⟨options.settings destAddr, source, apart⟩).Reachable deployment) :
      deployment.sender.exited = false :=
    hopeless_never_exits (hopeless_of_not_passable fun passable =>
      closed ((passable_iff options destAddr).mp passable)) reached
  refine ⟨⟨?_, ?_⟩, never⟩
  · rintro ⟨deployment, reached, exited, _⟩
    by_contra closed
    rw [never closed deployment reached] at exited
    cases exited
  · exact fun through =>
      passable_completes host ((passable_iff options destAddr).mpr through) finite

/-- One byte over a simulator that loses, cuts and corrupts all it can, with a delay. -/
theorem letter_completes_harshly : ∃ deployment, (deploymentSystem zlibHost letterInput
      ⟨Options.settings ⟨5000, 1, 100, 100, 100⟩ ⟨1, 12345⟩, ⟨2, 40000⟩, by decide⟩).Reachable
        deployment ∧
    deployment.sender.exited = true ∧
    deployment.written = (List.range (1 + 1)).map letterInput.chunk :=
  (transfer_completes_iff zlibHost letterInput 1 letterInput_finite ⟨5000, 1, 100, 100, 100⟩
    ⟨2, 40000⟩ ⟨1, 12345⟩ (by decide)).1.mpr (by decide)

end SelectiveRepeat
