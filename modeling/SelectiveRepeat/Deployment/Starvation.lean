import SelectiveRepeat.Deployment.Ferry

/-!
# Options under which nothing is transferred

If every datagram is dropped, every one damaged, or none can be delayed without a crash,
then the receiver never gets a datagram it accepts. It writes nothing, and the sender
never exits.
-/

namespace SelectiveRepeat

open PriorityBag Transition

/-- No datagram gets through untouched. -/
def Hopeless (settings : Settings) : Prop :=
  Blocked settings ∨ 100 < settings.cutRate.toNat ∨ 100 < settings.errRate.toNat

/-- Settings that are not passable are hopeless. -/
theorem hopeless_of_not_passable {settings : Settings} (closed : ¬ Passable settings) :
    Hopeless settings := by
  by_contra hope
  rw [Hopeless, Blocked, not_or, not_or, not_or] at hope
  obtain ⟨⟨loss, delays⟩, cut, err⟩ := hope
  refine closed ⟨not_lt.mp loss, not_lt.mp cut, not_lt.mp err, ?_⟩
  by_contra divides
  rw [not_or, not_not] at divides
  exact delays divides

/-- The receiver does not accept the bytes. -/
def Spoiled (host : Host) (bytes : List Byte) : Prop := acceptedPacket host (some bytes) = none

variable {host : Host} {input : Input} {network : Network} {deployment : Deployment} {link : Link}

/-- A rate over 100 spoils every datagram. -/
theorem damage_spoils (inv : LinkInv host input link) {settings : Settings}
    (high : 100 < settings.cutRate.toNat ∨ 100 < settings.errRate.toNat) {index : Nat}
    {datagram : List Byte} (listed : (index, datagram) ∈ link.forward) (random : Random) :
    Spoiled host (damage settings datagram random).1 := by
  have short : Spoiled host (datagram.take 4) :=
    accepted_short host _ (by rw [List.length_take]; omega)
  obtain ⟨_, crc, rfl⟩ := inv.known (inv.forward _ listed)
  have valid := chunk_valid index (input.chunk index) crc (input.bounded index)
  have inverted := (@invertLast_rejected host _ valid.readable valid.bounded).2
  simp only [damage]
  split
  · exact short
  · next spared =>
    rcases high with cut | err
    · exact absurd (hits_always cut random) spared
    · rw [if_pos (hits_always err _)]
      exact inverted

/-- Nothing on its way to the receiver can be accepted, and nothing was. -/
structure Starved (host : Host) (deployment : Deployment) : Prop where
  queue : ∃ content, QueueHolds slotKey deployment.sim.pktQueue content ∧
    ∀ slot ∈ content, Spoiled host slot.buf
  toReceiver : ∀ entry ∈ deployment.toReceiver, Spoiled host entry.2
  pending : payloads deployment.pending = []
  written : deployment.written = []

/-- At the start nothing waits in the simulator and nothing has reached the receiver. -/
theorem deploymentStart_starved (host : Host) (junk other : Nat → Byte) (clock : Int)
    (reading : Timespec) (random : Random) :
    Starved host (deploymentStart junk other clock reading random) where
  queue := ⟨0, minqNew_holds slotKey, by simp⟩
  toReceiver := by simp [deploymentStart]
  pending := rfl
  written := rfl

/-- A part of a pass that sends nothing but what is spoiled. -/
theorem Starved.passed (starved : Starved host deployment) {status : ExitStatus}
    {next : Simulator Mark} {outcomes : List (Outcome Mark)} {content : Multiset (PktSlot Mark)}
    (holds : QueueHolds slotKey next.pktQueue content)
    (waiting : ∀ slot ∈ content, Spoiled host slot.buf)
    (sent : ∀ mark data, .forwarded mark data ∈ outcomes → Spoiled host data) (awake : Bool) :
    Starved host (deployment.after awake (status, next, outcomes)) := by
  refine { starved with queue := ⟨content, holds, waiting⟩, toReceiver := ?_ }
  intro entry listed
  simp only [Deployment.after, List.mem_append, List.mem_filterMap] at listed
  rcases listed with earlier | ⟨outcome, member, carried⟩
  · exact starved.toReceiver entry earlier
  · cases outcome with
    | forwarded mark data =>
      obtain rfl := Option.some.inj carried
      exact sent mark data member
    | lost mark => cases carried
    | relayed mark data => cases carried

/-- A simulator whose queue holds only spoiled packets sends only such when it wakes. -/
theorem wake_starved (starved : Starved host deployment) {conditions : Conditions Mark}
    {result : ExitStatus × Simulator Mark × List (Outcome Mark)}
    (wakes : wakePart conditions deployment.sim = .ok result) :
    Starved host (deployment.after true result) := by
  obtain ⟨content, holds, spoiled⟩ := starved.queue
  rcases wakePart_exact conditions holds with ⟨_, runs⟩ |
    ⟨reading, status, queue, delivered, rest, _, runs, holdsNext, done⟩
  · obtain rfl := Except.ok.inj (runs.symm.trans wakes)
    exact starved.passed holds spoiled (by simp) true
  · obtain rfl := Except.ok.inj (runs.symm.trans wakes)
    have split := done.takes.split
    refine starved.passed holdsNext ?_ ?_ true
    · intro slot listed
      exact spoiled slot (by rw [split]; simp [listed])
    · intro mark data sent
      obtain ⟨slot, isDelivered, same⟩ := List.mem_map.mp sent
      obtain ⟨rfl, rfl⟩ : slot.tag = mark ∧ slot.buf = data := by simpa using same
      exact spoiled slot (by rw [split]; simp [isDelivered])

/-- What the simulator reads changes nothing the receiver sees. -/
theorem Starved.taken (starved : Starved host deployment) (incoming : Incoming) :
    Starved host (deployment.taken incoming) := by
  cases incoming with
  | nothing => exact starved
  | alien => exact starved
  | datagram => exact { starved with }
  | answer => exact { starved with }

/-- Under hopeless settings, what the simulator reads is dropped, ends its loop, or is spoiled
before it waits or is handed on. -/
theorem serve_starved (inv : LinkInv host input link)
    (projects : Projects host network deployment link) (hopeless : Hopeless network.settings)
    (starved : Starved host deployment) {conditions : Conditions Mark} {incoming : Incoming}
    {result : ExitStatus × Simulator Mark × List (Outcome Mark)}
    (possible : incoming.Possible network deployment conditions.readable)
    (serves : servePart network.settings
      { conditions with received := deployment.received network incoming } deployment.sim =
        .ok result) :
    Starved host ((deployment.taken incoming).after false result) := by
  obtain ⟨content, holds, spoiled⟩ := starved.queue
  have taken := starved.taken incoming
  rw [servePart] at serves
  split at serves
  · rcases processIncomingPkt_cases network.settings
      { conditions with received := deployment.received network incoming } holds with
      ⟨status, next, outcomes, after, runs, holdsNext, processed⟩ | ⟨crashes, _⟩
    · obtain rfl := Except.ok.inj (runs.symm.trans serves)
      cases processed with
      | nothing => exact taken.passed holdsNext spoiled (by simp) false
      | alien => exact taken.passed holdsNext spoiled (by simp) false
      | relayed => exact taken.passed holdsNext spoiled (by simp) false
      | unrelayed => exact taken.passed holdsNext spoiled (by simp) false
      | linked got source linked =>
        obtain ⟨position, _, _, _, listed⟩ := linked_datagram inv projects possible got source
        cases linked with
        | dropped => exact taken.passed holdsNext spoiled (by simp) false
        | broken => exact taken.passed holdsNext spoiled (by simp) false
        | delayed _ stays delays applies damaged =>
          rcases hopeless with blocked | high
          · rcases blocked with loss | ⟨_, still⟩
            · simp [hits_always loss] at stays
            · exact absurd still applies.1
          · refine taken.passed holdsNext ?_ (by simp) false
            intro slot waits
            rcases Multiset.mem_cons.mp waits with rfl | earlier
            · rw [damaged]
              exact damage_spoils inv high listed _
            · exact spoiled slot earlier
        | forwarded _ stays noDelay damaged =>
          rcases hopeless with blocked | high
          · rcases blocked with loss | ⟨delays, _⟩
            · simp [hits_always loss] at stays
            · exact absurd noDelay delays
          · refine taken.passed holdsNext spoiled ?_ false
            intro mark data sent
            obtain ⟨_, rfl⟩ : mark = _ ∧ data = _ := by simpa using sent
            rw [damaged]
            exact damage_spoils inv high listed _
    · simp [crashes] at serves
  · obtain rfl := Except.ok.inj serves
    exact taken.passed holds spoiled (by simp) false

/-- Bytes that are not accepted make the receiver write nothing. -/
theorem spoiled_quiet (inv : LinkInv host input link) (idle : link.pending = [])
    {bytes : List Byte} (spoiled : Spoiled host bytes) {ambient : Ambient}
    {receiver : RecvState Pkt} {events : List (Event Pkt)}
    (handles : selRepeatReadBody id host Allocator.values ambient (some bytes) link.receiver =
      .ok (receiver, events)) : payloads events = [] := by
  obtain ⟨before, represents, _⟩ := inv.represented idle
  obtain ⟨next, sent, passes, passed, _⟩ :=
    selRepeatReadBody_passes host Allocator.values ambient (some bytes) represents
  obtain ⟨_, rfl⟩ : next = receiver ∧ sent = events := by
    simpa using passes.symm.trans handles
  have output := passed.output
  rw [show acceptedPacket host (some bytes) = none from spoiled, reassemble] at output
  exact List.self_eq_append_right.mp output

/-- A starved deployment stays so: all that reaches the receiver is spoiled, so that it has
nothing to write. One case for each step. -/
theorem deploymentStep_starved {label : DeploymentLabel} {next : Deployment}
    (inv : LinkInv host input link) (projects : Projects host network deployment link)
    (hopeless : Hopeless network.settings) (starved : Starved host deployment)
    (step : DeploymentStep host input network deployment label next) : Starved host next := by
  cases step with
  | scan => exact { starved with }
  | select => exact { starved with }
  | wake conditions result running asleep wakes => exact wake_starved starved wakes
  | serve conditions incoming result running woken possible serves =>
    exact serve_starved inv projects hopeless starved possible serves
  | arrive ambient position index bytes receiver events idle found recent handles =>
    have spoiled := starved.toReceiver _ (List.mem_of_getElem? found)
    rw [← projects.pending] at idle
    rw [← projects.receiver] at handles
    exact { starved with
      toReceiver := fun entry listed => starved.toReceiver entry (List.mem_of_mem_eraseIdx listed)
      pending := spoiled_quiet inv idle spoiled handles }
  | perform event rest pending =>
    have quiet := starved.pending
    rw [pending] at quiet
    cases event with
    | writePayload payload => simp [payloads] at quiet
    | sendAck => exact { starved with pending := quiet }
    | sendNack => exact { starved with pending := quiet }
    | pktDel => exact { starved with pending := quiet }
    | free => exact { starved with pending := quiet }
  | loseToSim => exact { starved with }
  | duplicateToSim => exact { starved with }
  | loseToReceiver position =>
    exact { starved with
      toReceiver := fun entry listed => starved.toReceiver entry (List.mem_of_mem_eraseIdx listed) }
  | duplicateToReceiver position entry found =>
    refine { starved with toReceiver := fun one listed => ?_ }
    rcases List.mem_append.mp listed with earlier | copy
    · exact starved.toReceiver one earlier
    · rw [List.mem_singleton.mp copy]
      exact starved.toReceiver entry (List.mem_of_getElem? found)
  | loseFromReceiver => exact { starved with }
  | loseToSender => exact { starved with }

/-- In a hopeless deployment nothing is ever written. -/
theorem hopeless_starves (hopeless : Hopeless network.settings)
    (reached : (deploymentSystem host input network).Reachable deployment) :
    Starved host deployment ∧ ∃ link, (linkSystem host input).Reachable link ∧
      Projects host network deployment link := by
  refine @System.reachable_invariant _ _ _ (fun one => Starved host one ∧
    ∃ link, (linkSystem host input).Reachable link ∧ Projects host network one link) _ ?_ ?_ reached
  · rintro first ⟨junk, other, clock, reading, random, rfl⟩
    exact ⟨deploymentStart_starved host junk other clock reading random,
      linkStart junk other clock, System.reachable_initial ⟨junk, other, clock, rfl⟩,
      deploymentStart_projects host network junk other clock reading random⟩
  · rintro one label other ⟨starved, link, reachedLink, projects⟩ step
    have inv := reachable_linkInv reachedLink
    obtain ⟨later, run, kept⟩ := deploymentStep_projects inv projects step
    exact ⟨deploymentStep_starved inv projects hopeless starved step, later,
      System.reachable_leads reachedLink run, kept⟩

/-- The sender never exits then: even an empty input has an end to be written. -/
theorem hopeless_never_exits (hopeless : Hopeless network.settings)
    (reached : (deploymentSystem host input network).Reachable deployment) :
    deployment.sender.exited = false := by
  obtain ⟨starved, link, reachedLink, projects⟩ := hopeless_starves hopeless reached
  have inv := reachable_linkInv reachedLink
  by_contra stays
  have exited : link.sender.exited = true := by
    rw [projects.sender]
    exact Bool.not_eq_false _ |>.mp stays
  obtain ⟨written, flushed⟩ := inv.exit_flushed exited
  rw [written, projects.written, starved.written, List.length_nil] at flushed
  rcases inv.sender.ended with ⟨unfinished, _⟩ | ⟨_, front, last, _⟩
  · have ended := (inv.sender.exited exited).2
    omega
  · have chunks := congrArg List.length (inv.chunks.symm.trans last)
    rw [List.length_map, List.length_range, List.length_append, List.length_singleton] at chunks
    omega

end SelectiveRepeat
