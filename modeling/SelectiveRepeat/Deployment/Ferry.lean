import SelectiveRepeat.Deployment.Projection

/-!
# Passing everything on

With options that do not hit every datagram, the simulator can pass on whatever it gets,
in a few passes and with no change. Then the deployment can do whatever the link can do
without losses: a run of it mirrors a run of the link, step by step, so that a finite
input can be transferred to its end.
-/

namespace SelectiveRepeat

open Transition

/-- The options let some datagrams through untouched. -/
structure Passable (settings : Settings) : Prop where
  loss : settings.lossRate.toNat ≤ 100
  cut : settings.cutRate.toNat ≤ 100
  err : settings.errRate.toNat ≤ 100
  divisible : settings.delay = 0 ∨ settings.jitter ≠ 0

/-- Luck depends on the numbers drawn from here on only. -/
theorem Lucky.same {random next : Random} (lucky : Lucky random)
    (draws : next.draws = random.draws) : Lucky next := by
  intro index
  rw [draws]
  exact lucky index

/-- A lucky datagram is not damaged. -/
theorem Passable.spares {settings : Settings} (passable : Passable settings) {random : Random}
    (lucky : Lucky random) (datagram : List Byte) :
    (damage settings datagram random).1 = datagram := by
  have cut := lucky_misses lucky passable.cut
  have err := lucky_misses (lucky.same (hits_draws settings.cutRate random)) passable.err
  simp [damage, cut, err]

variable {host : Host} {input : Input} {network : Network} {deployment : Deployment}

/-- The simulator with nothing to send, and a generator that spares everything. -/
structure Restful (network : Network) (sim : Simulator Mark) : Prop where
  holds : QueueHolds slotKey sim.pktQueue 0
  lucky : Lucky sim.random
  source : sim.hasSourceAddr = true → sim.srcAddr = network.source

/-- A datagram of the sender counts as one of the source: a simulator at rest knows nobody else as
such. -/
theorem Restful.fromSource {sim : Simulator Mark} (restful : Restful network sim) :
    FromSource network.settings sim network.source := by
  refine ⟨network.apart, ?_⟩
  rw [trackSource]
  split
  · next known => exact restful.source known
  · rfl

/-- The state between the two parts of a pass or before one, as far as passes change it. -/
def Deployment.passing (deployment : Deployment) (awake : Bool)
    (toSim toReceiver : List (Nat × List Byte)) (fromReceiver toSender : List Answer)
    (sim : Simulator Mark) : Deployment :=
  { deployment with
    toSim := toSim
    toReceiver := toReceiver
    fromReceiver := fromReceiver
    toSender := toSender
    sim := sim
    status := .success
    awake := awake }

variable {toSim toReceiver : List (Nat × List Byte)} {fromReceiver toSender : List Answer}
  {sim next : Simulator Mark} {outcomes : List (Outcome Mark)} {seconds : Int}

/-- The first part of a calm pass. -/
theorem passing_wakes (wakes : wakePart (calm seconds none) sim = .ok (.success, next, outcomes)) :
    (deploymentSystem host input network).Runs
      (deployment.passing false toSim toReceiver fromReceiver toSender sim)
      (deployment.passing true toSim (toReceiver ++ outcomes.filterMap Outcome.carried)
        fromReceiver (toSender ++ outcomes.filterMap Outcome.answered) next) :=
  System.leads_single (.wake (calm seconds none)) trivial
    (DeploymentStep.wake (deployment.passing false toSim toReceiver fromReceiver toSender sim)
      (calm seconds none) (.success, next, outcomes) rfl rfl wakes)

/-- The second part, on a datagram of the sender. -/
theorem passing_serves {index : Nat} {datagram : List Byte} {rest : List (Nat × List Byte)}
    (serves : servePart network.settings
      (calm seconds (some (network.source, ⟨index, false⟩, datagram))) sim =
        .ok (.success, next, outcomes)) :
    (deploymentSystem host input network).Runs
      (deployment.passing true ((index, datagram) :: rest) toReceiver fromReceiver toSender sim)
      (deployment.passing false rest (toReceiver ++ outcomes.filterMap Outcome.carried)
        fromReceiver (toSender ++ outcomes.filterMap Outcome.answered) next) :=
  System.leads_single (.serve (calm seconds none) (.datagram 0)) trivial
    (DeploymentStep.serve
      (deployment.passing true ((index, datagram) :: rest) toReceiver fromReceiver toSender sim)
      (calm seconds none) (.datagram 0) (.success, next, outcomes) rfl rfl rfl serves)

/-- The second part, on an answer of the receiver. -/
theorem passing_answers {answer : Answer} {rest : List Answer}
    (serves : servePart network.settings (calm seconds (some (network.settings.destAddr,
      ⟨answer.about, answer.positive⟩, answer.datagram))) sim = .ok (.success, next, outcomes)) :
    (deploymentSystem host input network).Runs
      (deployment.passing true toSim toReceiver (answer :: rest) toSender sim)
      (deployment.passing false toSim (toReceiver ++ outcomes.filterMap Outcome.carried)
        rest (toSender ++ outcomes.filterMap Outcome.answered) next) :=
  System.leads_single (.serve (calm seconds none) .answer) trivial
    (DeploymentStep.serve
      (deployment.passing true toSim toReceiver (answer :: rest) toSender sim)
      (calm seconds none) .answer (.success, next, outcomes) rfl rfl rfl serves)

/-- The second part, with nothing at the socket. -/
theorem passing_rests :
    (deploymentSystem host input network).Runs
      (deployment.passing true toSim toReceiver fromReceiver toSender sim)
      (deployment.passing false toSim toReceiver fromReceiver toSender sim) := by
  have ignored : servePart network.settings (calm 0 none) sim = .ok (.success, sim, []) := by
    rw [servePart, if_pos (by rfl)]
    exact processIncomingPkt_ignored rfl (by intro sender mark bytes found; cases found)
  have step : DeploymentStep host input network
      (deployment.passing true toSim toReceiver fromReceiver toSender sim)
      (.serve (calm 0 none) .nothing)
      (deployment.passing false toSim (toReceiver ++ []) fromReceiver (toSender ++ []) sim) :=
    DeploymentStep.serve (deployment.passing true toSim toReceiver fromReceiver toSender sim)
      (calm 0 none) .nothing (.success, sim, []) rfl rfl trivial ignored
  rw [List.append_nil, List.append_nil] at step
  exact System.leads_single _ trivial step

/-- With nothing to send, the simulator only reads the clock. -/
theorem restful_wakes (restful : Restful network sim) (seconds : Int) :
    (deploymentSystem host input network).Runs
      (deployment.passing false toSim toReceiver fromReceiver toSender sim)
      (deployment.passing true toSim toReceiver fromReceiver toSender
        { sim with lastClock := updateTime ⟨seconds, 0⟩ }) := by
  simpa using passing_wakes (calm_wakes_empty restful.holds seconds none)

/-- A datagram is passed on, in one pass or in two. -/
theorem ferry_datagram (passable : Passable network.settings) (restful : Restful network sim)
    (index : Nat) (datagram : List Byte) (rest : List (Nat × List Byte))
    (size : 4 ≤ datagram.length ∧ datagram.length ≤ maxPktLen) :
    ∃ next, Restful network next ∧ next.hasSourceAddr = true ∧
      (deploymentSystem host input network).Runs
        (deployment.passing false ((index, datagram) :: rest) toReceiver fromReceiver toSender sim)
        (deployment.passing false rest (toReceiver ++ [(index, datagram)]) fromReceiver toSender
          next) := by
  -- the clock goes on
  let seconds := sim.lastClock.tvSec + 1
  let woken := { sim with lastClock := updateTime ⟨seconds, 0⟩ }
  have awake : Restful network woken := ⟨restful.holds, restful.lucky, restful.source⟩
  obtain ⟨next, data, hosts, damaged, served⟩ :=
    @calm_serves _ woken network.settings 0 network.source ⟨index, false⟩ datagram awake.lucky
      passable.loss passable.divisible awake.holds awake.fromSource size seconds
  rw [passable.spares (awake.lucky.same (hits_draws ..))] at damaged
  subst damaged
  have lucky : Lucky next.random :=
    awake.lucky.same (by rw [hosts.draws, trackSource_random])
  have known : next.hasSourceAddr = true := by
    rw [hosts.hasSourceAddr, trackSource_hasSourceAddr]
  have source : next.srcAddr = network.source := hosts.srcAddr.trans awake.fromSource.2
  rcases served with ⟨_, holds, serves⟩ | ⟨applied, capped, holds, serves⟩
  · have leaves : (deploymentSystem host input network).Runs
        (deployment.passing true ((index, data) :: rest) toReceiver fromReceiver toSender woken)
        (deployment.passing false rest (toReceiver ++ [(index, data)]) fromReceiver toSender
          next) := by
      simpa [Outcome.carried, Outcome.answered, List.filterMap_cons] using passing_serves serves
    exact ⟨next, ⟨holds, lucky, fun _ => source⟩, known,
      System.leads_trans (restful_wakes restful seconds) leaves⟩
  · -- the datagram waits, and is sent a thousand seconds later
    obtain ⟨queue, empty, sends⟩ := calm_wakes_lone capped holds none
    let last := { next with
      lastClock := updateTime ⟨woken.lastClock.tvSec + 1000, 0⟩
      pktQueue := queue }
    have waits : (deploymentSystem host input network).Runs
        (deployment.passing true ((index, data) :: rest) toReceiver fromReceiver toSender woken)
        (deployment.passing false rest toReceiver fromReceiver toSender next) := by
      simpa using passing_serves serves
    have leaves : (deploymentSystem host input network).Runs
        (deployment.passing false rest toReceiver fromReceiver toSender next)
        (deployment.passing true rest (toReceiver ++ [(index, data)]) fromReceiver toSender
          last) := by
      simpa [Outcome.carried, Outcome.answered, List.filterMap_cons] using passing_wakes sends
    exact ⟨last, ⟨empty, lucky, fun _ => source⟩, known,
      System.leads_trans (restful_wakes restful seconds)
        (System.leads_trans waits (System.leads_trans leaves passing_rests))⟩

/-- All datagrams of the sender are passed on, in their order. -/
theorem ferry_datagrams (passable : Passable network.settings) (restful : Restful network sim)
    (entries : List (Nat × List Byte))
    (sizes : ∀ entry ∈ entries, 4 ≤ entry.2.length ∧ entry.2.length ≤ maxPktLen) :
    ∃ next, Restful network next ∧
      (next.hasSourceAddr = false → sim.hasSourceAddr = false ∧ entries = []) ∧
      (deploymentSystem host input network).Runs
        (deployment.passing false entries toReceiver fromReceiver toSender sim)
        (deployment.passing false [] (toReceiver ++ entries) fromReceiver toSender next) := by
  induction entries generalizing sim toReceiver with
  | nil =>
    rw [List.append_nil]
    exact ⟨sim, restful, fun unknown => ⟨unknown, rfl⟩, System.leads_refl _ _⟩
  | cons entry rest inductionHypothesis =>
    obtain ⟨index, datagram⟩ := entry
    obtain ⟨middle, kept, known, first⟩ := ferry_datagram passable restful index datagram rest
      (sizes _ (List.mem_cons_self ..))
    obtain ⟨next, last, unknown, others⟩ := inductionHypothesis kept
      fun entry listed => sizes entry (List.mem_cons_of_mem _ listed)
    refine ⟨next, last, ?_, ?_⟩
    · intro never
      rw [(unknown never).1] at known
      cases known
    · rw [List.append_cons]
      exact System.leads_trans first others

/-- An answer of the receiver is passed on. -/
theorem ferry_answer (restful : Restful network sim) (known : sim.hasSourceAddr = true)
    (answer : Answer) (size : answer.datagram.length = 8) :
    ∃ next, Restful network next ∧ next.hasSourceAddr = true ∧
      (deploymentSystem host input network).Runs
        (deployment.passing false toSim toReceiver [answer] toSender sim)
        (deployment.passing false toSim toReceiver [] (toSender ++ [answer]) next) := by
  let seconds := sim.lastClock.tvSec + 1
  let woken := { sim with lastClock := updateTime ⟨seconds, 0⟩ }
  have whole : answer.datagram.take maxPktLen = answer.datagram :=
    List.take_of_length_le (by rw [size, maxPktLen]; decide)
  have got : GotDatagram (calm seconds (some (network.settings.destAddr,
      (⟨answer.about, answer.positive⟩ : Mark), answer.datagram))) network.settings.destAddr
      ⟨answer.about, answer.positive⟩ answer.datagram :=
    ⟨answer.datagram, rfl, whole.symm, by omega⟩
  have serves : servePart network.settings (calm seconds (some (network.settings.destAddr,
      ⟨answer.about, answer.positive⟩, answer.datagram))) woken =
        .ok (.success, woken, [.relayed ⟨answer.about, answer.positive⟩ answer.datagram]) := by
    have tracked : trackSource network.settings.destAddr woken = woken := if_pos known
    rw [servePart, if_pos (by rfl), processIncomingPkt_received got, if_pos rfl, if_pos (by rfl),
      tracked]
  have leaves : (deploymentSystem host input network).Runs
      (deployment.passing true toSim toReceiver [answer] toSender woken)
      (deployment.passing false toSim toReceiver [] (toSender ++ [answer]) woken) := by
    simpa [Outcome.carried, Outcome.answered, List.filterMap_cons] using passing_answers serves
  exact ⟨woken, ⟨restful.holds, restful.lucky, restful.source⟩, known,
    System.leads_trans (restful_wakes restful seconds) leaves⟩

/-! ## Mirroring the link -/

/-- The deployment in the state of the link, with the simulator between two passes. -/
def mirror (link : Link) (sim : Simulator Mark) : Deployment where
  sender := link.sender
  scanned := link.scanned
  toSim := []
  toSender := link.backward
  sim := sim
  status := .success
  awake := false
  toReceiver := link.forward
  fromReceiver := []
  receiver := link.receiver
  pending := link.pending
  arrived := link.arrived
  written := link.written

/-- The link is mirrored, and nothing has passed a simulator without a source. -/
structure Mirrors (network : Network) (link : Link) (deployment : Deployment) : Prop where
  mirrored : ∃ sim, deployment = mirror link sim ∧ Restful network sim ∧
    (sim.hasSourceAddr = false → link.forward = [] ∧ link.pending = [])

/-- What the sender sent is passed on. -/
theorem mirrors_sent (passable : Passable network.settings) {link : Link}
    (restful : Restful network sim)
    (unknown : sim.hasSourceAddr = false → link.forward = [] ∧ link.pending = [])
    (entries : List (Nat × List Byte))
    (sizes : ∀ entry ∈ entries, 4 ≤ entry.2.length ∧ entry.2.length ≤ maxPktLen) :
    ∃ later, (deploymentSystem host input network).Runs { mirror link sim with toSim := entries }
      later ∧ Mirrors network { link with forward := link.forward ++ entries } later := by
  obtain ⟨last, kept, known, ferries⟩ := @ferry_datagrams host input network (mirror link sim)
    link.forward [] link.backward sim passable restful entries sizes
  refine ⟨_, ferries, ⟨last, rfl, kept, ?_⟩⟩
  intro never
  obtain ⟨before, rfl⟩ := known never
  rw [List.append_nil]
  exact unknown before

/-- What the receiver answered is passed on. -/
theorem mirrors_answered {link : Link} {answer : Answer} (restful : Restful network sim)
    (known : sim.hasSourceAddr = true)
    (lead : (deploymentSystem host input network).Runs deployment
      { mirror link sim with fromReceiver := [answer] })
    (size : answer.datagram.length = 8) :
    ∃ later, (deploymentSystem host input network).Runs deployment later ∧
      Mirrors network { link with backward := link.backward ++ [answer] } later := by
  obtain ⟨last, kept, stays, ferries⟩ := @ferry_answer host input network (mirror link sim) []
    link.forward link.backward sim restful known answer size
  refine ⟨_, System.leads_trans lead ferries, ⟨last, rfl, kept, fun never => ?_⟩⟩
  rw [stays] at never
  cases never

/-- The sender's datagrams have more than a header and fit the simulator's buffer. -/
theorem LinkInv.sent_size {link : Link} {sender : SendRun} (inv : LinkInv host input link)
    (sent : ∀ entry ∈ sentSince sender link.sender, entry ∈ link.forward) :
    ∀ entry ∈ sentSince sender link.sender,
      4 ≤ entry.2.length ∧ entry.2.length ≤ maxPktLen := by
  intro entry listed
  have size := inv.forward_size (sent entry listed)
  omega

/-- A lossless step of the link can be mirrored. -/
theorem mirrors_step (passable : Passable network.settings) {link next : Link}
    {label : LinkLabel} (reached : (linkSystem host input).Reachable link)
    (permitted : Lossless label) (mirrors : Mirrors network link deployment)
    (step : LinkStep host input link label next) :
    ∃ later, (deploymentSystem host input network).Runs deployment later ∧
      Mirrors network next later := by
  obtain ⟨sim, rfl, restful, unknown⟩ := mirrors.mirrored
  have inv := reachable_linkInv (System.reachable_step reached step)
  cases step with
  | scan ambient sender running ready scans =>
    have first : DeploymentStep host input network (mirror link sim) (.scan ambient) _ :=
      .scan (mirror link sim) ambient sender running ready scans
    obtain ⟨later, passes, mirrored⟩ := @mirrors_sent host input network sim passable
      { link with sender := sender, scanned := true } restful unknown
      (sentSince link.sender sender) (inv.sent_size fun _ => List.mem_append_right _)
    exact ⟨later, System.leads_trans (System.leads_single _ trivial first) passes, mirrored⟩
  | select ambient reads answered sender last running ready canRead inputs serves =>
    have first : DeploymentStep host input network (mirror link sim)
        (.select ambient reads answered) _ :=
      .select (mirror link sim) ambient reads answered sender last running ready canRead inputs
        serves
    obtain ⟨later, passes, mirrored⟩ := @mirrors_sent host input network sim passable
      { link with
        sender := last
        scanned := false
        backward := if answered then link.backward.tail else link.backward } restful unknown
      (sentSince link.sender last) (inv.sent_size fun _ => List.mem_append_right _)
    exact ⟨later, System.leads_trans (System.leads_single _ trivial first) passes, mirrored⟩
  | loseDatagram position => exact absurd permitted (by simp [Lossless])
  | duplicate position entry found =>
    have first : DeploymentStep host input network (mirror link sim)
        (.duplicateToReceiver position) _ :=
      .duplicateToReceiver (mirror link sim) position entry found
    refine ⟨_, System.leads_single _ trivial first, ⟨sim, rfl, restful, fun never => ?_⟩⟩
    simp [(unknown never).1] at found
  | arrive ambient position fate index datagram receiver events idle found recent possible
      handles =>
    cases fate with
    | intact =>
      have first : DeploymentStep host input network (mirror link sim)
          (.arrive ambient position) _ :=
        .arrive (mirror link sim) ambient position index datagram receiver events idle found
          recent handles
      refine ⟨_, System.leads_single _ trivial first, ⟨sim, rfl, restful, fun never => ?_⟩⟩
      simp [(unknown never).1] at found
    | cut => exact absurd permitted (by simp [Lossless])
    | corrupt bytes => exact absurd permitted (by simp [Lossless])
  | play event rest pending =>
    have known : sim.hasSourceAddr = true := by
      by_contra never
      simp [(unknown (Bool.eq_false_iff.mpr never)).2] at pending
    have first : DeploymentStep host input network (mirror link sim) .perform _ :=
      .perform (mirror link sim) event rest pending
    have lead : (deploymentSystem host input network).Runs (mirror link sim) _ :=
      System.leads_single .perform trivial first
    have later {goal : Prop} (never : sim.hasSourceAddr = false) : goal := by
      rw [known] at never
      cases never
    cases event with
    | writePayload payload => exact ⟨_, lead, ⟨sim, rfl, restful, later⟩⟩
    | pktDel pkt => exact ⟨_, lead, ⟨sim, rfl, restful, later⟩⟩
    | free pkt => exact ⟨_, lead, ⟨sim, rfl, restful, later⟩⟩
    | sendAck datagram slots =>
      exact mirrors_answered restful known lead
        (inv.backward_size (List.mem_append_right _ (List.mem_singleton_self _)))
    | sendNack datagram slots =>
      exact mirrors_answered restful known lead
        (inv.backward_size (List.mem_append_right _ (List.mem_singleton_self _)))
  | loseAnswer position => exact absurd permitted (by simp [Lossless])

/-- A lossless run of the link can be mirrored. -/
theorem run_mirrored (passable : Passable network.settings) {junk other : Nat → Byte} {clock : Int}
    {link : Link}
    (run : (linkSystem host input).Leads Lossless (linkStart junk other clock) link) :
    ∃ deployment, (deploymentSystem host input network).Reachable deployment ∧
      Mirrors network link deployment := by
  have start : (deploymentSystem host input network).Reachable
      (deploymentStart junk other clock ⟨0, 0⟩ hundreds) :=
    System.reachable_initial ⟨junk, other, clock, _, _, rfl⟩
  have restful : Restful network (proxyStart ⟨0, 0⟩ hundreds) :=
    ⟨minqNew_holds slotKey, hundreds_lucky, by simp [proxyStart]⟩
  have mirrored : Mirrors network (linkStart junk other clock)
      (deploymentStart junk other clock ⟨0, 0⟩ hundreds) :=
    ⟨_, rfl, restful, fun _ => ⟨rfl, rfl⟩⟩
  obtain ⟨deployment, runs, _, mirrors⟩ := @System.leads_simulation _ _ (linkSystem host input) _ _
    (deploymentSystem host input network)
    (fun link deployment => (linkSystem host input).Reachable link ∧
      Mirrors network link deployment)
    Lossless (fun _ => True) _ _ _ (fun one label other image permitted related step => by
      obtain ⟨later, runs, mirrors⟩ := mirrors_step passable related.1 permitted related.2 step
      exact ⟨later, runs, System.reachable_step related.1 step, mirrors⟩) run
    ⟨System.reachable_initial ⟨junk, other, clock, rfl⟩, mirrored⟩
  exact ⟨deployment, System.reachable_leads start runs, mirrors⟩

end SelectiveRepeat
