import SelectiveRepeat.Link.Completion
import SelectiveRepeat.LinkSim.Options

/-!
# Sender, simulator and receiver

The three programs as they are meant to be run: the sender talks to the simulator, and
the simulator to the receiver, over UDP. Datagrams may be lost, duplicated and reordered
between any two programs. Answers may be lost, and keep their order. Any other host may
send any bytes to the simulator, as soon as that has found its source.

A mark goes with every datagram and answer through the simulator: the index of a packet,
or what an answer is about. A datagram reaches the receiver only if the receiver has not
delivered more than 225 packets beyond it.
-/

namespace SelectiveRepeat

open Transition

/-- Where the programs are, and the options of the simulator. -/
structure Network where
  settings : Settings
  source : SockAddr
  apart : source ≠ settings.destAddr

/-- What goes with a datagram or an answer. -/
structure Mark where
  about : Nat
  positive : Bool

instance : Inhabited Mark := ⟨⟨0, false⟩⟩

/-- The three programs, and what is on its way between them. `awake` tells that the first
part of a pass of the simulator is over. -/
structure Deployment where
  sender : SendRun
  scanned : Bool
  toSim : List (Nat × List Byte)
  toSender : List Answer
  sim : Simulator Mark
  status : ExitStatus
  awake : Bool
  toReceiver : List (Nat × List Byte)
  fromReceiver : List Answer
  receiver : RecvState Pkt
  pending : List (Event Pkt)
  arrived : Nat
  written : List (List Byte)

/-- All programs before their first pass. -/
def deploymentStart (junk other : Nat → Byte) (clock : Int) (reading : Timespec)
    (random : Random) : Deployment where
  sender := sendRunStart junk clock
  scanned := false
  toSim := []
  toSender := []
  sim := proxyStart reading random
  status := .success
  awake := false
  toReceiver := []
  fromReceiver := []
  receiver := recvStart Pkt other
  pending := []
  arrived := 0
  written := []

/-! ## The simulator's socket -/

/-- What `recvfrom` finds at the simulator's socket. -/
inductive Incoming where
  | nothing
  | datagram (position : Nat)
  | answer
  | alien (sender : SockAddr) (bytes : List Byte)

variable (network : Network) (deployment : Deployment)

/-- What the simulator's `recvfrom` returns: an address, the bytes, and the mark that tells which
packet or answer they are. -/
def Deployment.received : Incoming → Option (SockAddr × Mark × List Byte)
  | .nothing => none
  | .datagram position => deployment.toSim[position]?.map fun (index, datagram) =>
      (network.source, ⟨index, false⟩, datagram)
  | .answer => deployment.fromReceiver.head?.map fun answer =>
      (network.settings.destAddr, ⟨answer.about, answer.positive⟩, answer.datagram)
  | .alien sender bytes => some (sender, default, bytes)

/-- Only what is at a readable socket is read, and others come after the source. -/
def Incoming.Possible (readable : Bool) : Incoming → Prop
  | .nothing => True
  | .alien sender _ => readable = true ∧ sender ≠ network.source ∧
      sender ≠ network.settings.destAddr ∧ deployment.sim.hasSourceAddr = true
  | _ => readable = true

/-- What was read is not at the socket any more. -/
def Deployment.taken : Incoming → Deployment
  | .datagram position => { deployment with toSim := deployment.toSim.eraseIdx position }
  | .answer => { deployment with fromReceiver := deployment.fromReceiver.tail }
  | _ => deployment

/-- A datagram the simulator hands on to the receiver, with the index of its packet. -/
def Outcome.carried : Outcome Mark → Option (Nat × List Byte)
  | .forwarded mark data => some (mark.about, data)
  | _ => none

/-- An answer the simulator relays to the sender. -/
def Outcome.answered : Outcome Mark → Option Answer
  | .relayed mark data => some ⟨mark.about, mark.positive, data⟩
  | _ => none

/-- After a part of a pass of the simulator. -/
def Deployment.after (awake : Bool)
    (result : ExitStatus × Simulator Mark × List (Outcome Mark)) : Deployment :=
  { deployment with
    sim := result.2.1
    status := result.1
    awake := awake
    toReceiver := deployment.toReceiver ++ result.2.2.filterMap Outcome.carried
    toSender := deployment.toSender ++ result.2.2.filterMap Outcome.answered }

/-- The receiver performs the next event of its pass. -/
def Deployment.perform : Event Pkt → Deployment
  | .writePayload payload => { deployment with written := deployment.written ++ [payload] }
  | .sendAck datagram _ => { deployment with
      fromReceiver := deployment.fromReceiver ++ [⟨deployment.written.length, true, datagram⟩] }
  | .sendNack datagram _ => { deployment with
      fromReceiver := deployment.fromReceiver ++ [⟨deployment.arrived, false, datagram⟩] }
  | .pktDel _ => deployment
  | .free _ => deployment

/-! ## Steps -/

/-- The steps: the sender's scan and what follows its `select`; the two halves of a pass of the
simulator; the arrival of a datagram at the receiver and the performing of its events; and what
the network between the programs loses or duplicates. -/
inductive DeploymentLabel where
  | scan (ambient : Ambient)
  | select (ambient : Ambient) (reads answered : Bool)
  | wake (conditions : Conditions Mark)
  | serve (conditions : Conditions Mark) (incoming : Incoming)
  | arrive (ambient : Ambient) (position : Nat)
  | perform
  | loseToSim (position : Nat)
  | duplicateToSim (position : Nat)
  | loseToReceiver (position : Nat)
  | duplicateToReceiver (position : Nat)
  | loseFromReceiver (position : Nat)
  | loseToSender (position : Nat)

/-- One step of a program or of the network. -/
inductive DeploymentStep (host : Host) (input : Input) (network : Network) :
    Deployment → DeploymentLabel → Deployment → Prop where
  | scan (deployment : Deployment) (ambient : Ambient) (sender : SendRun)
      (running : deployment.sender.exited = false) (ready : deployment.scanned = false)
      (scans : sendStep host deployment.sender (.scan ambient) = .ok sender) :
      DeploymentStep host input network deployment (.scan ambient) { deployment with
        sender := sender
        scanned := true
        toSim := deployment.toSim ++ sentSince deployment.sender sender }
  | select (deployment : Deployment) (ambient : Ambient) (reads answered : Bool)
      (sender last : SendRun) (running : deployment.sender.exited = false)
      (ready : deployment.scanned = true)
      (canRead : reads = true → CanRead deployment.sender.state)
      (inputs : inputPart host input ambient reads deployment.sender = .ok sender)
      (serves : socketPart host ambient
        (if answered then deployment.toSender.head? else none) sender = .ok last) :
      DeploymentStep host input network deployment (.select ambient reads answered)
        { deployment with
          sender := last
          scanned := false
          toSim := deployment.toSim ++ sentSince deployment.sender last
          toSender := if answered then deployment.toSender.tail else deployment.toSender }
  | wake (deployment : Deployment) (conditions : Conditions Mark)
      (result : ExitStatus × Simulator Mark × List (Outcome Mark))
      (running : deployment.status = .success) (asleep : deployment.awake = false)
      (wakes : wakePart conditions deployment.sim = .ok result) :
      DeploymentStep host input network deployment (.wake conditions)
        (deployment.after true result)
  | serve (deployment : Deployment) (conditions : Conditions Mark) (incoming : Incoming)
      (result : ExitStatus × Simulator Mark × List (Outcome Mark))
      (running : deployment.status = .success) (woken : deployment.awake = true)
      (possible : incoming.Possible network deployment conditions.readable)
      (serves : servePart network.settings
        { conditions with received := deployment.received network incoming } deployment.sim =
          .ok result) :
      DeploymentStep host input network deployment (.serve conditions incoming)
        ((deployment.taken incoming).after false result)
  | arrive (deployment : Deployment) (ambient : Ambient) (position index : Nat)
      (bytes : List Byte) (receiver : RecvState Pkt) (events : List (Event Pkt))
      (idle : deployment.pending = [])
      (found : deployment.toReceiver[position]? = some (index, bytes))
      (recent : deployment.written.length ≤ index + 225)
      (handles : selRepeatReadBody id host Allocator.values ambient (some bytes)
        deployment.receiver = .ok (receiver, events)) :
      DeploymentStep host input network deployment (.arrive ambient position) { deployment with
        receiver := receiver
        pending := events
        arrived := index
        toReceiver := deployment.toReceiver.eraseIdx position }
  | perform (deployment : Deployment) (event : Event Pkt) (rest : List (Event Pkt))
      (pending : deployment.pending = event :: rest) :
      DeploymentStep host input network deployment .perform
        ({ deployment with pending := rest }.perform event)
  | loseToSim (deployment : Deployment) (position : Nat) :
      DeploymentStep host input network deployment (.loseToSim position)
        { deployment with toSim := deployment.toSim.eraseIdx position }
  | duplicateToSim (deployment : Deployment) (position : Nat) (entry : Nat × List Byte)
      (found : deployment.toSim[position]? = some entry) :
      DeploymentStep host input network deployment (.duplicateToSim position)
        { deployment with toSim := deployment.toSim ++ [entry] }
  | loseToReceiver (deployment : Deployment) (position : Nat) :
      DeploymentStep host input network deployment (.loseToReceiver position)
        { deployment with toReceiver := deployment.toReceiver.eraseIdx position }
  | duplicateToReceiver (deployment : Deployment) (position : Nat) (entry : Nat × List Byte)
      (found : deployment.toReceiver[position]? = some entry) :
      DeploymentStep host input network deployment (.duplicateToReceiver position)
        { deployment with toReceiver := deployment.toReceiver ++ [entry] }
  | loseFromReceiver (deployment : Deployment) (position : Nat) :
      DeploymentStep host input network deployment (.loseFromReceiver position)
        { deployment with fromReceiver := deployment.fromReceiver.eraseIdx position }
  | loseToSender (deployment : Deployment) (position : Nat) :
      DeploymentStep host input network deployment (.loseToSender position)
        { deployment with toSender := deployment.toSender.eraseIdx position }

/-- The composition of the three programs. -/
def deploymentSystem (host : Host) (input : Input) (network : Network) :
    System Deployment DeploymentLabel where
  initial deployment := ∃ junk other clock reading random,
    deployment = deploymentStart junk other clock reading random
  step := DeploymentStep host input network

end SelectiveRepeat
