import SelectiveRepeat.Library.Transition
import SelectiveRepeat.LinkSim.Passes

/-!
# Runs of the simulator

Beside its state, a run of `proxy_loop` remembers every datagram of the source that
reached the simulated link, with the clock at that time, and what became of it: whether
it was lost, and when and as what it was handed on. It also remembers what the receiver
sent back and what of it was relayed. A datagram is remembered as it stands in the
buffer, that is by its first 520 bytes, and only if these are at least four.

Each datagram of the source is in exactly one place: lost, waiting, or handed on. The
queue holds those that wait, with dates that come from the clock at their arrival and a
delay the options allow.
-/

namespace SelectiveRepeat

open PriorityBag Transition

/-- A datagram of the source, cut to 520 bytes and numbered in the order of arrival. -/
structure Admitted where
  number : Nat
  sender : SockAddr
  clock : Timeval
  data : List Byte
  deriving DecidableEq

instance : Inhabited Admitted := ⟨⟨0, ⟨0, 0⟩, default, []⟩⟩

/-- What was sent to the proxied host, when, and as what. -/
structure Forwarded where
  origin : Admitted
  clock : Timeval
  data : List Byte
  deriving DecidableEq

/-- The simulator, and what happened so far. `heard` are the datagrams of the proxied host
of four bytes or more, cut to 520, and `relayed` what went on to the source. `awake` tells
that the first part of a pass is over. -/
structure Traffic where
  sim : Simulator Admitted
  status : ExitStatus
  awake : Bool
  admitted : List Admitted
  lost : List Admitted
  forwarded : List Forwarded
  heard : List (List Byte)
  relayed : List (List Byte)

/-- Before the first pass. -/
def trafficStart (reading : Timespec) (random : Random) : Traffic where
  sim := proxyStart reading random
  status := .success
  awake := false
  admitted := []
  lost := []
  forwarded := []
  heard := []
  relayed := []

/-- The conditions of a pass, with a tag for the datagram it receives: what `recvfrom` puts
into the buffer, which is no more than its first 520 bytes. -/
def Traffic.tagged (traffic : Traffic) (conditions : Conditions Unit) : Conditions Admitted where
  clock := conditions.clock
  delayedSends := conditions.delayedSends
  send := conditions.send
  malloc := conditions.malloc
  reallocs := conditions.reallocs
  readable := conditions.readable
  received := conditions.received.map fun (sender, _, datagram) =>
    (sender, ⟨traffic.admitted.length, sender, traffic.sim.lastClock, datagram.take maxPktLen⟩,
      datagram)
  retry := conditions.retry

/-- The datagrams of the source in a pass, and those of the proxied host, as they are in the
buffer. Of fewer than four bytes nothing is recorded: the program ignores or refuses them
before it looks at their sender. -/
def Conditions.arrivals (settings : Settings) (conditions : Conditions Admitted)
    (sim : Simulator Admitted) : List Admitted × List (List Byte) :=
  match conditions.readable, conditions.received with
  | true, some (sender, tag, datagram) =>
    let buf := datagram.take maxPktLen
    if buf.length < 4 then ([], [])
    else if sender = settings.destAddr then ([], [buf])
    else if (trackSource sender sim).srcAddr = sender then ([tag], [])
    else ([], [])
  | _, _ => ([], [])

/-- The datagram that an outcome lost, if any. -/
def Outcome.lostTag : Outcome Admitted → Option Admitted
  | .lost tag => some tag
  | _ => none

/-- What an outcome handed on, with the clock at that time. -/
def Outcome.sentOn (clock : Timeval) : Outcome Admitted → Option Forwarded
  | .forwarded tag data => some ⟨tag, clock, data⟩
  | _ => none

/-- What an outcome relayed. -/
def Outcome.sentBack : Outcome Admitted → Option (List Byte)
  | .relayed _ data => some data
  | _ => none

/-- The run after a part of a pass that received `arrivals`. -/
def Traffic.after (traffic : Traffic) (awake : Bool) (arrivals : List Admitted × List (List Byte))
    (result : ExitStatus × Simulator Admitted × List (Outcome Admitted)) : Traffic where
  sim := result.2.1
  status := result.1
  awake := awake
  admitted := traffic.admitted ++ arrivals.1
  lost := traffic.lost ++ result.2.2.filterMap Outcome.lostTag
  forwarded := traffic.forwarded ++ result.2.2.filterMap (Outcome.sentOn result.2.1.lastClock)
  heard := traffic.heard ++ arrivals.2
  relayed := traffic.relayed ++ result.2.2.filterMap Outcome.sentBack

/-- A part of a pass, with the results of its system calls. -/
inductive TrafficLabel where
  | wake (conditions : Conditions Unit)
  | serve (conditions : Conditions Unit)

/-- The two parts of a pass, as long as the loop goes on. -/
inductive TrafficStep (settings : Settings) : Traffic → TrafficLabel → Traffic → Prop where
  | wake (traffic : Traffic) (conditions : Conditions Unit)
      (result : ExitStatus × Simulator Admitted × List (Outcome Admitted))
      (running : traffic.status = .success) (asleep : traffic.awake = false)
      (wakes : wakePart (traffic.tagged conditions) traffic.sim = .ok result) :
      TrafficStep settings traffic (.wake conditions) (traffic.after true ([], []) result)
  | serve (traffic : Traffic) (conditions : Conditions Unit)
      (result : ExitStatus × Simulator Admitted × List (Outcome Admitted))
      (running : traffic.status = .success) (woken : traffic.awake = true)
      (serves : servePart settings (traffic.tagged conditions) traffic.sim = .ok result) :
      TrafficStep settings traffic (.serve conditions) (traffic.after false
        ((traffic.tagged conditions).arrivals settings traffic.sim) result)

/-- `proxy_loop` with fixed options, from any clock and any seed. -/
def trafficSystem (settings : Settings) : System Traffic TrafficLabel where
  initial traffic := ∃ reading random, traffic = trafficStart reading random
  step := TrafficStep settings

end SelectiveRepeat
