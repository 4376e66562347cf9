import SelectiveRepeat.Receiver.Acknowledgements
import SelectiveRepeat.Sender.Invariant

/-!
# Both loops and the link between them

`sel_repeat_write` and `sel_repeat_read` are composed over two channels. Datagrams on
the way to the receiver may be lost, duplicated, reordered, cut to four bytes, or
corrupted into bytes `pkt_decode` rejects; one is handed over only if the receiver has
not delivered more than 225 packets beyond it. Answers on the way back keep their
order and may be lost.

What the channel may do to a datagram it hands over is a parameter of the steps. On the
noisy link corruption is any that `pkt_decode` notices, so that a datagram may be both
cut to its header and damaged there. On the link proper no datagram is: the simulator of
the repository neither corrupts what it cuts, nor cuts what it corrupts. Nothing checks
the header of four bytes, and the receiver answers it by the number it shows. The
careful link is the noisy one as long as that number does not mislead the receiver.

The sender alternates between the scan of its timers and what follows `select`. A pass
of the receiver computes its writes and answers at once and then performs them one by
one, so that the sender may act between any two of them.

Indices of packets, counted without the wrap, accompany datagrams and answers on the
channels. Neither loop sees them.
-/

namespace SelectiveRepeat

open Transition

/-- What successive reads of the input return: at most 512 bytes each. -/
structure Input where
  chunk : Nat → List Byte
  bounded : ∀ index, (chunk index).length ≤ 512

/-- An answer on its way back. `about` is the number of payloads written when an
acknowledgement is sent, and the index of the cut packet for a negative one. -/
structure Answer where
  about : Nat
  positive : Bool
  datagram : List Byte

/-- What the channel does to a datagram it hands over. -/
inductive Fate where
  | intact
  | cut
  | corrupt (bytes : List Byte)

/-- The bytes the receiver reads. -/
def Fate.arriving (datagram : List Byte) : Fate → List Byte
  | .intact => datagram
  | .cut => datagram.take 4
  | .corrupt bytes => bytes

/-- Corruption is noticed by `pkt_decode`. -/
def Fate.Noticed (host : Host) : Fate → Prop
  | .corrupt bytes => acceptedPacket host (some bytes) = none
  | _ => True

/-- Corruption is noticed by `pkt_decode`, and does not look like a cut. -/
def Fate.Possible (host : Host) : Fate → Prop
  | .corrupt bytes => bytes.length ≠ 4 ∧ acceptedPacket host (some bytes) = none
  | _ => True

/-- The two loops and the two channels. `scanned` tells that the sender is at its
`select`; `pending` is what the current pass of the receiver still has to do, and
`arrived` the index of the datagram it read. -/
structure Link where
  sender : SendRun
  scanned : Bool
  receiver : RecvState Pkt
  pending : List (Event Pkt)
  arrived : Nat
  forward : List (Nat × List Byte)
  backward : List Answer
  written : List (List Byte)

/-- Both programs before their first pass. -/
def linkStart (junk other : Nat → Byte) (clock : Int) : Link where
  sender := sendRunStart junk clock
  scanned := false
  receiver := recvStart Pkt other
  pending := []
  arrived := 0
  forward := []
  backward := []
  written := []

/-- The datagrams of a log that were not in it before. -/
def sentSince (before after : SendRun) : List (Nat × List Byte) := after.log.drop before.log.length

/-- The part of the sender that reads the input, if it is ready. -/
def inputPart (host : Host) (input : Input) (ambient : Ambient) (ready : Bool) (run : SendRun) :
    Run SendRun :=
  if ready then sendStep host run (.read ambient (input.chunk run.chunks.length)) else .ok run

/-- An answer as the sender reads it. -/
def Answer.label (ambient : Ambient) (answer : Answer) : SendLabel :=
  if answer.positive then .ack ambient answer.about answer.datagram
  else .nack ambient answer.about answer.datagram

/-- The part of the sender that reads the socket, if there is an answer. -/
def socketPart (host : Host) (ambient : Ambient) (answer : Option Answer) (run : SendRun) :
    Run SendRun :=
  match answer with
  | some answer => sendStep host run (answer.label ambient)
  | none => .ok run

/-- The receiver performs the next event of its pass. -/
def playEvent (link : Link) : Event Pkt → Link
  | .writePayload payload => { link with written := link.written ++ [payload] }
  | .sendAck datagram _ =>
      { link with backward := link.backward ++ [⟨link.written.length, true, datagram⟩] }
  | .sendNack datagram _ =>
      { link with backward := link.backward ++ [⟨link.arrived, false, datagram⟩] }
  | .pktDel _ => link
  | .free _ => link

/-- The steps: the sender's scan of its timers and what follows its `select`, with or without
input and an answer; what the channels do; the arrival of a datagram, and the receiver's
performing of one event of its pass. -/
inductive LinkLabel where
  | scan (ambient : Ambient)
  | select (ambient : Ambient) (reads answered : Bool)
  | loseDatagram (position : Nat)
  | duplicate (position : Nat)
  | arrive (ambient : Ambient) (position : Nat) (fate : Fate)
  | play
  | loseAnswer (position : Nat)

/-- One step of either loop or of a channel that does to the datagrams it hands over
what is admitted. -/
inductive ChannelStep (host : Host) (input : Input) (admits : Fate → Prop) :
    Link → LinkLabel → Link → Prop where
  | scan (link : Link) (ambient : Ambient) (sender : SendRun)
      (running : link.sender.exited = false) (ready : link.scanned = false)
      (scans : sendStep host link.sender (.scan ambient) = .ok sender) :
      ChannelStep host input admits link (.scan ambient) { link with
        sender := sender
        scanned := true
        forward := link.forward ++ sentSince link.sender sender }
  | select (link : Link) (ambient : Ambient) (reads answered : Bool) (sender last : SendRun)
      (running : link.sender.exited = false) (ready : link.scanned = true)
      (canRead : reads = true → CanRead link.sender.state)
      (inputs : inputPart host input ambient reads link.sender = .ok sender)
      (serves : socketPart host ambient (if answered then link.backward.head? else none) sender =
        .ok last) :
      ChannelStep host input admits link (.select ambient reads answered) { link with
        sender := last
        scanned := false
        forward := link.forward ++ sentSince link.sender last
        backward := if answered then link.backward.tail else link.backward }
  | loseDatagram (link : Link) (position : Nat) :
      ChannelStep host input admits link (.loseDatagram position)
        { link with forward := link.forward.eraseIdx position }
  | duplicate (link : Link) (position : Nat) (entry : Nat × List Byte)
      (found : link.forward[position]? = some entry) :
      ChannelStep host input admits link (.duplicate position)
        { link with forward := link.forward ++ [entry] }
  | arrive (link : Link) (ambient : Ambient) (position : Nat) (fate : Fate) (index : Nat)
      (datagram : List Byte) (receiver : RecvState Pkt) (events : List (Event Pkt))
      (idle : link.pending = []) (found : link.forward[position]? = some (index, datagram))
      (recent : link.written.length ≤ index + 225) (possible : admits fate)
      (handles : selRepeatReadBody id host Allocator.values ambient (some (fate.arriving datagram))
        link.receiver = .ok (receiver, events)) :
      ChannelStep host input admits link (.arrive ambient position fate) { link with
        receiver := receiver
        pending := events
        arrived := index
        forward := link.forward.eraseIdx position }
  | play (link : Link) (event : Event Pkt) (rest : List (Event Pkt))
      (pending : link.pending = event :: rest) :
      ChannelStep host input admits link .play (playEvent { link with pending := rest } event)
  | loseAnswer (link : Link) (position : Nat) :
      ChannelStep host input admits link (.loseAnswer position)
        { link with backward := link.backward.eraseIdx position }

/-- One step over the link proper. -/
abbrev LinkStep (host : Host) (input : Input) : Link → LinkLabel → Link → Prop :=
  ChannelStep host input (Fate.Possible host)

/-- The composition of both loops over the link. -/
def linkSystem (host : Host) (input : Input) : System Link LinkLabel where
  initial link := ∃ junk other clock, link = linkStart junk other clock
  step := LinkStep host input

/-- The composition over the noisy link. -/
def noisySystem (host : Host) (input : Input) : System Link LinkLabel where
  initial link := ∃ junk other clock, link = linkStart junk other clock
  step := ChannelStep host input (Fate.Noticed host)

/-- Four bytes show a number that is not that of the packet they were cut from, but one
the receiver expects: by `compare_seqnums` it lies in the receiver's window. -/
def Misleads (receiver : RecvState Pkt) (index : Nat) : Fate → Prop
  | .corrupt [_, number, _, _] => number.toNat ≠ index % 256 ∧
      compareSeqnums receiver.lastack number.toNat (((receiver.lastack + 1) % 256 : Nat) : Int) <
        maxWindowSize
  | _ => False

/-- An arrival that misleads the receiver. -/
def Misled (link : Link) : LinkLabel → Prop
  | .arrive _ position fate => ∃ entry, link.forward[position]? = some entry ∧
      Misleads link.receiver entry.1 fate
  | _ => False

/-- The composition over the noisy link, without the arrivals that mislead the receiver. -/
def carefulSystem (host : Host) (input : Input) : System Link LinkLabel where
  initial link := ∃ junk other clock, link = linkStart junk other clock
  step before label after :=
    ChannelStep host input (Fate.Noticed host) before label after ∧ ¬ Misled before label

/-! ## The three links -/

/-- A channel that may do more can take the same step. -/
theorem ChannelStep.weaken {host : Host} {input : Input} {narrow wide : Fate → Prop}
    {link next : Link} {label : LinkLabel} (included : ∀ fate, narrow fate → wide fate)
    (step : ChannelStep host input narrow link label next) :
    ChannelStep host input wide link label next := by
  cases step with
  | scan ambient sender running ready scans => exact .scan link ambient sender running ready scans
  | select ambient reads answered sender last running ready canRead inputs serves =>
    exact .select link ambient reads answered sender last running ready canRead inputs serves
  | loseDatagram position => exact .loseDatagram link position
  | duplicate position entry found => exact .duplicate link position entry found
  | arrive ambient position fate index datagram receiver events idle found recent possible
      handles =>
    exact .arrive link ambient position fate index datagram receiver events idle found recent
      (included fate possible) handles
  | play event rest pending => exact .play link event rest pending
  | loseAnswer position => exact .loseAnswer link position

/-- What the link proper does to a datagram, the noisy link may do. -/
theorem Fate.Possible.noticed {host : Host} {fate : Fate} (possible : fate.Possible host) :
    fate.Noticed host := by
  cases fate with
  | corrupt bytes => exact possible.2
  | intact => trivial
  | cut => trivial

/-- What is not of four bytes shows no number. -/
theorem Fate.Possible.honest {host : Host} {fate : Fate} (possible : fate.Possible host)
    (receiver : RecvState Pkt) (index : Nat) : ¬ Misleads receiver index fate := by
  unfold Misleads
  split
  · exact absurd rfl possible.1
  · exact id

/-- The link proper takes no step that the careful link does not. -/
theorem linkStep_careful {host : Host} {input : Input} {link next : Link} {label : LinkLabel}
    (step : LinkStep host input link label next) :
    (carefulSystem host input).step link label next := by
  refine ⟨step.weaken fun _ => Fate.Possible.noticed, ?_⟩
  cases step with
  | arrive ambient position fate index datagram receiver events idle found recent possible
      handles =>
    rintro ⟨entry, _, misleads⟩
    exact possible.honest _ _ misleads
  | _ => exact id

/-- Every state of the link proper is one of the careful link. -/
theorem linkSystem_careful {host : Host} {input : Input} {link : Link}
    (reached : (linkSystem host input).Reachable link) :
    (carefulSystem host input).Reachable link :=
  System.reachable_widen reached (fun _ start => start) fun _ _ _ step => linkStep_careful step

/-- Every state of the careful link is one of the noisy link. -/
theorem carefulSystem_noisy {host : Host} {input : Input} {link : Link}
    (reached : (carefulSystem host input).Reachable link) :
    (noisySystem host input).Reachable link :=
  System.reachable_widen reached (fun _ start => start) fun _ _ _ step => step.1

/-! ## Passes of the sender -/

/-- The scan and what follows `select` make up a pass of `sel_repeat_write`: where both
parts of the link's sender succeed, the loop body ends in the same state. -/
theorem selRepeatWriteBody_parts (host : Host) (input : Input) (ambient : Ambient)
    (run scanned sender last : SendRun) (reads : Bool) (answer : Option Answer)
    (scans : sendStep host run (.scan ambient) = .ok scanned)
    (canRead : reads = true → CanRead scanned.state)
    (inputs : inputPart host input ambient reads scanned = .ok sender)
    (serves : socketPart host ambient answer sender = .ok last) (running : run.exited = false) :
    ∃ sent, selRepeatWriteBody host ambient
        (.ready (if reads then some (some (input.chunk run.chunks.length)) else none)
          (answer.map fun answer => some answer.datagram)) run.state =
      .ok (last.state, sent, if last.exited then .exitSuccess else .again) := by
  -- the scan
  rw [sendStep] at scans
  cases scanning : scanTimers host ambient run.state with
  | error fault => simp [scanning, bind, Except.bind] at scans
  | ok pair =>
    obtain ⟨scannedState, resent⟩ := pair
    simp only [scanning, bind, Except.bind, pure, Except.pure, Except.ok.injEq] at scans
    subst scans
    -- the input
    obtain ⟨sent, reading, exited⟩ : ∃ sent, serveInput host ambient
        (if reads then some (some (input.chunk run.chunks.length)) else none) scannedState =
          .ok (sender.state, sent) ∧ sender.exited = false := by
      cases reads with
      | false =>
        obtain rfl := Except.ok.inj inputs
        exact ⟨[], rfl, running⟩
      | true =>
        simp only [inputPart, if_true, sendStep] at inputs
        cases reading : readInput host ambient (some (input.chunk run.chunks.length))
            scannedState with
        | error fault => simp [reading, bind, Except.bind] at inputs
        | ok pair =>
          obtain ⟨readState, sent⟩ := pair
          simp only [reading, bind, Except.bind, pure, Except.pure, Except.ok.injEq] at inputs
          subst inputs
          exact ⟨sent, by simp only [serveInput, if_true, canRead rfl, reading], running⟩
    -- the socket
    obtain ⟨answered, serving⟩ : ∃ answered, serveSocket host ambient
        (answer.map fun answer => some answer.datagram) sender.state =
          .ok (last.state, answered, if last.exited then .exitSuccess else .again) := by
      cases answer with
      | none =>
        obtain rfl := Except.ok.inj serves
        exact ⟨[], by rw [exited]; rfl⟩
      | some answer =>
        obtain ⟨served, serving, state, exits⟩ : ∃ served,
            readSocket host ambient (some answer.datagram) sender.state = .ok served ∧
            served.state = last.state ∧ served.exited = last.exited := by
          simp only [socketPart, Answer.label] at serves
          split at serves
          · obtain ⟨served, serving, rfl⟩ := ack_served serves
            exact ⟨served, serving, rfl, rfl⟩
          · obtain ⟨served, serving, rfl⟩ := nack_served serves
            exact ⟨served, serving, rfl, rfl⟩
        exact ⟨served.sent, by
          simp only [serveSocket, Option.map_some, serving, bind, Except.bind, pure, Except.pure,
            state, exits]⟩
    refine ⟨resent ++ (sent ++ answered), ?_⟩
    simp only [selRepeatWriteBody, scanning, afterSelect, reading, serving, bind, Except.bind, pure,
      Except.pure]

end SelectiveRepeat
