import SelectiveRepeat.Sender.Run

/-!
# The window of a run

With admissible answers, the slots counted by `current_index_window` hold the packets
from the oldest unacknowledged one to the last one built, as they were built. No part
of a pass faults; an acknowledgement removes a front, and a negative one sends one
packet, with the bytes it was first sent with.
-/

namespace SelectiveRepeat

open PackedSlots Transition

/-- Admissible parts of a pass keep the invariant, and none of them faults. -/
theorem sendStep_keeps (host : Host) {run : SendRun} (inv : SendInv host run) (label : SendLabel)
    (enabled : Enabled run label) (admissible : Admissible host run label) :
    ∃ next, sendStep host run label = .ok next ∧ SendInv host next := by
  cases label with
  | scan ambient =>
    obtain ⟨state, sent, steps, kept, _⟩ := scan_step host ambient inv
    exact ⟨_, steps, kept⟩
  | read ambient chunk =>
    obtain ⟨next, steps, kept, _⟩ := read_step host ambient inv enabled.2.1 chunk enabled.2.2
    exact ⟨next, steps, kept⟩
  | ack ambient index datagram =>
    obtain ⟨between, window, announces⟩ := admissible
    obtain ⟨slots, steps, kept⟩ := ack_step host ambient inv between announces
    exact ⟨_, steps, kept⟩
  | nack ambient index datagram =>
    obtain ⟨between, window, announces⟩ := admissible
    obtain ⟨slots, clock, pkt, _, steps, kept⟩ :=
      nack_step host ambient inv enabled between announces
    exact ⟨_, steps, kept⟩

/-- The invariant holds in every reachable state of the sender. -/
theorem reachable_inv (host : Host) {run : SendRun} (reached : (sendSystem host).Reachable run) :
    SendInv host run := by
  refine System.reachable_invariant ?_ ?_ reached
  · rintro first ⟨junk, clock, rfl⟩
    exact sendRunStart_inv host junk clock
  · rintro before label after inv ⟨enabled, admissible, steps⟩
    obtain ⟨next, same, kept⟩ := sendStep_keeps host inv label enabled admissible
    obtain rfl : next = after := Except.ok.inj (same.symm.trans steps)
    exact kept

/-- What `readSocket` made of an acknowledgement, read off the step. -/
theorem ack_served {host : Host} {ambient : Ambient} {run next : SendRun} {index : Nat}
    {datagram : List Byte} (steps : sendStep host run (.ack ambient index datagram) = .ok next) :
    ∃ served, readSocket host ambient (some datagram) run.state = .ok served ∧
      next = { run with
        state := served.state
        base := index
        log := run.log ++ absolute run.base served.sent
        exited := served.exited } := by
  rw [sendStep] at steps
  obtain ⟨served, serves, same⟩ := run_bind steps
  cases same
  exact ⟨served, serves, rfl⟩

/-- A step that reads a negative answer is its part of the pass, and moves no index. -/
theorem nack_served {host : Host} {ambient : Ambient} {run next : SendRun} {index : Nat}
    {datagram : List Byte} (steps : sendStep host run (.nack ambient index datagram) = .ok next) :
    ∃ served, readSocket host ambient (some datagram) run.state = .ok served ∧
      next = { run with
        state := served.state
        log := run.log ++ absolute run.base served.sent
        exited := served.exited } := by
  rw [sendStep] at steps
  obtain ⟨served, serves, same⟩ := run_bind steps
  cases same
  exact ⟨served, serves, rfl⟩

/-- The window between the oldest unacknowledged packet and the next one, and what
the answers in between do to it. -/
structure WindowInvariant (host : Host) (run : SendRun) : Prop where
  index : run.state.currentIndexWindow = (run.built.length : Int) - run.base
  range : 0 ≤ run.state.currentIndexWindow ∧ run.state.currentIndexWindow ≤ 31
  /-- slot `i` holds the packet with index `base + i`, as it was built -/
  window : windowPackets run.state = (run.built.drop run.base).map some
  numbers : ∀ index pkt, run.built[index]? = some pkt → pktGetSeqnum pkt = index % 256
  runs : ∀ label, Enabled run label → Admissible host run label →
    ∃ next, sendStep host run label = .ok next
  /-- an acknowledgement removes the packets before its index, and keeps the others -/
  ack : ∀ ambient index datagram, Admissible host run (.ack ambient index datagram) →
    ∃ served, readSocket host ambient (some datagram) run.state = .ok served ∧ served.sent = [] ∧
      windowPackets served.state = (windowPackets run.state).drop (index - run.base)
  /-- a negative acknowledgement sends the packet with its index, and nothing else -/
  nack : run.exited = false → ∀ ambient index datagram,
    Admissible host run (.nack ambient index datagram) →
    ∃ served pkt, readSocket host ambient (some datagram) run.state = .ok served ∧
      run.built[index]? = some pkt ∧ served.sent.map Sent.datagram = [wire host pkt] ∧
      windowPackets served.state = windowPackets run.state
  /-- all datagrams sent for one index are the same -/
  identical : ∀ index one other, (index, one) ∈ run.log → (index, other) ∈ run.log → one = other

/-- Whatever reads, expired timers and admissible answers come in whatever order.

Each part is read off the invariant of the sender, or off the step lemma of the answer it
speaks of. -/
theorem window_invariant (host : Host) (run : SendRun)
    (reached : (sendSystem host).Reachable run) : WindowInvariant host run := by
  have inv := reachable_inv host reached
  obtain ⟨index, near⟩ := inv.index
  have behind := inv.behind
  refine ⟨by omega, by omega, inv.windowPackets, ?_, ?_, ?_, ?_, ?_⟩
  · intro position pkt found
    obtain ⟨chunk, crc, _, _, rfl⟩ := inv.built position pkt found
    rw [pktGetSeqnum, chunkPacket, BitVec.toNat_ofNat]
  · intro label enabled admissible
    obtain ⟨next, steps, _⟩ := sendStep_keeps host inv label enabled admissible
    exact ⟨next, steps⟩
  · rintro ambient position datagram ⟨between, window, announces⟩
    obtain ⟨slots, steps, kept⟩ := ack_step host ambient inv between announces
    obtain ⟨served, serves, same⟩ := ack_served steps
    obtain ⟨sameState, sameLog⟩ :=
      And.intro (congrArg SendRun.state same) (congrArg SendRun.log same)
    simp only at sameState sameLog
    refine ⟨served, serves, ?_, ?_⟩
    · have nothing : absolute run.base served.sent = [] := List.self_eq_append_right.mp sameLog
      exact List.map_eq_nil_iff.mp nothing
    · rw [← sameState, kept.windowPackets, inv.windowPackets, ← List.map_drop, List.drop_drop,
        Nat.add_sub_cancel' between.1]
  · rintro running ambient position datagram ⟨between, window, announces⟩
    obtain ⟨slots, clock, pkt, built, steps, kept⟩ :=
      nack_step host ambient inv running between announces
    obtain ⟨served, serves, same⟩ := nack_served steps
    obtain ⟨sameState, sameLog⟩ :=
      And.intro (congrArg SendRun.state same) (congrArg SendRun.log same)
    simp only at sameState sameLog
    refine ⟨served, pkt, serves, built, ?_, ?_⟩
    · have sent : absolute run.base served.sent = [(position, wire host pkt)] :=
        (List.append_cancel_left sameLog).symm
      have datagrams := congrArg (List.map Prod.snd) sent
      rw [absolute, List.map_map] at datagrams
      exact datagrams
    · rw [← sameState, kept.windowPackets, inv.windowPackets]
  · intro position one other first second
    obtain ⟨pkt, found, same⟩ := inv.log _ first
    obtain ⟨again, refound, sameAgain⟩ := inv.log _ second
    obtain rfl : pkt = again := Option.some.inj (found.symm.trans refound)
    exact same.trans sameAgain.symm

/-- A reachable run can be continued by a read, as long as the window has room. -/
theorem read_reachable (host : Host) (ambient : Ambient) {run : SendRun}
    (reached : (sendSystem host).Reachable run) (running : run.exited = false)
    (unended : [] ∉ run.chunks) (room : run.state.currentIndexWindow < run.state.limitedWindowSize)
    (chunk : List Byte) (bounded : chunk.length ≤ 512) :
    ∃ next, (sendSystem host).Reachable next ∧ next.exited = false ∧ next.base = run.base ∧
      next.chunks = run.chunks ++ [chunk] ∧
      next.state.limitedWindowSize = run.state.limitedWindowSize := by
  have inv := reachable_inv host reached
  have canRead : CanRead run.state := by
    rcases inv.ended with ⟨unfinished, _⟩ | ⟨_, front, ended, _⟩
    · exact .inl ⟨room, unfinished⟩
    · exact absurd (ended ▸ List.mem_append_right front (List.mem_singleton.mpr rfl)) unended
  obtain ⟨next, reads, _, base, exited, chunks, limited, _⟩ :=
    read_step host ambient inv canRead chunk bounded
  have step : (sendSystem host).step run (.read ambient chunk) next :=
    ⟨⟨running, canRead, bounded⟩, trivial, reads⟩
  exact ⟨next, System.reachable_step reached step, exited.trans running, base, chunks, limited⟩

/-- A run that read two chunks and had both acknowledged at once. -/
theorem acknowledged_run (ambient : Ambient) (first second : List Byte)
    (bounded : first.length ≤ 512 ∧ second.length ≤ 512) (nonempty : first ≠ []) :
    ∃ run, (sendSystem zlibHost).Reachable run ∧ run.chunks = [first, second] ∧ run.base = 2 ∧
      run.built.length = 2 := by
  have start : (sendSystem zlibHost).Reachable (sendRunStart (ambient.junk 0) 0) :=
    System.reachable_initial ⟨_, _, rfl⟩
  obtain ⟨one, reachedOne, running, base, chunks, limited⟩ := read_reachable zlibHost ambient start
    rfl (List.not_mem_nil) (by simp [sendRunStart, sendStart]) first bounded.1
  have chunkOne : one.chunks = [first] := chunks
  have invOne := reachable_inv zlibHost reachedOne
  have sizeOne := congrArg List.length chunkOne
  rw [← invOne.counted, List.length_singleton] at sizeOne
  have baseOne : one.base = 0 := base
  have limitedOne : one.state.limitedWindowSize = 31 := limited
  obtain ⟨two, reachedTwo, running, base, chunks, _⟩ := read_reachable zlibHost ambient reachedOne
    running (by rw [chunkOne, List.mem_singleton]; exact nonempty.symm)
    (by rw [invOne.index.1, limitedOne]; omega) second bounded.2
  have inv := reachable_inv zlibHost reachedTwo
  have chunksTwo : two.chunks = [first, second] := by rw [chunks, chunkOne]; rfl
  have size := congrArg List.length chunksTwo
  rw [← inv.counted] at size
  have between : two.base ≤ 2 ∧ 2 ≤ two.built.length := by
    rw [base, baseOne, size]
    exact ⟨Nat.zero_le 2, Nat.le_refl 2⟩
  have announces := announces_ack zlibHost 2 31 (by decide)
  obtain ⟨slots, acks, _⟩ := ack_step zlibHost ambient inv between announces
  have step : (sendSystem zlibHost).step two (.ack ambient 2 (ackDatagram zlibHost 2 31)) _ :=
    ⟨running, ⟨between, 31, announces⟩, acks⟩
  exact ⟨_, System.reachable_step reachedTwo step, chunksTwo, rfl, size⟩

/-- The window of such a run. -/
theorem window_invariant_acknowledged :
    ∃ run, run.chunks = [[0x41], [0x42]] ∧ run.base = 2 ∧ WindowInvariant zlibHost run := by
  obtain ⟨run, reached, chunks, base, _⟩ :=
    acknowledged_run quietAmbient [0x41] [0x42] (by decide)
      (by decide)
  exact ⟨run, chunks, base, window_invariant zlibHost run reached⟩

end SelectiveRepeat
