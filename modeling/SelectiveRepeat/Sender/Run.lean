import SelectiveRepeat.Library.Transition
import SelectiveRepeat.Sender.Parts

/-!
# Runs of the sender

Beside the locals of `sel_repeat_write`, a run remembers what the code forgets: the
packets it built and the chunks it read, the index of the oldest packet that is not
acknowledged, and every datagram it wrote under the index of its packet. Indices are
counted without the wrap.

As long as each acknowledgement is for a number between the oldest packet and the
next one, and each negative one for a packet in between, the window is exactly the
packets that are not acknowledged.
-/

namespace SelectiveRepeat

open PackedSlots

/-- The sender, and what happened so far. -/
structure SendRun where
  state : SendState
  base : Nat
  built : List Pkt
  chunks : List (List Byte)
  log : List (Nat × List Byte)
  exited : Bool

/-- Before the first pass. -/
def sendRunStart (junk : Nat → Byte) (clock : Int) : SendRun where
  state := sendStart junk clock
  base := 0
  built := []
  chunks := []
  log := []
  exited := false

/-- The parts of a pass. The index of an answer is not in its datagram. -/
inductive SendLabel where
  | scan (ambient : Ambient)
  | read (ambient : Ambient) (chunk : List Byte)
  | ack (ambient : Ambient) (index : Nat) (datagram : List Byte)
  | nack (ambient : Ambient) (index : Nat) (datagram : List Byte)

/-- What was sent, under the index of its packet. -/
def absolute (base : Nat) (sent : List Sent) : List (Nat × List Byte) :=
  sent.map fun item => (((base : Int) + item.slot).toNat, item.datagram)

/-- One part of a pass. -/
def sendStep (host : Host) (run : SendRun) : SendLabel → Run SendRun
  | .scan ambient => do
    let (state, sent) ← scanTimers host ambient run.state
    return { run with state := state, log := run.log ++ absolute run.base sent }
  | .read ambient chunk => do
    let (state, sent) ← readInput host ambient (some chunk) run.state
    return { run with
      state := state
      built := run.built ++ [builtPacket ambient (some chunk) run.state]
      chunks := run.chunks ++ [chunk]
      log := run.log ++ absolute run.base sent }
  | .ack ambient index datagram => do
    let served ← readSocket host ambient (some datagram) run.state
    return { run with
      state := served.state
      base := index
      log := run.log ++ absolute run.base served.sent
      exited := served.exited }
  | .nack ambient _ datagram => do
    let served ← readSocket host ambient (some datagram) run.state
    return { run with
      state := served.state
      log := run.log ++ absolute run.base served.sent
      exited := served.exited }

/-- The code runs, and reads the input only when it looks at it. -/
def Enabled (run : SendRun) : SendLabel → Prop
  | .read _ chunk => run.exited = false ∧ CanRead run.state ∧ chunk.length ≤ 512
  | _ => run.exited = false

/-- Acknowledgements from the oldest packet to the next one, and negative ones of the
packets in between. -/
def Admissible (host : Host) (run : SendRun) : SendLabel → Prop
  | .ack _ index datagram => (run.base ≤ index ∧ index ≤ run.built.length) ∧
      ∃ window, Announces host datagram ptypeAck (index % 256) window
  | .nack _ index datagram => (run.base ≤ index ∧ index < run.built.length) ∧
      ∃ window, Announces host datagram ptypeNack (index % 256) window
  | _ => True

/-- The sender, in an environment that only sends admissible answers. -/
def sendSystem (host : Host) : Transition.System SendRun SendLabel where
  initial run := ∃ junk clock, run = sendRunStart junk clock
  step before label after := Enabled before label ∧ Admissible host before label ∧
    sendStep host before label = .ok after

/-- The packets in the slots that `current_index_window` counts. -/
def windowPackets (state : SendState) : List (Option Pkt) :=
  (state.window.take state.currentIndexWindow.toNat).map (Option.map PktTimer.packet)

/-! ## The invariant -/

/-- The input has not ended, or its end was the last chunk read. -/
def Ended (finish : Int) (chunks : List (List Byte)) : Prop :=
  (finish = 0 ∧ [] ∉ chunks) ∨ (finish = 1 ∧ ∃ front, chunks = front ++ [[]] ∧ [] ∉ front)

/-- The invariant of the sender. The first slots of its window hold the timers of the packets
from `base` on, in the order they were built. Each packet carries its chunk of the input under
its index modulo 256 and has been sent, and whatever was sent is the datagram of a packet. The
number of the next packet counts them. `finish` tells whether the end of the input was read,
and the program has exited exactly if it was and nothing is left in the window. -/
structure SendInv (host : Host) (run : SendRun) : Prop where
  queue : ∃ timers, Queued timers run.state ∧
    timers.map PktTimer.packet = run.built.drop run.base
  behind : run.base ≤ run.built.length
  seqnum : run.state.seqnum = BitVec.ofNat 8 run.built.length
  limited : 0 ≤ run.state.limitedWindowSize ∧ run.state.limitedWindowSize ≤ 31
  counted : run.built.length = run.chunks.length
  built : ∀ index pkt, run.built[index]? = some pkt → ∃ chunk crc,
    run.chunks[index]? = some chunk ∧ chunk.length ≤ 512 ∧ pkt = chunkPacket index chunk crc
  log : ∀ entry ∈ run.log, ∃ pkt, run.built[entry.1]? = some pkt ∧ entry.2 = wire host pkt
  transmitted : ∀ index pkt, run.built[index]? = some pkt → (index, wire host pkt) ∈ run.log
  ended : Ended run.state.finish run.chunks
  exited : run.exited = true → run.base = run.built.length ∧ run.state.finish = 1
  running : run.exited = false → run.state.finish = 1 → run.base < run.built.length

/-- Before the first pass the window is empty, and nothing was built or sent. -/
theorem sendRunStart_inv (host : Host) (junk : Nat → Byte) (clock : Int) :
    SendInv host (sendRunStart junk clock) where
  queue := ⟨[], ⟨⟨_, rfl⟩, rfl, rfl, by simp, by simp⟩, rfl⟩
  behind := Nat.le_refl _
  seqnum := rfl
  limited := by simp [sendRunStart, sendStart]
  counted := rfl
  built := by simp [sendRunStart]
  log := by simp [sendRunStart]
  transmitted := by simp [sendRunStart]
  ended := .inl ⟨rfl, by simp [sendRunStart]⟩
  exited := by simp [sendRunStart]
  running := by simp [sendRunStart, sendStart]

/-- As many timers are queued as packets are unacknowledged. -/
theorem timers_length {timers : List PktTimer} {built : List Pkt} {base : Nat}
    (packets : timers.map PktTimer.packet = built.drop base) :
    timers.length = built.length - base := by
  have same := congrArg List.length packets
  rwa [List.length_map, List.length_drop] at same

/-- The slots in use are those of the packets not yet acknowledged, which are at most 31. -/
theorem SendInv.index {host : Host} {run : SendRun} (inv : SendInv host run) :
    run.state.currentIndexWindow = ((run.built.length - run.base : Nat) : Int) ∧
      run.built.length ≤ run.base + 31 := by
  obtain ⟨timers, queued, packets⟩ := inv.queue
  have size := timers_length packets
  have short := queued.short
  rw [queued.index, size]
  omega

/-- The timer of packet `index` of the queue. -/
theorem timer_packet {timers : List PktTimer} {built : List Pkt} {base offset : Nat}
    {element : PktTimer} (packets : timers.map PktTimer.packet = built.drop base)
    (found : timers[offset]? = some element) : built[base + offset]? = some element.packet := by
  rw [← List.getElem?_drop, ← packets, List.getElem?_map, found, Option.map_some]

/-- These slots hold these packets. -/
theorem SendInv.windowPackets {host : Host} {run : SendRun} (inv : SendInv host run) :
    windowPackets run.state = (run.built.drop run.base).map some := by
  obtain ⟨timers, queued, packets⟩ := inv.queue
  obtain ⟨rest, window⟩ := queued.window
  have counted : (timers.map some).length = timers.length := List.length_map ..
  rw [SelectiveRepeat.windowPackets, queued.index, Int.toNat_natCast, window, ← packets, ← counted,
    List.take_left, List.map_map, List.map_map]
  rfl

/-- A datagram of the queue, under its index. -/
theorem absolute_fromQueue (host : Host) {base : Nat} {built : List Pkt} {timers : List PktTimer}
    (packets : timers.map PktTimer.packet = built.drop base) {sent : List Sent}
    (fromQueue : FromQueue host 0 timers sent) :
    ∀ entry ∈ absolute base sent, ∃ pkt, built[entry.1]? = some pkt ∧ entry.2 = wire host pkt := by
  intro entry listed
  obtain ⟨item, inside, rfl⟩ := List.mem_map.mp listed
  obtain ⟨i, element, found, rfl⟩ := fromQueue item inside
  have position : (((base : Int) + ((0 + i : Nat) : Int)).toNat) = base + i := by omega
  refine ⟨element.packet, ?_, rfl⟩
  simp only [position]
  exact timer_packet packets found

/-- The scan: the packets stay, and what it sends are packets of the window. All of
them, if enough time passes. -/
theorem scan_step (host : Host) (ambient : Ambient) {run : SendRun} (inv : SendInv host run) :
    ∃ state sent, sendStep host run (.scan ambient) =
        .ok { run with state := state, log := run.log ++ absolute run.base sent } ∧
      SendInv host { run with state := state, log := run.log ++ absolute run.base sent } ∧
      SameButTimers run.state state ∧
      ((∀ reading, ambient.elapsed reading = 6) → ∀ index pkt, run.base ≤ index →
        run.built[index]? = some pkt → (index, wire host pkt) ∈ absolute run.base sent) := by
  obtain ⟨timers, queued, packets⟩ := inv.queue
  obtain ⟨after, next, sent, scans, queuedAfter, same, kept, fromQueue, resends⟩ :=
    scanTimers_exact host ambient queued
  obtain ⟨window, clock, rfl⟩ := same
  refine ⟨_, sent, by rw [sendStep, scans]; rfl, ?_, ⟨window, clock, rfl⟩, ?_⟩
  · refine { inv with
      queue := ⟨after, queuedAfter, kept.trans packets⟩
      log := ?_
      transmitted := fun index pkt built =>
        List.mem_append_left _ (inv.transmitted index pkt built) }
    intro entry listed
    rcases List.mem_append.mp listed with earlier | new
    · exact inv.log entry earlier
    · exact absolute_fromQueue host packets fromQueue entry new
  · intro slow index pkt beyond built
    obtain ⟨offset, rfl⟩ : ∃ offset, index = run.base + offset := ⟨index - run.base, by omega⟩
    have found : (timers.map PktTimer.packet)[offset]? = some pkt := by
      rw [packets, List.getElem?_drop, built]
    rw [List.getElem?_map, Option.map_eq_some_iff] at found
    obtain ⟨element, foundHere, rfl⟩ := found
    have position : (((run.base : Int) + ((0 + offset : Nat) : Int)).toNat) =
        run.base + offset := by
      omega
    exact List.mem_map.mpr ⟨_, resends slow offset element foundHere, by rw [position]⟩

/-- An element of a list with one more at its end is an old one, or that one. -/
theorem found_append {Elem : Type} {list : List Elem} {last one : Elem} {index : Nat}
    (found : (list ++ [last])[index]? = some one) :
    list[index]? = some one ∨ (index = list.length ∧ one = last) := by
  by_cases old : index < list.length
  · rw [List.getElem?_append_left old] at found
    exact .inl found
  · rw [List.getElem?_append_right (by omega), List.getElem?_singleton] at found
    split at found
    case isTrue first => exact .inr ⟨by omega, (Option.some.inj found).symm⟩
    case isFalse => simp at found

/-- Every packet comes from a chunk, after one more of each. -/
theorem SendInv.built_append {host : Host} {run : SendRun} (inv : SendInv host run)
    {chunk : List Byte} {crc : BitVec 32} (bounded : chunk.length ≤ 512) :
    ∀ index pkt, (run.built ++ [chunkPacket run.built.length chunk crc])[index]? = some pkt →
      ∃ chunk' crc, (run.chunks ++ [chunk])[index]? = some chunk' ∧ chunk'.length ≤ 512 ∧
        pkt = chunkPacket index chunk' crc := by
  intro index pkt found
  rcases found_append found with old | ⟨rfl, rfl⟩
  · obtain ⟨earlier, crc, read, short, same⟩ := inv.built index pkt old
    have inside := (List.getElem?_eq_some_iff.mp read).1
    exact ⟨earlier, crc, (List.getElem?_append_left inside).trans read, short, same⟩
  · exact ⟨chunk, crc, by rw [inv.counted]; simp, bounded, rfl⟩

/-- The log still shows what was built, after one more packet that was sent at once. -/
theorem SendInv.log_append {host : Host} {run : SendRun} (inv : SendInv host run) (pkt : Pkt) :
    (∀ entry ∈ run.log ++ [(run.built.length, wire host pkt)],
      ∃ other, (run.built ++ [pkt])[entry.1]? = some other ∧ entry.2 = wire host other) ∧
    (∀ index other, (run.built ++ [pkt])[index]? = some other →
      (index, wire host other) ∈ run.log ++ [(run.built.length, wire host pkt)]) := by
  constructor
  · intro entry listed
    rcases List.mem_append.mp listed with earlier | new
    · obtain ⟨other, found, same⟩ := inv.log entry earlier
      have inside := (List.getElem?_eq_some_iff.mp found).1
      exact ⟨other, (List.getElem?_append_left inside).trans found, same⟩
    · obtain rfl := List.mem_singleton.mp new
      exact ⟨pkt, by simp, rfl⟩
  · intro index other found
    rcases found_append found with old | ⟨rfl, rfl⟩
    · exact List.mem_append_left _ (inv.transmitted index other old)
    · exact List.mem_append_right _ (List.mem_singleton.mpr rfl)

/-- An empty chunk is the end of the input. -/
theorem ended_append {chunks : List (List Byte)} (fresh : [] ∉ chunks) (chunk : List Byte)
    {finish : Int} (running : finish = 0) :
    Ended (if chunk.length = 0 then 1 else finish) (chunks ++ [chunk]) := by
  by_cases last : chunk.length = 0
  · obtain rfl := List.length_eq_zero_iff.mp last
    exact .inr ⟨rfl, chunks, rfl, fresh⟩
  · refine .inl ⟨by simp only [last, if_false, running], ?_⟩
    rw [List.mem_append, List.mem_singleton]
    rintro (earlier | rfl)
    · exact fresh earlier
    · exact last rfl

/-- A read appends the packet of its chunk, and sends it. -/
theorem read_step (host : Host) (ambient : Ambient) {run : SendRun} (inv : SendInv host run)
    (canRead : CanRead run.state) (chunk : List Byte) (bounded : chunk.length ≤ 512) :
    ∃ next, sendStep host run (.read ambient chunk) = .ok next ∧ SendInv host next ∧
      next.base = run.base ∧ next.exited = run.exited ∧ next.chunks = run.chunks ++ [chunk] ∧
      next.state.limitedWindowSize = run.state.limitedWindowSize ∧
      (∃ pkt, next.built = run.built ++ [pkt] ∧
        next.log = run.log ++ [(run.built.length, wire host pkt)]) := by
  obtain ⟨timers, queued, packets⟩ := inv.queue
  have limited := inv.limited
  have size := timers_length packets
  have behind := inv.behind
  have room : timers.length < 31 := by
    have index := queued.index
    rcases canRead with ⟨below, _⟩ | ⟨_, empty, _⟩ <;> omega
  have running : run.state.finish = 0 := by
    rcases canRead with ⟨_, running⟩ | ⟨_, _, running⟩ <;> exact running
  have fresh : [] ∉ run.chunks := by
    rcases inv.ended with ⟨_, fresh⟩ | ⟨ended, _⟩
    · exact fresh
    · omega
  obtain ⟨element, window, buffer, clock, reads, packet, queuedAfter⟩ :=
    readInput_exact host ambient queued room chunk bounded run.built.length inv.seqnum
  have built := builtPacket_chunk ambient chunk run.state bounded run.built.length inv.seqnum
  have position : ((run.base : Int) + timers.length).toNat = run.built.length := by omega
  have sent : absolute run.base [⟨timers.length, wire host element.packet⟩] =
      [(run.built.length, wire host (builtPacket ambient (some chunk) run.state))] := by
    simp only [absolute, List.map_cons, List.map_nil, position, packet]
  have steps : sendStep host run (.read ambient chunk) = .ok { run with
      state := { run.state with
        buffer := buffer
        seqnum := BitVec.ofNat 8 (run.built.length + 1)
        window := window
        currentIndexWindow := timers.length + 1
        finish := if chunk.length = 0 then 1 else run.state.finish
        clock := clock }
      built := run.built ++ [builtPacket ambient (some chunk) run.state]
      chunks := run.chunks ++ [chunk]
      log := run.log ++
        [(run.built.length, wire host (builtPacket ambient (some chunk) run.state))] } := by
    rw [sendStep, reads, ← sent]
    rfl
  obtain ⟨logged, transmitted⟩ := inv.log_append (builtPacket ambient (some chunk) run.state)
  refine ⟨_, steps, ?_, rfl, rfl, rfl, rfl, ⟨_, rfl, rfl⟩⟩
  refine ⟨⟨_, queuedAfter, ?_⟩, ?_, ?_, limited, ?_, ?_, logged, transmitted,
    ended_append fresh chunk running, ?_, ?_⟩
  · rw [List.map_append, packets, List.map_singleton, packet, List.drop_append_of_le_length behind]
  · simp only [List.length_append]
    omega
  · simp
  · simp [inv.counted]
  · rw [built]
    exact inv.built_append bounded
  · intro exited
    have done := (inv.exited exited).2
    omega
  · intro _ _
    simp only [List.length_append, List.length_singleton]
    omega

/-- An announced window is one of five bits. -/
theorem announced_window (host : Host) {datagram : List Byte} {type : BitVec 32}
    {number window : Nat} (announces : Announces host datagram type number window) :
    window ≤ 31 := by
  obtain ⟨pkt, _, _, _, rfl⟩ := announces.2 _ blankPkt (holds_getElem datagram (fun _ => 0))
  have bounded := pkt.window.isLt
  simp only [pktGetWindow]
  omega

/-- The number of the next packet is its index modulo 256. -/
theorem SendInv.number {host : Host} {run : SendRun} (inv : SendInv host run) :
    run.state.seqnum.toNat = run.built.length % 256 := by
  rw [inv.seqnum, BitVec.toNat_ofNat]

/-- An acknowledgement of all packets before `index` drops exactly these. -/
theorem ack_step (host : Host) (ambient : Ambient) {run : SendRun} (inv : SendInv host run)
    {index window : Nat} {datagram : List Byte}
    (between : run.base ≤ index ∧ index ≤ run.built.length)
    (announces : Announces host datagram ptypeAck (index % 256) window) :
    ∃ slots, sendStep host run (.ack ambient index datagram) = .ok { run with
        state := { run.state with
          limitedWindowSize := window
          window := slots
          currentIndexWindow := (run.built.length - index : Nat) }
        base := index
        exited := run.built.length = index ∧ run.state.finish = 1 } ∧
      SendInv host { run with
        state := { run.state with
          limitedWindowSize := window
          window := slots
          currentIndexWindow := (run.built.length - index : Nat) }
        base := index
        exited := run.built.length = index ∧ run.state.finish = 1 } := by
  obtain ⟨timers, queued, packets⟩ := inv.queue
  have size := timers_length packets
  have short := queued.short
  have number := inv.number
  obtain ⟨slots, serves, queuedAfter⟩ := readSocket_ack host ambient queued announces
    (Nat.mod_lt _ (by decide)) (index - run.base) (by omega) (by rw [number]; omega)
  have remaining : timers.length - (index - run.base) = run.built.length - index := by omega
  have emptied : timers.length = index - run.base ↔ run.built.length = index := by omega
  have small := announced_window host announces
  rw [remaining] at serves queuedAfter
  refine ⟨slots, ?_, ?_⟩
  · rw [sendStep, serves]
    simp only [bind, Except.bind, pure, Except.pure, absolute, List.map_nil, List.append_nil,
      emptied]
  · refine { inv with
      queue := ⟨_, queuedAfter, ?_⟩
      behind := between.2
      limited := by simp only; omega
      exited := ?_
      running := ?_ }
    · rw [List.map_drop, packets, List.drop_drop, Nat.add_sub_cancel' between.1]
    · simp only [decide_eq_true_eq]
      rintro ⟨all, ended⟩
      exact ⟨all.symm, ended⟩
    · simp only [decide_eq_false_iff_not]
      intro unfinished ended
      have other : run.built.length ≠ index := fun all => unfinished ⟨all, ended⟩
      omega

/-- A negative acknowledgement of packet `index` resends exactly that packet. -/
theorem nack_step (host : Host) (ambient : Ambient) {run : SendRun} (inv : SendInv host run)
    (running : run.exited = false) {index window : Nat} {datagram : List Byte}
    (between : run.base ≤ index ∧ index < run.built.length)
    (announces : Announces host datagram ptypeNack (index % 256) window) :
    ∃ slots clock pkt, run.built[index]? = some pkt ∧
      sendStep host run (.nack ambient index datagram) = .ok { run with
        state := { run.state with
          limitedWindowSize := window
          window := slots
          clock := clock }
        log := run.log ++ [(index, wire host pkt)] } ∧
      SendInv host { run with
        state := { run.state with
          limitedWindowSize := window
          window := slots
          clock := clock }
        log := run.log ++ [(index, wire host pkt)] } := by
  obtain ⟨timers, queued, packets⟩ := inv.queue
  have size := timers_length packets
  have short := queued.short
  have number := inv.number
  have small := announced_window host announces
  obtain ⟨element, found⟩ : ∃ element, timers[index - run.base]? = some element :=
    ⟨_, List.getElem?_eq_getElem (by omega)⟩
  have built : run.built[index]? = some element.packet := by
    rw [← timer_packet packets found, Nat.add_sub_cancel' between.1]
  obtain ⟨slots, clock, replaced, serves, packet, queuedAfter⟩ :=
    readSocket_nack host ambient queued announces (Nat.mod_lt _ (by decide)) (index - run.base)
      element found (by rw [number]; omega)
  have position : ((run.base : Int) + ((index - run.base : Nat) : Int)).toNat = index := by omega
  refine ⟨slots, clock, element.packet, built, ?_, ?_⟩
  · rw [sendStep, serves]
    simp only [bind, Except.bind, pure, Except.pure, absolute, List.map_cons, List.map_nil,
      position, running]
  · refine { inv with
      queue := ⟨_, queuedAfter, ?_⟩
      limited := by simp only; omega
      log := ?_
      transmitted := fun index pkt built =>
        List.mem_append_left _ (inv.transmitted index pkt built) }
    · have own : (run.built.drop run.base)[index - run.base]? = some element.packet := by
        rw [List.getElem?_drop, Nat.add_sub_cancel' between.1, built]
      obtain ⟨inside, same⟩ := List.getElem?_eq_some_iff.mp own
      rw [List.map_set, packet, packets, ← same]
      exact List.set_getElem_self inside
    · intro entry listed
      rcases List.mem_append.mp listed with earlier | new
      · exact inv.log entry earlier
      · obtain rfl := List.mem_singleton.mp new
        exact ⟨element.packet, built, rfl⟩

end SelectiveRepeat
