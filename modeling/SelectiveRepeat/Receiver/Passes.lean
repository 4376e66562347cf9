import SelectiveRepeat.Receiver.Insertion
import SelectiveRepeat.Receiver.Refinement

/-!
# What a pass can do

A pass that ended is read backwards here, from its result to the branch it took. The
draining loop has three ways to go on, the `if` statement has six ways through, and a
pass is one of these unless the datagram was too short for a header. What the later
modules say about single passes is said of these cases, without the code.
-/

namespace SelectiveRepeat

open PackedSlots CyclicNumbers Reassembly

variable {Ref : Type} {deref : Ref → Pkt}

/-! ## The buffer of a represented state -/

/-- The order of the buffer is the order of `compare_seqnums`. -/
theorem Represents.items {before : Reassembly31} {state : RecvState Ref}
    (represents : Represents deref before state) :
    ∃ items, state.receiveBuffer = packed maxWindowSize items ∧ items.length = before.count ∧
      Increasing deref state.lastack items := by
  obtain ⟨items, packing, labels⟩ := represents.buffer
  have counted := labels_length labels
  refine ⟨items, packing, counted, ?_⟩
  apply (increasing_iff state.lastack represents.bounded items).mpr
  -- the position of a packet is read off its label
  have ordered : (items.map (label deref)).Pairwise fun one other =>
      distance 256 before.delivered one.1 < distance 256 before.delivered other.1 := by
    rw [labels, List.pairwise_map]
    apply (scan_increasing before.held (before.delivered + 1) 30).imp_of_mem
    rintro ⟨one, first⟩ ⟨other, second⟩ listed later smaller
    obtain ⟨⟨low, high⟩, _⟩ := (mem_scan _ _ _ _ _).mp listed
    obtain ⟨⟨lower, higher⟩, _⟩ := (mem_scan _ _ _ _ _).mp later
    simp only [shown]
    rw [distance_ahead (by decide) (by omega) (by omega),
      distance_ahead (by decide) (by omega) (by omega)]
    omega
  rw [List.pairwise_map] at ordered
  apply ordered.imp
  intro one other smaller
  rw [position, position, represents.offset, represents.offset]
  exact smaller

/-- A packet is in the buffer if a slot refers to it. -/
theorem Represents.mem_iff {before : Reassembly31} {state : RecvState Ref}
    (represents : Represents deref before state) (pkt : Ref) :
    pkt ∈ state.receiveBuffer.reduceOption ↔ ∃ i, slot state.receiveBuffer i = some pkt := by
  obtain ⟨items, packing, _, _⟩ := represents.items
  simp only [packing, reduceOption_packed, slot_packed]
  exact List.mem_iff_getElem?

/-- There are as many packets in the slots as the reassembler holds. -/
theorem Represents.counted {before : Reassembly31} {state : RecvState Ref}
    (represents : Represents deref before state) :
    state.receiveBuffer.reduceOption.length = before.count := by
  obtain ⟨items, packing, counted, _⟩ := represents.items
  rw [packing, reduceOption_packed, counted]

/-- What is read into `pkt_buffer` is not represented. -/
theorem Represents.read {before : Reassembly31} {state : RecvState Ref}
    (represents : Represents deref before state) (pktBuffer : Nat → Byte) :
    Represents deref before { state with pktBuffer := pktBuffer } :=
  ⟨represents.lastack, represents.buffer, represents.window⟩

/-- `insert_pkt` meets a packet with the same number and releases the new one, or adds
it to those in the buffer. -/
theorem Represents.inserts {before : Reassembly31} {state : RecvState Ref}
    (represents : Represents deref before state) (pkt : Ref) :
    ((∃ entry ∈ state.receiveBuffer.reduceOption,
          pktGetSeqnum (deref entry) = pktGetSeqnum (deref pkt)) ∧
        insertPkt deref state.lastack state.receiveBuffer pkt state.windowSize =
          (state.receiveBuffer, state.windowSize, [.pktDel pkt])) ∨
      ((∀ entry ∈ state.receiveBuffer.reduceOption,
          pktGetSeqnum (deref entry) ≠ pktGetSeqnum (deref pkt)) ∧
        ∃ result, insertPkt deref state.lastack state.receiveBuffer pkt state.windowSize =
            (packed maxWindowSize result, state.windowSize - 1, []) ∧
          result.length ≤ 31 ∧ result.Perm (pkt :: state.receiveBuffer.reduceOption)) := by
  obtain ⟨items, packing, counted, increasing⟩ := represents.items
  have size : before.count ≤ 30 := entries_bounded before
  simp only [packing, reduceOption_packed]
  rcases insertPkt_places state.lastack represents.bounded items (by omega) increasing pkt
    state.windowSize with duplicate | ⟨absent, result, inserts, _, permuted⟩
  · exact .inl duplicate
  · have longer := permuted.length_eq
    rw [List.length_cons] at longer
    exact .inr ⟨absent, result, inserts, by omega, permuted⟩

/-! ## The draining loop -/

/-- How the draining loop goes on from an index: the indices run out, it stops at a slot
without the expected packet, or it takes the packet there. -/
inductive Drains (deref : Ref → Pkt) (host : Host) :
    Nat → Nat → RecvState Ref → RecvState Ref → List (Event Ref) → Prop where
  | exhausted (i : Nat) (state : RecvState Ref) : Drains deref host 0 i state state []
  | stopped (remaining : Nat) {i : Nat} {state : RecvState Ref} {datagram : List Byte}
      (other : ∀ entry, slot state.receiveBuffer i = some entry →
        pktGetSeqnum (deref entry) ≠ (state.lastack + 1) % 256)
      (sends : ∃ block junk,
        sendAck host block junk state.lastack state.windowSize = .ok datagram) :
      Drains deref host (remaining + 1) i state state [.sendAck datagram state.receiveBuffer]
  | taken {remaining i : Nat} {state last : RecvState Ref} {entry : Ref} {datagram : List Byte}
      {further : List (Event Ref)} (found : slot state.receiveBuffer i = some entry)
      (expected : pktGetSeqnum (deref entry) = (state.lastack + 1) % 256)
      (sends : ∃ block junk, sendAck host block junk ((state.lastack + 1) % 256)
        (state.windowSize + 1) = .ok datagram)
      (goesOn : Drains deref host remaining (i + 1) { state with
        receiveBuffer := state.receiveBuffer.set i none
        windowSize := state.windowSize + 1
        lastack := (state.lastack + 1) % 256 } last further) :
      Drains deref host (remaining + 1) i state last (.writePayload (writePayload (deref entry)) ::
        .pktDel entry :: .sendAck datagram (state.receiveBuffer.set i none) :: further)

/-- A run of the draining loop is one of the ways of `Drains`. Induction on the indices that
remain. -/
theorem drainLoop_ends (host : Host) (ambient : Ambient) {remaining i : Nat}
    {state last : RecvState Ref} {events : List (Event Ref)}
    (ends : drainLoop deref host ambient remaining i state = .ok (last, events)) :
    Drains deref host remaining i state last events := by
  induction remaining generalizing i state last events with
  | zero =>
    rw [drainLoop] at ends
    cases ends
    exact .exhausted i state
  | succ remaining inductionHypothesis =>
    rw [drainLoop] at ends
    cases found : slot state.receiveBuffer i with
    | none =>
      rw [found] at ends
      obtain ⟨datagram, sends, same⟩ := run_bind ends
      cases same
      apply Drains.stopped remaining
      · simp [found]
      · exact ⟨_, _, sends⟩
    | some entry =>
      rw [found] at ends
      dsimp only at ends
      split at ends
      case isTrue expected =>
        obtain ⟨datagram, sends, ends⟩ := run_bind ends
        obtain ⟨⟨final, further⟩, loops, same⟩ := run_bind ends
        cases same
        exact .taken found expected ⟨_, _, sends⟩ (inductionHypothesis loops)
      case isFalse other =>
        obtain ⟨datagram, sends, same⟩ := run_bind ends
        cases same
        apply Drains.stopped remaining
        · intro another same
          obtain rfl : entry = another := Option.some.inj (found.symm.trans same)
          exact other
        · exact ⟨_, _, sends⟩

/-! ## The if statement -/

/-- The test of the receiver whether a packet is in its window. -/
abbrev Inside (deref : Ref → Pkt) (state : RecvState Ref) (pkt : Ref) : Prop :=
  compareSeqnums state.lastack (pktGetSeqnum (deref pkt))
    (((state.lastack + 1) % 256 : Nat) : Int) < maxWindowSize

/-- The ways through the `if` statement. -/
inductive Handled (deref : Ref → Pkt) (host : Host) (ambient : Ambient) (err : PktStatusCode)
    (sduSize : Int) (pkt : Ref) (state : RecvState Ref) :
    RecvState Ref → List (Event Ref) → Prop where
  | outside (far : ¬ Inside deref state pkt) :
      Handled deref host ambient err sduSize pkt state state []
  | cut (near : Inside deref state pkt) (failed : err ≠ .pktOk)
      (header : err = .eUnconsistent ∧ sduSize = 4) {datagram : List Byte}
      (sends : ∃ block junk,
        sendNack host block junk (pktGetSeqnum (deref pkt)) state.windowSize = .ok datagram) :
      Handled deref host ambient err sduSize pkt state state
        [.sendNack datagram state.receiveBuffer, .free pkt]
  | damaged (near : Inside deref state pkt) (failed : err ≠ .pktOk)
      (whole : ¬ (err = .eUnconsistent ∧ sduSize = 4)) :
      Handled deref host ambient err sduSize pkt state state [.free pkt]
  | expected (near : Inside deref state pkt) (decoded : err = .pktOk)
      (next : pktGetSeqnum (deref pkt) = (state.lastack + 1) % 256) {last : RecvState Ref}
      {drained : List (Event Ref)}
      (drains : drainLoop deref host ambient maxWindowSize 0
        { state with lastack := (state.lastack + 1) % 256 } = .ok (last, drained)) :
      Handled deref host ambient err sduSize pkt state last
        (.writePayload (writePayload (deref pkt)) :: .pktDel pkt :: drained)
  | duplicate (near : Inside deref state pkt) (decoded : err = .pktOk)
      (other : pktGetSeqnum (deref pkt) ≠ (state.lastack + 1) % 256)
      (present : ∃ entry ∈ state.receiveBuffer.reduceOption,
        pktGetSeqnum (deref entry) = pktGetSeqnum (deref pkt)) :
      Handled deref host ambient err sduSize pkt state state [.pktDel pkt]
  | added (near : Inside deref state pkt) (decoded : err = .pktOk)
      (other : pktGetSeqnum (deref pkt) ≠ (state.lastack + 1) % 256)
      (absent : ∀ entry ∈ state.receiveBuffer.reduceOption,
        pktGetSeqnum (deref entry) ≠ pktGetSeqnum (deref pkt)) {result : List Ref}
      (fits : result.length ≤ 31)
      (permuted : result.Perm (pkt :: state.receiveBuffer.reduceOption)) :
      Handled deref host ambient err sduSize pkt state { state with
        receiveBuffer := packed maxWindowSize result
        windowSize := state.windowSize - 1 } []

/-- A run of the `if` statement is one of the ways of `Handled`; one case for each of its
branches. -/
theorem handlePacket_ends (host : Host) (ambient : Ambient) {before : Reassembly31}
    {state last : RecvState Ref} (represents : Represents deref before state)
    {err : PktStatusCode} {sduSize : Int} {pkt : Ref} {events : List (Event Ref)}
    (ends : handlePacket deref host ambient err sduSize pkt state = .ok (last, events)) :
    Handled deref host ambient err sduSize pkt state last events := by
  rw [handlePacket] at ends
  dsimp only at ends
  split at ends
  case isFalse far =>
    cases ends
    exact .outside far
  case isTrue near =>
    split at ends
    case isTrue failed =>
      split at ends
      case isTrue header =>
        obtain ⟨datagram, sends, same⟩ := run_bind ends
        cases same
        exact .cut near failed header ⟨_, _, sends⟩
      case isFalse whole =>
        cases ends
        exact .damaged near failed whole
    case isFalse accepted =>
      have decoded : err = .pktOk := by simpa using accepted
      split at ends
      case isTrue next =>
        rw [deliverExpected, removeFromBuffer_keeps represents] at ends
        obtain ⟨⟨final, drained⟩, drains, same⟩ := run_bind ends
        cases same
        exact .expected near decoded next drains
      case isFalse other =>
        rcases represents.inserts pkt with
          ⟨present, inserts⟩ | ⟨absent, result, inserts, fits, permuted⟩
        · rw [inserts] at ends
          cases ends
          exact .duplicate near decoded other present
        · rw [inserts] at ends
          cases ends
          exact .added near decoded other absent fits permuted

/-! ## The pass -/

/-- What a pass makes of the datagram it reads. -/
def decodedRead (host : Host) (ambient : Ambient) (result : Option (List Byte))
    (state : RecvState Ref) : PktStatusCode × Pkt :=
  pktDecode host (readInto maxSduSize result state.pktBuffer)
    (asSize (readSize maxSduSize result)) (pktNew (ambient.fresh 0))

/-- A pass deletes its packet if there is no header, and goes through the `if` statement
otherwise. -/
theorem selRepeatReadBody_ends (host : Host) (allocator : Allocator deref) (ambient : Ambient)
    (result : Option (List Byte)) {before : Reassembly31} {state next : RecvState Ref}
    (represents : Represents deref before state) {events : List (Event Ref)}
    (ends : selRepeatReadBody deref host allocator ambient result state = .ok (next, events)) :
    ((decodedRead host ambient result state).1 = .eNoheader ∧
        next.receiveBuffer = state.receiveBuffer ∧
        events = [.pktDel (allocator.alloc (decodedRead host ambient result state).2)]) ∨
      ((decodedRead host ambient result state).1 ≠ .eNoheader ∧
        ∃ last, next = refreshed last ∧
          Handled deref host ambient (decodedRead host ambient result state).1
            (readSize maxSduSize result)
            (allocator.alloc (decodedRead host ambient result state).2)
            { state with pktBuffer := readInto maxSduSize result state.pktBuffer }
            last events) := by
  have kept := represents.read (readInto maxSduSize result state.pktBuffer)
  obtain ⟨⟨err, content⟩, decodes⟩ : ∃ decoded, decodedRead host ambient result state = decoded :=
    ⟨_, rfl⟩
  rw [decodes]
  rw [decodedRead] at decodes
  rw [selRepeatReadBody, decodes] at ends
  dsimp only at ends ⊢
  split at ends
  case isTrue headless =>
    cases ends
    have compacted : (refreshed state).receiveBuffer = state.receiveBuffer := by
      rw [represents.refreshed]
    exact .inl ⟨headless, compacted, rfl⟩
  case isFalse header =>
    obtain ⟨⟨last, done⟩, handles, same⟩ := run_bind ends
    cases same
    exact .inr ⟨header, last, rfl, handlePacket_ends host ambient kept handles⟩

end SelectiveRepeat
