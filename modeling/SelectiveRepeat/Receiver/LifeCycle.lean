import SelectiveRepeat.Library.Ledger
import SelectiveRepeat.Receiver.Ownership

/-!
# The life of a packet in the receiver

Here a pointer is an address together with the struct behind it, which no function
changes once `pkt_decode` has filled it, and a heap knows of each packet whether it is
live and what its payload pointer is. `pkt_new` leaves the payload pointer unset, and
only a successful `pkt_set_payload` sets it. `pkt_del` releases the payload block too,
so it needs a payload pointer; `free` does not.

The balance of a pass then says what is released and what stays: distinct live blocks.
The one release that goes wrong is that of a packet whose datagram was too short for a
header, since `pkt_decode` returns before anything is set.
-/

namespace SelectiveRepeat

open PackedSlots Reassembly Ledger

/-- A pointer to a packet, with the struct behind it. -/
structure Pointer where
  address : Nat
  content : Pkt

/-- The two ways the receiver releases a packet. -/
inductive Release where
  | pktDel
  | free

/-- The payload pointers that may be there: `pkt_del` passes it to `free`. -/
def Permits : Release → Option (List Byte) → Prop
  | .pktDel, payload => payload ≠ none
  | .free, _ => True

/-- The releases of a pass, in order. -/
def releases (events : List (Event Pointer)) : List (Release × Nat) :=
  events.filterMap fun
    | .pktDel pkt => some (.pktDel, pkt.address)
    | .free pkt => some (.free, pkt.address)
    | _ => none

/-- `malloc` gives the packet the next address. -/
def allocatorAt (heap : Heap (Option (List Byte))) : Allocator Pointer.content :=
  ⟨fun pkt => ⟨heap.length, pkt⟩, fun _ => rfl⟩

/-- The heap of a pass once its datagram is decoded. -/
def heapAfterDecode (host : Host) (arrival : Arrival) (heap : Heap (Option (List Byte)))
    (state : RecvState Pointer) : Heap (Option (List Byte)) :=
  allocate heap (decodedRead host arrival.ambient arrival.result state).2.payload

/-- At the head of the loop: no slot refers to a released packet, and no two slots to
one packet. -/
structure LoopHead (heap : Heap (Option (List Byte))) (state : RecvState Pointer) : Prop where
  live : ∀ i pkt, slot state.receiveBuffer i = some pkt → ∃ payload, Live heap pkt.address payload
  apart : ∀ i j pkt other, slot state.receiveBuffer i = some pkt →
    slot state.receiveBuffer j = some other → pkt.address = other.address → i = j

/-- A run of passes in which every release is of a live packet, by `pkt_del` only of one
with a payload, and the buffer is sound at the head of each pass and at the end. -/
inductive LawfulRun (host : Host) :
    List Arrival → Heap (Option (List Byte)) → RecvState Pointer → Prop where
  | ended {heap : Heap (Option (List Byte))} {state : RecvState Pointer}
      (head : LoopHead heap state) : LawfulRun host [] heap state
  | passed {arrival : Arrival} {rest : List Arrival} {heap : Heap (Option (List Byte))}
      {state next : RecvState Pointer} {events : List (Event Pointer)} (head : LoopHead heap state)
      (passes : selRepeatReadBody Pointer.content host (allocatorAt heap) arrival.ambient
        arrival.result state = .ok (next, events))
      (lawful : Lawful Permits (heapAfterDecode host arrival heap state) (releases events))
      (further : LawfulRun host rest
        (releaseAll (heapAfterDecode host arrival heap state) (releases events)) next) :
      LawfulRun host (arrival :: rest) heap state

/-- A datagram of fewer than four bytes. -/
def Short (arrival : Arrival) : Prop := ∃ sdu, arrival.result = some sdu ∧ sdu.length < 4

/-- An arrival is not short where `read` fails or returns four bytes or more. -/
theorem not_short_iff (arrival : Arrival) :
    ¬ Short arrival ↔ ∀ sdu, arrival.result = some sdu → 4 ≤ sdu.length := by
  constructor
  · intro long sdu read
    by_contra few
    exact long ⟨sdu, read, Nat.lt_of_not_le few⟩
  · rintro long ⟨sdu, read, few⟩
    exact absurd few (Nat.not_lt.mpr (long sdu read))

/-! ## Released addresses -/

/-- What is released, as addresses. -/
theorem releases_addresses (events : List (Event Pointer)) :
    (releases events).map Prod.snd = (released events).map Pointer.address := by
  induction events with
  | nil => rfl
  | cons event rest inductionHypothesis =>
    simp only [releases, released] at inductionHypothesis
    cases event <;> simp [releases, released, inductionHypothesis]

/-- A release is that of a packet among the events. -/
theorem release_event {events : List (Event Pointer)} {entry : Release × Nat}
    (listed : entry ∈ releases events) :
    ∃ pkt ∈ released events, entry.2 = pkt.address ∧
      (entry.1 = .pktDel → .pktDel pkt ∈ events) := by
  obtain ⟨event, inside, read⟩ := List.mem_filterMap.mp listed
  cases event with
  | pktDel pkt =>
    obtain rfl : (Release.pktDel, pkt.address) = entry := by simpa using read
    exact ⟨pkt, List.mem_filterMap.mpr ⟨_, inside, rfl⟩, rfl, fun _ => inside⟩
  | free pkt =>
    obtain rfl : (Release.free, pkt.address) = entry := by simpa using read
    exact ⟨pkt, List.mem_filterMap.mpr ⟨_, inside, rfl⟩, rfl, by simp⟩
  | writePayload payload => simp at read
  | sendAck datagram slots => simp at read
  | sendNack datagram slots => simp at read

/-! ## What the decoder leaves -/

/-- A packet that was decoded without error has a payload. -/
theorem decoded_payload (host : Host) (ambient : Ambient) (result : Option (List Byte))
    (state : RecvState Pointer) (ok : (decodedRead host ambient result state).1 = .pktOk) :
    (decodedRead host ambient result state).2.payload ≠ none := by
  rw [decodedRead, (decode_status host _ _ _).2 ok]
  simp [parsed]

/-- The decoder misses a header exactly in a short datagram, and then sets nothing. -/
theorem decoded_headless (host : Host) (arrival : Arrival) (state : RecvState Pointer) :
    ((decodedRead host arrival.ambient arrival.result state).1 = .eNoheader ↔ Short arrival) ∧
      (Short arrival →
        (decodedRead host arrival.ambient arrival.result state).2.payload = none) := by
  have length : asSize (readSize maxSduSize arrival.result) < 4 ↔ Short arrival := by
    cases read : arrival.result with
    | none => simp [Short, read, readSize, asSize]
    | some sdu =>
      simp only [Short, read, readSize, asSize, maxSduSize, maxPayloadSize, List.length_take,
        Option.some.injEq, exists_eq_left']
      omega
  have status := (decode_status host (readInto maxSduSize arrival.result state.pktBuffer)
    (asSize (readSize maxSduSize arrival.result)) (pktNew (arrival.ambient.fresh 0))).1
  constructor
  · rw [decodedRead, status, ← length, decodedStatus]
    split_ifs <;> simp_all
  · intro short
    rw [decodedRead, pktDecode, if_pos (length.mpr short)]
    rfl

/-! ## The invariant -/

/-- The buffered packets are live and distinct, and each has its payload. -/
structure Owning (heap : Heap (Option (List Byte))) (before : Reassembly31)
    (state : RecvState Pointer) : Prop where
  represents : Represents Pointer.content before state
  live : ∀ pkt ∈ state.receiveBuffer.reduceOption, Live heap pkt.address pkt.content.payload
  payload : ∀ pkt ∈ state.receiveBuffer.reduceOption, pkt.content.payload ≠ none
  apart : (state.receiveBuffer.reduceOption.map Pointer.address).Nodup

/-- At the start nothing is buffered and nothing allocated. -/
theorem owning_start (junk : Nat → Byte) :
    Owning [] (start 31 (List Byte)) (recvStart Pointer junk) where
  represents := represents_start junk
  live := by simp [recvStart]
  payload := by simp [recvStart]
  apart := by simp [recvStart]

/-- The invariant implies what is to hold at the head of the loop. -/
theorem Owning.head {heap : Heap (Option (List Byte))} {before : Reassembly31}
    {state : RecvState Pointer} (owning : Owning heap before state) : LoopHead heap state := by
  obtain ⟨items, packing, _, _⟩ := owning.represents.items
  have live := owning.live
  have apart := owning.apart
  rw [packing, reduceOption_packed] at live apart
  constructor
  · intro i pkt found
    rw [packing, slot_packed] at found
    exact ⟨_, live pkt (List.mem_of_getElem? found)⟩
  · intro i j pkt other found foundOther same
    rw [packing, slot_packed] at found foundOther
    have inside := (List.getElem?_eq_some_iff.mp found).1
    apply (List.getElem?_inj (by simpa using inside) apart).mp
    rw [List.getElem?_map, List.getElem?_map, found, foundOther, Option.map_some, Option.map_some,
      same]

/-- A pass on a datagram with a header releases distinct live packets, and leaves a
buffer of others, which represents the abstract receiver after the same datagram. -/
theorem Owning.passes {host : Host} {arrival : Arrival} {heap : Heap (Option (List Byte))}
    {before : Reassembly31} {state next : RecvState Pointer} {events : List (Event Pointer)}
    (owning : Owning heap before state) (long : ¬ Short arrival)
    (passes : selRepeatReadBody Pointer.content host (allocatorAt heap) arrival.ambient
      arrival.result state = .ok (next, events)) :
    Lawful Permits (heapAfterDecode host arrival heap state) (releases events) ∧
      Owning (releaseAll (heapAfterDecode host arrival heap state) (releases events))
        (reassemble before (acceptedPacket host arrival.result)) next := by
  obtain ⟨other, more, again, passed, _⟩ := selRepeatReadBody_passes host (allocatorAt heap)
    arrival.ambient arrival.result owning.represents
  obtain ⟨rfl, rfl⟩ : other = next ∧ more = events := by simpa using again.symm.trans passes
  have balanced := selRepeatReadBody_balanced host (allocatorAt heap) arrival.ambient arrival.result
    owning.represents passes
  have header : (decodedRead host arrival.ambient arrival.result state).1 ≠ .eNoheader :=
    fun missing => long ((decoded_headless host arrival state).1.mp missing)
  revert balanced header
  rw [heapAfterDecode]
  have decoded := decoded_payload host arrival.ambient arrival.result state
  generalize decodedRead host arrival.ambient arrival.result state = decode at decoded
  obtain ⟨err, content⟩ := decode
  intro balanced header
  obtain ⟨forgotten, conserved⟩ := balanced.conserved
  -- the packet of the pass and the buffered ones are live and distinct
  have live : ∀ pkt ∈ (⟨heap.length, content⟩ : Pointer) :: state.receiveBuffer.reduceOption,
      Live (allocate heap content.payload) pkt.address pkt.content.payload := by
    intro pkt listed
    rcases List.mem_cons.mp listed with rfl | buffered
    · exact live_allocate_new heap content.payload
    · exact live_allocate_old (owning.live pkt buffered) content.payload
  have apart : (((⟨heap.length, content⟩ : Pointer) ::
      state.receiveBuffer.reduceOption).map Pointer.address).Nodup := by
    rw [List.map_cons, List.nodup_cons]
    constructor
    · intro listed
      obtain ⟨pkt, buffered, same⟩ := List.mem_map.mp listed
      have bounded := live_bounded (owning.live pkt buffered)
      exact Nat.ne_of_lt bounded same
    · exact owning.apart
  have places := (conserved.map Pointer.address).nodup_iff.mpr apart
  rw [List.map_append, List.map_append] at places
  obtain ⟨used, _, _⟩ := List.nodup_append.mp places
  obtain ⟨kept, gone, disjoint⟩ := List.nodup_append.mp used
  have placed {pkt : Pointer}
      (listed : pkt ∈ other.receiveBuffer.reduceOption ∨ pkt ∈ released more) :
      pkt ∈ (⟨heap.length, content⟩ : Pointer) :: state.receiveBuffer.reduceOption := by
    apply conserved.subset
    apply List.mem_append_left
    exact List.mem_append.mpr listed
  constructor
  · apply lawful_of_nodup
    · intro entry listed
      obtain ⟨pkt, gone, address, deleted⟩ := release_event listed
      refine ⟨pkt.content.payload, ?_, ?_⟩
      · rw [address]
        exact live pkt (placed (.inr gone))
      · obtain ⟨kind, location⟩ := entry
        cases kind with
        | free => trivial
        | pktDel =>
          -- the packet was buffered, or decoded without error
          rcases List.mem_cons.mp (placed (.inr gone)) with rfl | buffered
          · apply decoded
            by_contra failed
            exact balanced.spared failed header _ (deleted rfl)
          · exact owning.payload pkt buffered
    · rw [releases_addresses]
      exact gone
  · refine ⟨passed.represents, ?_, ?_, kept⟩
    · intro pkt buffered
      apply live_releaseAll
      · exact live pkt (placed (.inl buffered))
      · rw [releases_addresses]
        intro listed
        exact disjoint _ (List.mem_map_of_mem buffered) _ listed rfl
    · intro pkt buffered
      rcases List.mem_cons.mp (placed (.inl buffered)) with rfl | earlier
      · apply decoded
        by_contra failed
        -- after an error the buffer is the old one, where the address is not used
        rw [balanced.kept failed] at buffered
        have bounded := live_bounded (owning.live _ buffered)
        simp at bounded
      · exact owning.payload pkt earlier

/-- On a short datagram `pkt_del` is applied to a packet whose payload pointer was
never set. -/
theorem Owning.breaks {host : Host} {arrival : Arrival} {heap : Heap (Option (List Byte))}
    {before : Reassembly31} {state next : RecvState Pointer} {events : List (Event Pointer)}
    (owning : Owning heap before state) (short : Short arrival)
    (passes : selRepeatReadBody Pointer.content host (allocatorAt heap) arrival.ambient
      arrival.result state = .ok (next, events)) :
    ¬ Lawful Permits (heapAfterDecode host arrival heap state) (releases events) := by
  have balanced := selRepeatReadBody_balanced host (allocatorAt heap) arrival.ambient arrival.result
    owning.represents passes
  obtain ⟨headless, unset⟩ := decoded_headless host arrival state
  rw [balanced.headless (headless.mpr short)]
  rintro ⟨⟨payload, live, permitted⟩, _⟩
  have own := live_allocate_new heap
    (decodedRead host arrival.ambient arrival.result state).2.payload
  have same : payload = none := (live_unique live own).trans (unset short)
  exact permitted same

/-- From every head of the loop, a run is lawful exactly if none of its datagrams is
shorter than four bytes. -/
theorem Owning.lawful_iff {host : Host} {arrivals : List Arrival}
    {heap : Heap (Option (List Byte))} {before : Reassembly31} {state : RecvState Pointer}
    (owning : Owning heap before state) :
    LawfulRun host arrivals heap state ↔ ∀ arrival ∈ arrivals, ¬ Short arrival := by
  induction arrivals generalizing heap before state with
  | nil => exact iff_of_true (.ended owning.head) (by simp)
  | cons arrival rest inductionHypothesis =>
    constructor
    · intro run
      cases run with
      | passed head passes lawful further =>
        have long : ¬ Short arrival := fun short => owning.breaks short passes lawful
        obtain ⟨_, owned⟩ := owning.passes long passes
        exact List.forall_mem_cons.mpr ⟨long, (inductionHypothesis owned).mp further⟩
    · intro long
      obtain ⟨here, later⟩ := List.forall_mem_cons.mp long
      obtain ⟨next, events, passes, _⟩ := selRepeatReadBody_passes host (allocatorAt heap)
        arrival.ambient arrival.result owning.represents
      obtain ⟨lawful, owned⟩ := owning.passes here passes
      exact .passed owning.head passes lawful ((inductionHypothesis owned).mpr later)

/-- The receiver handles its packets soundly, in every run from the start, exactly as
long as no datagram is shorter than four bytes.

At the start nothing is buffered, so that `Owning.lawful_iff` applies: a pass on a
datagram with a header keeps the buffered packets live and distinct, and one on a shorter
datagram releases a packet that has no payload. -/
theorem life_cycle_iff (host : Host) (arrivals : List Arrival) (junk : Nat → Byte) :
    LawfulRun host arrivals [] (recvStart Pointer junk) ↔
      ∀ arrival ∈ arrivals, ∀ sdu, arrival.result = some sdu → 4 ≤ sdu.length := by
  simp only [(owning_start junk).lawful_iff, not_short_iff]

/-- An empty datagram is enough. -/
theorem empty_datagram_breaks :
    ¬ LawfulRun zlibHost [⟨quietAmbient, some []⟩] []
      (recvStart Pointer fun _ => 0) := by
  rw [(owning_start _).lawful_iff]
  intro long
  exact long _ (List.mem_cons_self ..) ⟨[], rfl, by decide⟩

end SelectiveRepeat
