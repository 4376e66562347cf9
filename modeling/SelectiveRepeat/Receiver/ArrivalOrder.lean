import Mathlib.Data.List.Nodup
import SelectiveRepeat.Library.ArrivalOrder
import SelectiveRepeat.Receiver.Ownership

/-!
# The order of arrival does not matter to the receiver

Two sequences of datagrams with the same intact packets, all within the 31 numbers
behind `lastack`, lead the receiver to one state, and to the same writes. The
reassembler has this property on indices; the receiver sees numbers, and a packet that
was delivered in the meantime looks far ahead.

The reassembler knows payloads only. That the buffers hold the same packets, with all
their fields, follows from where buffered packets come from: they were there before, or
they are among those that arrived.
-/

namespace SelectiveRepeat

open PackedSlots CyclicNumbers Reassembly

/-- The intact packets of a sequence of arrivals. -/
def packets (host : Host) (arrivals : List Arrival) : List Pkt :=
  arrivals.filterMap fun arrival => intactPacket host arrival.result

/-- An intact arrival in front is a packet in front. -/
theorem packets_cons {host : Host} {arrival : Arrival} {pkt : Pkt} {rest : List Arrival}
    (intact : intactPacket host arrival.result = some pkt) :
    packets host (arrival :: rest) = pkt :: packets host rest := by
  simp [packets, intact]

/-! ## The abstract run -/

/-- A run of passes takes the intact packets one by one. -/
theorem reassembled_packets (host : Host) (first : Reassembly31) (arrivals : List Arrival) :
    reassembled host first arrivals =
      (packets host arrivals).foldl
        (fun state pkt => state.accept 256 (pktGetSeqnum pkt) pkt.body) first := by
  induction arrivals generalizing first with
  | nil => rfl
  | cons arrival rest inductionHypothesis =>
    have further := inductionHypothesis (reassemble first (acceptedPacket host arrival.result))
    rw [reassembled] at further ⊢
    rw [List.foldl_cons, further, acceptedPacket_intact]
    cases intact : intactPacket host arrival.result with
    | none => simp [packets, intact, reassemble]
    | some pkt => simp [packets, intact, reassemble]

/-- The index of a packet, and its payload. -/
def indexed (delivered : Nat) (pkt : Pkt) : Nat × List Byte :=
  (delivered + distance 256 delivered (pktGetSeqnum pkt), pkt.body)

/-- The index given to a packet shows the packet's number. -/
theorem indexed_number (delivered : Nat) (pkt : Pkt) :
    (indexed delivered pkt).1 % 256 = pktGetSeqnum pkt := by
  rw [indexed, start_add_distance (by decide)]
  exact Nat.mod_eq_of_lt pkt.seqnum.isLt

/-- A packet of the window gets an index of the window. -/
theorem indexed_near (host : Host) (delivered : Nat) {arrivals : List Arrival}
    (inside : ∀ pkt ∈ packets host arrivals, distance 256 delivered (pktGetSeqnum pkt) < 31) :
    ∀ arrival ∈ (packets host arrivals).map (indexed delivered),
      delivered ≤ arrival.1 ∧ arrival.1 < delivered + 31 := by
  intro arrival listed
  obtain ⟨pkt, present, rfl⟩ := List.mem_map.mp listed
  have near := inside pkt present
  simp only [indexed]
  omega

/-- Packets of the window arrive under their indices, whenever they come. -/
theorem reassembled_offers (host : Host) (first : Reassembly31) (arrivals : List Arrival)
    (inside : ∀ pkt ∈ packets host arrivals,
      distance 256 first.delivered (pktGetSeqnum pkt) < 31) :
    reassembled host first arrivals =
      first.offerAll ((packets host arrivals).map (indexed first.delivered)) := by
  rw [← Reassembler.acceptAll_offerAll (show 0 < 31 by decide) (show 2 * 31 ≤ 256 by decide)
    (Nat.le_refl _) first.start_below_window, reassembled_packets, List.foldl_map]
  · simp only [indexed_number]
    rfl
  · exact indexed_near host first.delivered inside

/-- Sequences with the same packets, one for each number, lead to one abstract state. -/
theorem reassembled_congr (host : Host) (first : Reassembly31) {one other : List Arrival}
    (same : ∀ pkt, pkt ∈ packets host one ↔ pkt ∈ packets host other)
    (inside : ∀ pkt ∈ packets host one, distance 256 first.delivered (pktGetSeqnum pkt) < 31)
    (agree : ∀ pkt ∈ packets host one, ∀ copy ∈ packets host one,
      pktGetSeqnum pkt = pktGetSeqnum copy → pkt = copy) :
    reassembled host first one = reassembled host first other := by
  rw [reassembled_offers host first one inside,
    reassembled_offers host first other (fun pkt listed => inside pkt ((same pkt).mpr listed))]
  apply Reassembler.offerAll_order_irrelevant
  · intro arrival listed later listedLater level
    obtain ⟨pkt, present, rfl⟩ := List.mem_map.mp listed
    obtain ⟨copy, presentCopy, rfl⟩ := List.mem_map.mp listedLater
    have number : pktGetSeqnum pkt = pktGetSeqnum copy := by
      rw [← indexed_number first.delivered pkt, ← indexed_number first.delivered copy, level]
    rw [agree pkt present copy presentCopy number]
  · intro arrival
    simp only [List.mem_map, same]
  · exact indexed_near host first.delivered inside

/-! ## Where buffered packets come from -/

/-- A packet in the buffer was there before, or arrived intact. -/
theorem selRepeatRead_provenance (host : Host) (arrivals : List Arrival) {before : Reassembly31}
    {state last : RecvState Pkt} (represents : Represents id before state)
    {passes : List (List (Event Pkt))}
    (runs : selRepeatRead host arrivals state = .ok (last, passes)) :
    ∀ pkt ∈ last.receiveBuffer.reduceOption,
      pkt ∈ state.receiveBuffer.reduceOption ∨ pkt ∈ packets host arrivals := by
  induction arrivals generalizing before state passes with
  | nil =>
    obtain ⟨rfl, rfl⟩ : state = last ∧ [] = passes := by simpa [selRepeatRead] using runs
    exact fun pkt listed => .inl listed
  | cons arrival rest inductionHypothesis =>
    rw [selRepeatRead] at runs
    obtain ⟨⟨next, events⟩, handles, runs⟩ := run_bind runs
    obtain ⟨⟨final, later⟩, further, same⟩ := run_bind runs
    obtain ⟨rfl, rfl⟩ : final = last ∧ events :: later = passes := by
      simpa [pure, Except.pure] using same
    obtain ⟨another, more, again, passed, _⟩ := selRepeatReadBody_passes host Allocator.values
      arrival.ambient arrival.result represents
    obtain ⟨rfl, rfl⟩ : another = next ∧ more = events := by simpa using again.symm.trans handles
    have balanced := selRepeatReadBody_balanced host Allocator.values arrival.ambient
      arrival.result represents handles
    obtain ⟨forgotten, conserved⟩ := balanced.conserved
    have intact := decode_intact host arrival.result state.pktBuffer
      (pktNew (arrival.ambient.fresh 0))
    rw [← decodedRead] at intact
    intro pkt listed
    rcases inductionHypothesis passed.represents further pkt listed with kept | arrived
    · by_cases ok : (decodedRead host arrival.ambient arrival.result state).1 = .pktOk
      · have placed := conserved.subset (List.mem_append_left _ (List.mem_append_left _ kept))
        rcases List.mem_cons.mp placed with rfl | earlier
        · right
          rw [if_pos ok] at intact
          exact List.mem_filterMap.mpr ⟨arrival, List.mem_cons_self .., intact⟩
        · exact .inl earlier
      · rw [balanced.kept ok] at kept
        exact .inl kept
    · right
      obtain ⟨source, inRest, read⟩ := List.mem_filterMap.mp arrived
      exact List.mem_filterMap.mpr ⟨source, List.mem_cons_of_mem _ inRest, read⟩

/-- Buffered packets with one number are one packet. -/
theorem Represents.distinct {before : Reassembly31} {state : RecvState Pkt}
    (represents : Represents id before state) {one other : Pkt}
    (first : one ∈ state.receiveBuffer.reduceOption)
    (second : other ∈ state.receiveBuffer.reduceOption)
    (number : pktGetSeqnum one = pktGetSeqnum other) : one = other := by
  obtain ⟨items, packing, _, increasing⟩ := represents.items
  rw [packing, reduceOption_packed] at first second
  have ranked := (increasing_iff state.lastack represents.bounded items).mp increasing
  have apart : (items.map (position id state.lastack)).Nodup :=
    List.pairwise_map.mpr (ranked.imp Nat.ne_of_lt)
  apply List.inj_on_of_nodup_map apart first second
  exact (position_eq_iff state.lastack one other).mpr number

/-- Lists with the same labels are equal if a label belongs to one element only. -/
theorem eq_of_labels {Label : Type} (label : Pkt → Label) {one other : List Pkt}
    (same : one.map label = other.map label)
    (unique : ∀ first ∈ one, ∀ second ∈ other, label first = label second → first = second) :
    one = other := by
  induction one generalizing other with
  | nil => exact (List.map_eq_nil_iff.mp same.symm).symm
  | cons first rest inductionHypothesis =>
    cases other with
    | nil => simp at same
    | cons second others =>
      rw [List.map_cons, List.map_cons, List.cons.injEq] at same
      have head := unique first (List.mem_cons_self ..) second (List.mem_cons_self ..) same.1
      have tail := inductionHypothesis same.2 (fun one listed two listedToo =>
        unique one (List.mem_cons_of_mem _ listed) two (List.mem_cons_of_mem _ listedToo))
      rw [head, tail]

/-! ## Any order -/

/-- From any reached state, two sequences with the same intact packets, repeated and
ordered in any way, have the same effect, if all their numbers are among the 31 behind
`lastack` and packets with one number are identical, the buffered ones included. What
is rejected may come in between.

Both sequences are replayed on the abstract receiver, where the effect depends only on
which packets are offered. The concrete states represent the same abstract one, and a
sorted buffer is determined by what it holds. -/
theorem arrival_order_irrelevant (host : Host) (state : RecvState Pkt)
    (reached : Reached host state) (one other : List Arrival)
    (same : ∀ pkt, pkt ∈ packets host one ↔ pkt ∈ packets host other)
    (inside : ∀ pkt ∈ packets host one,
      ∃ k, 1 ≤ k ∧ k ≤ 31 ∧ pktGetSeqnum pkt = (state.lastack + k) % 256)
    (agree : ∀ pkt ∈ packets host one, ∀ copy ∈ packets host one,
      pktGetSeqnum pkt = pktGetSeqnum copy → pkt = copy)
    (buffered : ∀ pkt ∈ packets host one, ∀ i entry, slot state.receiveBuffer i = some entry →
      pktGetSeqnum entry = pktGetSeqnum pkt → entry = pkt) :
    ∃ last otherLast passes otherPasses,
      selRepeatRead host one state = .ok (last, passes) ∧
      selRepeatRead host other state = .ok (otherLast, otherPasses) ∧
      passes.flatMap payloads = otherPasses.flatMap payloads ∧
      last.lastack = otherLast.lastack ∧ last.receiveBuffer = otherLast.receiveBuffer ∧
      last.windowSize = otherLast.windowSize := by
  obtain ⟨before, represents⟩ := reached.represents
  obtain ⟨last, passes, runs, final, output, _⟩ := selRepeatRead_runs host one represents
  obtain ⟨otherLast, otherPasses, otherRuns, otherFinal, otherOutput, _⟩ :=
    selRepeatRead_runs host other represents
  have near : ∀ pkt ∈ packets host one, distance 256 before.delivered (pktGetSeqnum pkt) < 31 := by
    intro pkt listed
    obtain ⟨k, low, high, number⟩ := inside pkt listed
    have next := represents.lastack
    have residue : (state.lastack + k) % 256 = (before.delivered + (k - 1)) % 256 := by omega
    rw [number, residue, distance_offset (by decide)]
    omega
  have states := reassembled_congr host before same near agree
  rw [← states] at otherFinal otherOutput
  refine ⟨last, otherLast, passes, otherPasses, runs, otherRuns, ?_, ?_, ?_, ?_⟩
  · exact List.append_cancel_left (output.symm.trans otherOutput)
  · rw [final.lastack, otherFinal.lastack]
  · obtain ⟨items, packing, labels⟩ := final.buffer
    obtain ⟨others, otherPacking, otherLabels⟩ := otherFinal.buffer
    have source := selRepeatRead_provenance host one represents runs
    have otherSource := selRepeatRead_provenance host other represents otherRuns
    rw [packing, reduceOption_packed] at source
    rw [otherPacking, reduceOption_packed] at otherSource
    rw [packing, otherPacking]
    congr 1
    apply eq_of_labels (label id) (labels.trans otherLabels.symm)
    intro pkt listed copy listedCopy level
    have number : pktGetSeqnum pkt = pktGetSeqnum copy := congrArg Prod.fst level
    -- each of the two was buffered before, or arrived
    rcases source pkt listed with earlier | arrived
    · rcases otherSource copy listedCopy with earlierCopy | arrivedCopy
      · exact represents.distinct earlier earlierCopy number
      · obtain ⟨i, place⟩ := (represents.mem_iff pkt).mp earlier
        exact buffered copy ((same copy).mpr arrivedCopy) i pkt place number
    · rcases otherSource copy listedCopy with earlierCopy | arrivedCopy
      · obtain ⟨i, place⟩ := (represents.mem_iff copy).mp earlierCopy
        exact (buffered pkt arrived i copy place number.symm).symm
      · exact agree pkt arrived copy ((same copy).mpr arrivedCopy) number
  · rw [final.window, otherFinal.window]

/-- The packet with number 1 before the one with number 0, or twice behind it. -/
theorem two_orders : ∃ last otherLast passes otherPasses,
    selRepeatRead zlibHost [quietArrival 1, quietArrival 0] (recvStart Pkt fun _ => 0) =
      .ok (last, passes) ∧
    selRepeatRead zlibHost [quietArrival 0, quietArrival 1, quietArrival 1]
      (recvStart Pkt fun _ => 0) = .ok (otherLast, otherPasses) ∧
    passes.flatMap payloads = otherPasses.flatMap payloads ∧
    last.lastack = otherLast.lastack ∧ last.receiveBuffer = otherLast.receiveBuffer ∧
    last.windowSize = otherLast.windowSize := by
  obtain ⟨zero, intactZero, numberZero, _⟩ := intactPacket_wire zlibHost _ (highPkt_numbered 0)
  obtain ⟨one, intactOne, numberOne, _⟩ := intactPacket_wire zlibHost _ (highPkt_numbered 1)
  change intactPacket zlibHost (quietArrival 0).result = some zero at intactZero
  change intactPacket zlibHost (quietArrival 1).result = some one at intactOne
  have early : packets zlibHost [quietArrival 1, quietArrival 0] = [one, zero] := by
    rw [packets_cons intactOne, packets_cons intactZero]
    rfl
  have late : packets zlibHost [quietArrival 0, quietArrival 1, quietArrival 1] =
      [zero, one, one] := by
    rw [packets_cons intactZero, packets_cons intactOne, packets_cons intactOne]
    rfl
  have apart : pktGetSeqnum one ≠ pktGetSeqnum zero := by
    rw [pktGetSeqnum, pktGetSeqnum, numberOne, numberZero]
    decide
  apply arrival_order_irrelevant zlibHost _ ⟨[], _, [], rfl⟩
  case same =>
    intro pkt
    rw [early, late]
    simp only [List.mem_cons, List.not_mem_nil, or_false, or_self]
    exact Or.comm
  case inside =>
    rw [early]
    intro pkt listed
    rcases List.mem_pair.mp listed with rfl | rfl
    · exact ⟨2, by decide, by decide, by rw [pktGetSeqnum, numberOne]; rfl⟩
    · exact ⟨1, by decide, by decide, by rw [pktGetSeqnum, numberZero]; rfl⟩
  case agree =>
    rw [early]
    intro pkt listed copy listedCopy level
    rcases List.mem_pair.mp listed with rfl | rfl <;>
      rcases List.mem_pair.mp listedCopy with rfl | rfl
    · rfl
    · exact absurd level apart
    · exact absurd level.symm apart
    · rfl
  case buffered =>
    intro pkt _ i entry place
    have nothing : slot (recvStart Pkt fun _ => 0).receiveBuffer i = none :=
      slot_packed maxWindowSize ([] : List Pkt) i
    rw [nothing] at place
    cases place

end SelectiveRepeat
