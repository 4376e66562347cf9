import SelectiveRepeat.Receiver.LifeCycle

/-!
# The refinement on the heap

Over values a pass of the receiver is one abstract step whatever arrives, since a
release is only recorded there. On the heap it must also be a lawful one: `pkt_del`
passes the payload pointer of its packet to `free`, and where that pointer was never
set, what the receiver does next is not defined. Both together hold along a run exactly
if every datagram has a header.
-/

namespace SelectiveRepeat

open Reassembly Ledger

/-- A run of passes in which the receiver represents the abstract receiver at the head
of each pass and at the end. A pass releases packets lawfully, writes what the abstract
step delivers, and goes on from the state that step leads to. -/
inductive RefiningRun (host : Host) : List Arrival → Heap (Option (List Byte)) → Reassembly31 →
    RecvState Pointer → Prop where
  | ended {heap : Heap (Option (List Byte))} {before : Reassembly31} {state : RecvState Pointer}
      (represents : Represents Pointer.content before state) : RefiningRun host [] heap before state
  | passed {arrival : Arrival} {rest : List Arrival} {heap : Heap (Option (List Byte))}
      {before : Reassembly31} {state next : RecvState Pointer} {events : List (Event Pointer)}
      (represents : Represents Pointer.content before state)
      (passes : selRepeatReadBody Pointer.content host (allocatorAt heap) arrival.ambient
        arrival.result state = .ok (next, events))
      (lawful : Lawful Permits (heapAfterDecode host arrival heap state) (releases events))
      (output : (reassemble before (acceptedPacket host arrival.result)).output =
        before.output ++ payloads events)
      (further : RefiningRun host rest
        (releaseAll (heapAfterDecode host arrival heap state) (releases events))
        (reassemble before (acceptedPacket host arrival.result)) next) :
      RefiningRun host (arrival :: rest) heap before state

/-- From every head of the loop, a run refines the abstract one exactly if none of its
datagrams is shorter than four bytes.

By induction on the datagrams. A pass on one with a header keeps the buffered packets
live and distinct, and one on a shorter datagram releases a packet that has no payload. -/
theorem Owning.refining_iff {host : Host} {arrivals : List Arrival}
    {heap : Heap (Option (List Byte))} {before : Reassembly31} {state : RecvState Pointer}
    (owning : Owning heap before state) :
    RefiningRun host arrivals heap before state ↔ ∀ arrival ∈ arrivals, ¬ Short arrival := by
  induction arrivals generalizing heap before state with
  | nil => exact iff_of_true (.ended owning.represents) (by simp)
  | cons arrival rest inductionHypothesis =>
    constructor
    · intro run
      cases run with
      | passed represents passes lawful output further =>
        have long : ¬ Short arrival := fun short => owning.breaks short passes lawful
        obtain ⟨_, owned⟩ := owning.passes long passes
        exact List.forall_mem_cons.mpr ⟨long, (inductionHypothesis owned).mp further⟩
    · intro long
      obtain ⟨here, later⟩ := List.forall_mem_cons.mp long
      obtain ⟨next, events, passes, passed, _⟩ := selRepeatReadBody_passes host (allocatorAt heap)
        arrival.ambient arrival.result owning.represents
      obtain ⟨lawful, owned⟩ := owning.passes here passes
      exact .passed owning.represents passes lawful passed.output
        ((inductionHypothesis owned).mpr later)

/-- From its start the receiver refines the reassembler, in every run, exactly as long
as no datagram is shorter than four bytes.

At the start nothing is buffered, so that `Owning.refining_iff` applies. -/
theorem selRepeatRead_refines_iff (host : Host) (arrivals : List Arrival) (junk : Nat → Byte) :
    RefiningRun host arrivals [] (start 31 (List Byte)) (recvStart Pointer junk) ↔
      ∀ arrival ∈ arrivals, ∀ sdu, arrival.result = some sdu → 4 ≤ sdu.length := by
  simp only [(owning_start junk).refining_iff, not_short_iff]

/-- A datagram without a single byte is not rejected without harm. -/
theorem empty_datagram_unrefined :
    ¬ RefiningRun zlibHost [⟨quietAmbient, some []⟩] [] (start 31 (List Byte))
      (recvStart Pointer fun _ => 0) := by
  rw [(owning_start _).refining_iff]
  intro long
  exact long _ (List.mem_cons_self ..) ⟨[], rfl, by decide⟩

end SelectiveRepeat
