import SelectiveRepeat.Receiver.Passes

/-!
# Where the packets of a pass go

A pass allocates one packet. This packet and the buffered ones are, at the end of the
pass, in exactly one place each: in a slot, among the released ones, or forgotten. The
receiver forgets a packet that is outside its window without releasing it. Nothing is
ever in two places, since the loops only move pointers: what the draining loop
releases, it takes out of its slot, and an insertion that shifts the tail loses nothing
as long as the last slot is empty.
-/

namespace SelectiveRepeat

open PackedSlots CyclicNumbers Reassembly

variable {Ref : Type} {deref : Ref → Pkt}

/-- The packets released, in order, by `pkt_del` or by `free`. -/
def released (events : List (Event Ref)) : List Ref :=
  events.filterMap fun
    | .pktDel pkt => some pkt
    | .free pkt => some pkt
    | _ => none

/-- Everything the draining loop releases leaves the buffer, and nothing else does. -/
theorem Drains.conserves {host : Host} {remaining i : Nat} {state last : RecvState Ref}
    {events : List (Event Ref)} (drains : Drains deref host remaining i state last events) :
    (last.receiveBuffer.reduceOption ++ released events).Perm
      state.receiveBuffer.reduceOption := by
  induction drains with
  | exhausted i state => simp [released]
  | stopped remaining other sends => simp [released]
  | @taken remaining i state last entry datagram further found expected sends goesOn rest =>
    have taken := reduceOption_set_none found
    calc
      List.Perm (last.receiveBuffer.reduceOption ++ entry :: released further)
          (entry :: (last.receiveBuffer.reduceOption ++ released further)) :=
        List.perm_middle
      List.Perm _ (entry :: (state.receiveBuffer.set i none).reduceOption) := rest.cons entry
      List.Perm _ state.receiveBuffer.reduceOption := taken

/-- The branch of the expected packet keeps what it does not drain: compacting only
moves the pointers that are left. -/
theorem deliverExpected_conserves (host : Host) (ambient : Ambient) {before : Reassembly31}
    {state last : RecvState Ref} (represents : Represents deref before state)
    {drained : List (Event Ref)}
    (drains : drainLoop deref host ambient maxWindowSize 0
      { state with lastack := (state.lastack + 1) % 256 } = .ok (last, drained)) :
    ((refreshed last).receiveBuffer.reduceOption ++ released drained).Perm
      state.receiveBuffer.reduceOption := by
  obtain ⟨items, _, _, _, draining⟩ := represents.draining
  obtain ⟨other, more, drainsAgain, result⟩ := drainLoop_drains host ambient draining
  obtain ⟨rfl, rfl⟩ : other = last ∧ more = drained := by
    simpa using drainsAgain.symm.trans drains
  have compacted : (refreshed other).receiveBuffer.reduceOption =
      other.receiveBuffer.reduceOption := by
    have short := result.final.length
    have room := result.final.room
    simp only [refreshed]
    rw [result.final.buffer, refresh_packs _ _ (by simp only [maxWindowSize]; omega),
      reduceOption_packed, List.reduceOption_append, List.reduceOption_replicate_none,
      reduceOption_packed, List.nil_append]
  rw [compacted]
  exact (drainLoop_ends host ambient drains).conserves

/-- Where the packet of a pass and the buffered ones are at its end, and what the status
of the decoder says about it: after an error the buffer is as before, and `pkt_del` is
applied to a packet only if its datagram was too short for a header. -/
structure Balanced (err : PktStatusCode) (pkt : Ref) (before after : List (Option Ref))
    (events : List (Event Ref)) : Prop where
  conserved : ∃ forgotten, (after.reduceOption ++ released events ++ forgotten).Perm
    (pkt :: before.reduceOption)
  kept : err ≠ .pktOk → after = before
  spared : err ≠ .pktOk → err ≠ .eNoheader → ∀ other, .pktDel other ∉ events
  headless : err = .eNoheader → events = [.pktDel pkt]

/-- The `if` statement of a pass, followed by the compaction. -/
theorem Handled.balanced {host : Host} {ambient : Ambient} {before : Reassembly31}
    {state last : RecvState Ref} (represents : Represents deref before state)
    {err : PktStatusCode} (header : err ≠ .eNoheader) {sduSize : Int} {pkt : Ref}
    {events : List (Event Ref)}
    (handled : Handled deref host ambient err sduSize pkt state last events) :
    Balanced err pkt state.receiveBuffer (refreshed last).receiveBuffer events := by
  have unchanged : (refreshed state).receiveBuffer = state.receiveBuffer := by
    rw [represents.refreshed]
  have headless (short : err = .eNoheader) : events = [.pktDel pkt] := absurd short header
  cases handled with
  | outside far =>
    -- the packet is forgotten
    rw [unchanged]
    refine ⟨⟨[pkt], ?_⟩, fun _ => rfl, ?_, headless⟩
    · simp [released]
    · simp
  | cut near failed four sends =>
    rw [unchanged]
    refine ⟨⟨[], ?_⟩, fun _ => rfl, ?_, headless⟩
    · simp [released]
    · simp
  | damaged near failed whole =>
    rw [unchanged]
    refine ⟨⟨[], ?_⟩, fun _ => rfl, ?_, headless⟩
    · simp [released]
    · simp
  | @expected near decoded next last drained drains =>
    refine ⟨⟨[], ?_⟩, fun failed => absurd decoded failed, fun failed => absurd decoded failed,
      headless⟩
    have conserved := deliverExpected_conserves host ambient represents drains
    rw [List.append_nil]
    calc
      List.Perm ((refreshed last).receiveBuffer.reduceOption ++ pkt :: released drained)
          (pkt :: ((refreshed last).receiveBuffer.reduceOption ++ released drained)) :=
        List.perm_middle
      List.Perm _ (pkt :: state.receiveBuffer.reduceOption) := conserved.cons pkt
  | duplicate near decoded other present =>
    rw [unchanged]
    refine ⟨⟨[], ?_⟩, fun _ => rfl, fun failed => absurd decoded failed, headless⟩
    rw [List.append_nil]
    exact List.perm_append_singleton pkt _
  | @added near decoded other absent result fits permuted =>
    refine ⟨⟨[], ?_⟩, fun failed => absurd decoded failed, fun failed => absurd decoded failed,
      headless⟩
    simp only [refreshed]
    rw [refresh_packed result fits, reduceOption_packed, List.append_nil]
    simpa [released] using permuted

/-- Every pass keeps the balance. -/
theorem selRepeatReadBody_balanced (host : Host) (allocator : Allocator deref) (ambient : Ambient)
    (result : Option (List Byte)) {before : Reassembly31} {state next : RecvState Ref}
    (represents : Represents deref before state) {events : List (Event Ref)}
    (passes : selRepeatReadBody deref host allocator ambient result state = .ok (next, events)) :
    Balanced (decodedRead host ambient result state).1
      (allocator.alloc (decodedRead host ambient result state).2) state.receiveBuffer
      next.receiveBuffer events := by
  rcases selRepeatReadBody_ends host allocator ambient result represents passes with
    ⟨headless, kept, rfl⟩ | ⟨header, last, rfl, handled⟩
  · rw [kept]
    refine ⟨⟨[], ?_⟩, fun _ => rfl, fun _ header => absurd headless header, fun _ => rfl⟩
    simp [released]
  · exact handled.balanced (represents.read _) header

end SelectiveRepeat
