import SelectiveRepeat.Receiver.Draining

/-!
# The receiver refines the reassembler

Every pass of `sel_repeat_read` is one abstract step: a rejected datagram changes
nothing, and an accepted packet is taken under the distance of its number from the
number of deliveries. One lemma follows the insertion, the draining loop has its
own; a pass is then a case distinction on what `pkt_decode` said and on the distance
of the number. What a pass sends is described with it.
-/

namespace SelectiveRepeat

open PackedSlots CyclicNumbers Reassembly

variable {Ref : Type} {deref : Ref → Pkt}

/-! ## Numbers -/

/-- The expected number, as the code computes it. -/
theorem Represents.expected {before : Reassembly31} {state : RecvState Ref}
    (represents : Represents deref before state) :
    (state.lastack + 1) % 256 = before.delivered % 256 := by
  rw [represents.lastack]
  omega

/-- `lastack` is a byte. -/
theorem Represents.bounded {before : Reassembly31} {state : RecvState Ref}
    (represents : Represents deref before state) : state.lastack < 256 := by
  rw [represents.lastack]
  exact Nat.mod_lt _ (by decide)

/-- Distances from `lastack + 1` are distances from the number of deliveries. -/
theorem Represents.offset {before : Reassembly31} {state : RecvState Ref}
    (represents : Represents deref before state) (number : Nat) :
    distance 256 (state.lastack + 1) number = distance 256 before.delivered number :=
  distance_congr represents.expected number

/-- A buffered packet is one of the entries. -/
theorem entry_of_label {items : List Ref} {entries : List (Nat × List Byte)}
    (labels : items.map (label deref) = entries.map shown) {entry : Ref} (listed : entry ∈ items) :
    ∃ index payload, (index, payload) ∈ entries ∧ pktGetSeqnum (deref entry) = index % 256 := by
  have shows : label deref entry ∈ entries.map shown := labels ▸ List.mem_map_of_mem listed
  obtain ⟨⟨index, payload⟩, inside, same⟩ := List.mem_map.mp shows
  exact ⟨index, payload, inside, (congrArg Prod.fst same).symm⟩

/-- What is held, as entries of the window. -/
theorem mem_entries {before : Reassembly31} {index : Nat} {payload : List Byte} :
    (index, payload) ∈ before.entries ↔
      (before.delivered < index ∧ index < before.delivered + 31) ∧
        before.held index = some payload := by
  rw [Reassembler.entries, mem_scan]
  constructor
  · rintro ⟨inside, held⟩
    exact ⟨by omega, held⟩
  · rintro ⟨inside, held⟩
    exact ⟨by omega, held⟩

/-- The order of the code on a packet at distance `ahead` and the entry with index
`index` is the order of their indices. -/
theorem Represents.compare {before : Reassembly31} {state : RecvState Ref}
    (represents : Represents deref before state) {pkt entry : Ref} {ahead index : Nat}
    (position : distance 256 before.delivered (pktGetSeqnum (deref pkt)) = ahead)
    (number : pktGetSeqnum (deref entry) = index % 256)
    (inside : before.delivered < index ∧ index < before.delivered + 31) :
    compareSeqnums state.lastack (pktGetSeqnum (deref pkt)) (pktGetSeqnum (deref entry)) =
      ((before.delivered + ahead : Nat) : Int) - index := by
  have first : pktGetSeqnum (deref pkt) < 256 := (deref pkt).seqnum.isLt
  have second : pktGetSeqnum (deref entry) < 256 := (deref entry).seqnum.isLt
  rw [compare_distance _ _ _ represents.bounded first second, represents.offset, represents.offset,
    position, number, distance_ahead (by decide) (by omega) (by omega)]
  omega

/-! ## Insertion -/

/-- What `insert_pkt` leaves, and what it releases. -/
structure Inserted (deref : Ref → Pkt) (after : Reassembly31) (buffer : List (Option Ref))
    (windowSize : Int) (events : List (Event Ref)) : Prop where
  buffer : Holding deref buffer after.entries
  window : windowSize = 31 - after.count
  payloads : payloads events = []
  acks : acks events = []
  nacks : nacks events = []
  sound : ∀ host before, Sound host before events before

/-- At most 30 packets are held: the expected one never is. -/
theorem entries_bounded (before : Reassembly31) : before.entries.length ≤ 30 :=
  scan_length before.held (before.delivered + 1) 30

/-- `insert_pkt` on a packet ahead of the expected one: a free place in the order is
filled, and at a taken one the packet is released. -/
theorem insertPkt_holds {before : Reassembly31} {state : RecvState Ref}
    (represents : Represents deref before state) (pkt : Ref) (ahead : Nat)
    (position : distance 256 before.delivered (pktGetSeqnum (deref pkt)) = ahead)
    (inside : before.delivered < before.delivered + ahead ∧
      before.delivered + ahead < before.delivered + 31) :
    ∃ buffer windowSize events,
      insertPkt deref state.lastack state.receiveBuffer pkt state.windowSize =
        (buffer, windowSize, events) ∧
      Inserted deref (before.hold (before.delivered + ahead) (deref pkt).body inside)
        buffer windowSize events := by
  obtain ⟨items, packing, labels⟩ := represents.buffer
  have split := before.entries_split (before.delivered + ahead) inside
  have size := entries_bounded before
  have counted := labels_length labels
  rw [split, List.map_append, List.map_eq_append_iff] at labels
  obtain ⟨front, back, rfl, frontLabels, backLabels⟩ := labels
  rw [List.length_append] at counted
  -- the entries in front have smaller indices
  have smaller : ∀ entry ∈ front, 0 < compareSeqnums state.lastack (pktGetSeqnum (deref pkt))
      (pktGetSeqnum (deref entry)) := by
    intro entry listed
    obtain ⟨index, payload, present, number⟩ := entry_of_label frontLabels listed
    obtain ⟨⟨low, high⟩, _⟩ := (mem_scan _ _ _ _ _).mp present
    rw [represents.compare position number (by omega)]
    omega
  have number : (before.delivered + ahead) % 256 = pktGetSeqnum (deref pkt) := by
    rw [← position, start_add_distance (by decide)]
    exact Nat.mod_eq_of_lt (deref pkt).seqnum.isLt
  cases place : before.held (before.delivered + ahead) with
  | some earlier =>
    rw [place] at backLabels
    cases back with
    | nil => simp at backLabels
    | cons entry rest =>
      simp only [List.map_cons, List.cons.injEq] at backLabels
      have same : pktGetSeqnum (deref entry) = (before.delivered + ahead) % 256 :=
        congrArg Prod.fst backLabels.1
      have equal := represents.compare position same inside
      rw [Int.sub_self] at equal
      refine ⟨packed maxWindowSize (front ++ entry :: rest), state.windowSize,
        [.pktDel pkt], ?_, ?_⟩
      · rw [packing]
        exact insertPkt_duplicate state.lastack pkt entry front rest state.windowSize smaller equal
          (by simp only [List.length_append, maxWindowSize]; omega)
      · rw [before.hold_taken _ _ earlier inside place]
        exact ⟨⟨_, rfl, by rw [split, place, List.map_append, List.map_append, frontLabels,
          List.map_cons, List.map_cons, backLabels.1, backLabels.2]⟩, represents.window, rfl, rfl,
          rfl, fun _ _ => rfl⟩
  | none =>
    rw [place] at backLabels
    dsimp only at backLabels
    have entered := before.hold_free _ (deref pkt).body inside place
    have own : label deref pkt = shown (before.delivered + ahead, (deref pkt).body) := by
      simp only [label, shown, number]
    have more : ((before.hold (before.delivered + ahead) (deref pkt).body inside).count : Int) =
        before.count + 1 := by
      simp only [Reassembler.count, entered, split, place, List.length_append, List.length_cons]
      omega
    have window := represents.window
    refine ⟨packed maxWindowSize (front ++ pkt :: back), state.windowSize - 1, [], ?_, ?_⟩
    · rw [packing]
      cases back with
      | nil =>
        rw [List.append_nil]
        exact insertPkt_append state.lastack pkt front state.windowSize smaller
          (by simp only [maxWindowSize]; simp only [List.length_nil] at counted; omega)
      | cons entry rest =>
        obtain ⟨index, payload, present, same⟩ := entry_of_label backLabels (List.mem_cons_self ..)
        obtain ⟨⟨low, high⟩, _⟩ := (mem_scan _ _ _ _ _).mp present
        refine insertPkt_between state.lastack pkt entry front rest state.windowSize smaller ?_ ?_
        · rw [represents.compare position same (by omega)]
          omega
        · simp only [List.length_append, maxWindowSize]
          omega
    · refine ⟨⟨_, rfl, ?_⟩, by omega, rfl, rfl, rfl, fun _ _ => rfl⟩
      rw [entered, List.map_append, List.map_append, frontLabels, List.map_cons, List.map_cons,
        backLabels, own]

/-! ## Delivery -/

/-- No buffered packet has the expected number: all of them lie ahead of it. -/
theorem Represents.unexpected {before : Reassembly31} {state : RecvState Ref}
    (represents : Represents deref before state) {i : Nat} {entry : Ref}
    (found : slot state.receiveBuffer i = some entry) :
    pktGetSeqnum (deref entry) ≠ (state.lastack + 1) % 256 := by
  obtain ⟨items, packing, labels⟩ := represents.buffer
  rw [packing, slot_packed] at found
  obtain ⟨index, payload, present, number⟩ := entry_of_label labels (List.mem_of_getElem? found)
  have bounds := (mem_entries.mp present).1
  rw [represents.expected]
  omega

/-- So nothing is removed. -/
theorem removeFromBuffer_keeps {before : Reassembly31} {state : RecvState Ref}
    (represents : Represents deref before state) :
    removeFromBuffer deref state.receiveBuffer ((state.lastack + 1) % 256) state.windowSize =
      (state.receiveBuffer, state.windowSize, []) := by
  rw [removeFromBuffer]
  cases front : slot state.receiveBuffer 0 with
  | none => rfl
  | some entry => simp only [represents.unexpected front, if_false]

/-- What a pass that starts in `before` and ends in `after` has written and sent. -/
structure Passed (deref : Ref → Pkt) (host : Host) (before after : Reassembly31)
    (next : RecvState Ref) (events : List (Event Ref)) : Prop where
  represents : Represents deref after next
  output : after.output = before.output ++ payloads events
  sound : Sound host before.delivered events after.delivered
  closes : payloads events ≠ [] → ∃ front datagram slots,
    events = front ++ [.sendAck datagram slots]
  quiet : payloads events = [] → acks events = []

/-- The state at the end of a pass. -/
def refreshed (state : RecvState Ref) : RecvState Ref :=
  { state with receiveBuffer := refresh state.receiveBuffer }

/-- A buffer whose packets come first is left alone by `refresh`. -/
theorem Holding.refresh {buffer : List (Option Ref)} {entries : List (Nat × List Byte)}
    (holding : Holding deref buffer entries) (bounded : entries.length ≤ 31) :
    refresh buffer = buffer := by
  obtain ⟨items, rfl, labels⟩ := holding
  have counted := labels_length labels
  exact refresh_packed items (by simp only [maxWindowSize]; omega)

/-- The `refresh` at the head of a pass changes nothing. -/
theorem Represents.refreshed {before : Reassembly31} {state : RecvState Ref}
    (represents : Represents deref before state) : refreshed state = state := by
  have bounded := entries_bounded before
  rw [SelectiveRepeat.refreshed, represents.buffer.refresh (by omega)]

/-- The empty slots are those that the reassembler does not need. -/
theorem Represents.free {before : Reassembly31} {state : RecvState Ref}
    (represents : Represents deref before state) :
    freeSlots state.receiveBuffer = 31 - before.count := by
  obtain ⟨items, packing, labels⟩ := represents.buffer
  have counted := labels_length labels
  rw [packing, freeSlots, packed_free, counted]
  rfl

/-- A pass that writes nothing and leaves the locals as they are. -/
theorem passed_unchanged (host : Host) {before : Reassembly31} {state : RecvState Ref}
    {events : List (Event Ref)} (represents : Represents deref before state)
    (written : payloads events = []) (sent : acks events = [])
    (sound : Sound host before.delivered events before.delivered) :
    Passed deref host before before (refreshed state) events := by
  refine ⟨?_, by rw [written, List.append_nil], sound, fun nonempty => absurd written nonempty,
    fun _ => sent⟩
  rw [represents.refreshed]
  exact represents

/-- With the expected packet delivered, the draining loop starts on the whole buffer. -/
theorem Represents.draining {before : Reassembly31} {state : RecvState Ref}
    (represents : Represents deref before state) :
    ∃ items, state.receiveBuffer = packed maxWindowSize items ∧
      items.map (label deref) = before.entries.map shown ∧ items.length = before.entries.length ∧
      Draining deref before.held 0 30 (before.delivered + 1) items
        { state with lastack := (state.lastack + 1) % 256 } := by
  obtain ⟨items, packing, labels⟩ := represents.buffer
  have counted := labels_length labels
  have size := entries_bounded before
  refine ⟨items, packing, labels, counted, ?_, packing, labels, ?_, rfl⟩
  · dsimp only
    rw [represents.expected]
    omega
  · have window := represents.window
    simp only [Reassembler.count] at window
    dsimp only
    omega

/-- The expected packet is written, and the held run behind it. -/
theorem deliverExpected_passes (host : Host) (ambient : Ambient) {before : Reassembly31}
    {state : RecvState Ref} (represents : Represents deref before state) (pkt : Ref) :
    ∃ last events, deliverExpected deref host ambient pkt state = .ok (last, events) ∧
      Passed deref host before (before.deliver (deref pkt).body) (refreshed last) events ∧
      nacks events = [] := by
  obtain ⟨items, packing, labels, counted, draining⟩ := represents.draining
  have size := entries_bounded before
  obtain ⟨last, drained, drains, result⟩ := drainLoop_drains host ambient draining
  have bound := run_length before.held 30 (before.delivered + 1)
  have remaining := before.deliver_entries (deref pkt).body
  have final := result.final
  generalize longest : run before.held 30 (before.delivered + 1) =
      written at result bound final remaining
  have delivered : (before.deliver (deref pkt).body).delivered =
      before.delivered + 1 + written.length := by rw [← longest]; rfl
  have output : (before.deliver (deref pkt).body).output =
      before.output ++ (deref pkt).body :: written := by rw [← longest]; rfl
  have compacted : refresh last.receiveBuffer =
      packed maxWindowSize (items.drop written.length) := by
    rw [final.buffer, Nat.zero_add]
    apply refresh_packs
    simp only [List.length_drop, maxWindowSize]
    omega
  refine ⟨last, .writePayload (writePayload (deref pkt)) :: .pktDel pkt :: ([] ++ drained), ?_, ?_,
    by simpa [nacks] using result.nacks⟩
  · rw [deliverExpected, removeFromBuffer_keeps represents]
    simp only [bind, Except.bind, pure, Except.pure]
    rw [show maxWindowSize = 30 + 1 from rfl, drains]
  · have events := result.payloads
    rw [longest] at events
    refine ⟨⟨?_, ?_, ?_⟩, ?_, ?_, ?_, ?_⟩
    · exact delivered ▸ final.lastack
    · refine ⟨_, compacted, ?_⟩
      rw [remaining, List.map_drop, List.map_drop, labels]
    · simp only [refreshed, Reassembler.count, remaining, final.window, List.length_drop]
      omega
    · simp only [payloads] at events
      simp [output, payloads, events, writePayload_body]
    · have sound := result.sound
      rw [longest] at sound
      rw [delivered]
      exact sound
    · intro _
      obtain ⟨front, datagram, slots, closes⟩ := result.closes
      exact ⟨_ :: _ :: front, datagram, slots, by rw [closes]; rfl⟩
    · intro nothing
      simp [payloads] at nothing

/-! ## One pass -/

/-- The number of a datagram that was cut to its first four bytes. -/
def cutNumber (result : Option (List Byte)) : Option Nat :=
  match result with
  | some [_, number, _, _] => some number.toNat
  | _ => none

/-- The number a pass refuses: that of a cut datagram, if it lies in the window. -/
def refused (before : Reassembly31) (result : Option (List Byte)) : Option Nat :=
  (cutNumber result).filter fun number => distance 256 before.delivered number < 31

/-- A decoded packet is taken under its distance from the next one to deliver. -/
theorem handlePacket_accepts (host : Host) (ambient : Ambient) {before : Reassembly31}
    {state : RecvState Ref} (represents : Represents deref before state)
    (sduSize : Int) (pkt : Ref) :
    ∃ last events, handlePacket deref host ambient .pktOk sduSize pkt state = .ok (last, events) ∧
      Passed deref host before
        (before.accept 256 (pktGetSeqnum (deref pkt)) (deref pkt).body) (refreshed last) events ∧
      nacks events = [] := by
  have number : pktGetSeqnum (deref pkt) < 256 := (deref pkt).seqnum.isLt
  have tested := compare_expected state.lastack (pktGetSeqnum (deref pkt)) represents.bounded number
  rw [represents.offset] at tested
  obtain ⟨ahead, position⟩ : ∃ ahead,
      distance 256 before.delivered (pktGetSeqnum (deref pkt)) = ahead :=
    ⟨_, rfl⟩
  have arrives := start_add_distance (show 0 < 256 by decide) before.delivered
    (pktGetSeqnum (deref pkt))
  rw [position, Nat.mod_eq_of_lt number] at arrives
  rw [position] at tested
  rw [handlePacket, tested, Reassembler.accept, position]
  by_cases within : (ahead : Int) < maxWindowSize
  · by_cases next : ahead = 0
    · -- the expected packet
      subst next
      have same : pktGetSeqnum (deref pkt) = (state.lastack + 1) % 256 := by
        rw [represents.expected, ← arrives, Nat.add_zero]
      have offered : before.offer (before.delivered + 0) (deref pkt).body =
          before.deliver (deref pkt).body := by
        rw [Reassembler.offer, if_pos (Nat.add_zero _)]
      rw [if_pos within, if_neg (by simp), if_pos same, offered]
      exact deliverExpected_passes host ambient represents pkt
    · -- a packet ahead of it
      have far : (ahead : Int) < 31 := within
      have inside : before.delivered < before.delivered + ahead ∧
          before.delivered + ahead < before.delivered + 31 := by omega
      have different : pktGetSeqnum (deref pkt) ≠ (state.lastack + 1) % 256 := by
        rw [represents.expected]
        omega
      have offered : before.offer (before.delivered + ahead) (deref pkt).body =
          before.hold (before.delivered + ahead) (deref pkt).body inside := by
        rw [Reassembler.offer, if_neg (by omega), dif_pos inside]
      obtain ⟨buffer, windowSize, events, inserts, inserted⟩ :=
        insertPkt_holds represents pkt ahead position inside
      have kept : Represents deref (before.hold (before.delivered + ahead) (deref pkt).body inside)
          { state with receiveBuffer := buffer, windowSize := windowSize } :=
        ⟨represents.lastack, inserted.buffer, inserted.window⟩
      rw [if_pos within, if_neg (by simp), if_neg different, inserts, offered]
      refine ⟨_, events, rfl, ⟨?_, ?_, inserted.sound host _, ?_, ?_⟩, inserted.nacks⟩
      · rw [kept.refreshed]
        exact kept
      · rw [inserted.payloads, List.append_nil]
        rfl
      · exact fun nonempty => absurd inserted.payloads nonempty
      · exact fun _ => inserted.acks
  · have far : ¬ (ahead : Int) < 31 := within
    have offered : before.offer (before.delivered + ahead) (deref pkt).body = before := by
      rw [Reassembler.offer, if_neg (by omega), dif_neg (by omega)]
    rw [if_neg within, offered]
    exact ⟨state, [], rfl, passed_unchanged host represents rfl rfl rfl, rfl⟩

/-- A rejected datagram changes nothing. One that was cut to its header and lies in
the window is answered, with its number. -/
theorem handlePacket_rejects (host : Host) (ambient : Ambient) {before : Reassembly31}
    {state : RecvState Ref} (represents : Represents deref before state) (err : PktStatusCode)
    (rejected : err ≠ .pktOk) (sduSize : Int) (pkt : Ref) :
    ∃ events, handlePacket deref host ambient err sduSize pkt state = .ok (state, events) ∧
      Passed deref host before before (refreshed state) events ∧
      nacks events = if (err = .eUnconsistent ∧ sduSize = 4) ∧
          distance 256 before.delivered (pktGetSeqnum (deref pkt)) < 31
        then [nackDatagram host (pktGetSeqnum (deref pkt)) (31 - before.count)] else [] := by
  have tested := compare_expected state.lastack (pktGetSeqnum (deref pkt)) represents.bounded
    (deref pkt).seqnum.isLt
  rw [represents.offset] at tested
  have window : state.windowSize = ((31 - before.count : Nat) : Int) := by
    have counted := entries_bounded before
    rw [represents.window]
    simp only [Reassembler.count]
    omega
  have advertised : freeSlots state.receiveBuffer = 31 - before.count := represents.free
  have counted : before.count ≤ 30 := entries_bounded before
  rw [handlePacket, tested]
  by_cases within : distance 256 before.delivered (pktGetSeqnum (deref pkt)) < 31
  · rw [if_pos (by simpa using within), if_pos rejected]
    by_cases cut : err = .eUnconsistent ∧ sduSize = 4
    · rw [if_pos cut, if_pos ⟨cut, within⟩, window, sendNack_exact host _ _ _ _ (by omega)]
      refine ⟨_, rfl, passed_unchanged host represents rfl rfl ?_, by simp [nacks]⟩
      exact ⟨⟨by omega, _, by rw [advertised]⟩, rfl⟩
    · rw [if_neg cut, if_neg (fun both => cut both.1)]
      exact ⟨_, rfl, passed_unchanged host represents rfl rfl rfl, rfl⟩
  · rw [if_neg (by simpa using within), if_neg (fun both => within both.2)]
    exact ⟨_, rfl, passed_unchanged host represents rfl rfl rfl, rfl⟩

/-- The packet that `pkt_decode` makes of an intact datagram. -/
def intactPacket (host : Host) (result : Option (List Byte)) : Option Pkt :=
  match result with
  | none => none
  | some sdu =>
    let bytes := sdu.take maxSduSize
    match pktDecode host (fun i => (bytes[i]?).getD 0) bytes.length blankPkt with
    | (.pktOk, pkt) => some pkt
    | _ => none

/-- What `pkt_decode` finds in the receive buffer depends on the datagram that was
read, not on the bytes behind it or on the struct, and a failed read is not accepted. -/
theorem decode_intact (host : Host) (result : Option (List Byte)) (buffer : Nat → Byte)
    (prior : Pkt) :
    intactPacket host result =
      if (pktDecode host (readInto maxSduSize result buffer)
          (asSize (readSize maxSduSize result)) prior).1 = .pktOk
      then some (pktDecode host (readInto maxSduSize result buffer)
          (asSize (readSize maxSduSize result)) prior).2
      else none := by
  cases result with
  | none =>
    have status := (decode_status host buffer (2 ^ 64 - 1) prior).1
    have refused : decodedStatus host buffer (2 ^ 64 - 1) ≠ .pktOk := by simp [decodedStatus]
    have size : asSize (readSize maxSduSize none) = 2 ^ 64 - 1 := rfl
    rw [size, readInto, status, if_neg refused]
    rfl
  | some sdu =>
    have short : (sdu.take maxSduSize).length ≤ 520 := List.length_take_le _ _
    have size : asSize (readSize maxSduSize (some sdu)) = (sdu.take maxSduSize).length := by
      simp only [asSize, readSize]
      omega
    obtain ⟨status, content⟩ := decode_status host (readInto maxSduSize (some sdu) buffer)
      (sdu.take maxSduSize).length prior
    obtain ⟨plain, parsedPlain⟩ := decode_status host
      (fun i => ((sdu.take maxSduSize)[i]?).getD 0) (sdu.take maxSduSize).length blankPkt
    obtain ⟨sameStatus, sameContent⟩ := decoded_local host (readInto maxSduSize (some sdu) buffer)
      (fun i => ((sdu.take maxSduSize)[i]?).getD 0) (sdu.take maxSduSize).length (by omega) (by
        intro i inside
        simp [readInto, List.getElem?_eq_getElem inside])
    rw [size]
    by_cases accepted : decodedStatus host (readInto maxSduSize (some sdu) buffer)
        (sdu.take maxSduSize).length = .pktOk
    · have plainAccepted := plain.trans (sameStatus.symm.trans accepted)
      rw [if_pos (status.trans accepted), content (status.trans accepted), sameContent accepted,
        ← parsedPlain plainAccepted]
      simp only [intactPacket]
      rw [show pktDecode host (fun i => ((sdu.take maxSduSize)[i]?).getD 0)
          (sdu.take maxSduSize).length blankPkt = (.pktOk, (pktDecode host
            (fun i => ((sdu.take maxSduSize)[i]?).getD 0) (sdu.take maxSduSize).length blankPkt).2)
          from Prod.ext plainAccepted rfl]
    · have plainRejected : ¬ (pktDecode host (fun i => ((sdu.take maxSduSize)[i]?).getD 0)
          (sdu.take maxSduSize).length blankPkt).1 = .pktOk := by
        rwa [plain, ← sameStatus]
      rw [if_neg (by rwa [status])]
      simp only [intactPacket]
      split
      · rename_i pkt same
        exact absurd (congrArg Prod.fst same) plainRejected
      · rfl

/-- The number and the payload that are accepted are those of the intact packet. -/
theorem acceptedPacket_intact (host : Host) (result : Option (List Byte)) :
    acceptedPacket host result =
      (intactPacket host result).map fun pkt => (pktGetSeqnum pkt, pkt.body) := by
  cases result with
  | none => rfl
  | some sdu =>
    simp only [acceptedPacket, intactPacket]
    generalize pktDecode host (fun i => ((sdu.take maxSduSize)[i]?).getD 0)
      (sdu.take maxSduSize).length blankPkt = decoded
    obtain ⟨err, pkt⟩ := decoded
    cases err <;> rfl

/-- The datagram of a valid packet is intact. -/
theorem intactPacket_wire (host : Host) (pkt : Pkt) (valid : Valid pkt) :
    ∃ intact : Pkt, intactPacket host (some (wire host pkt)) = some intact ∧
      intact.seqnum = pkt.seqnum ∧ intact.body = pkt.body := by
  have fits : (wire host pkt).length ≤ maxSduSize :=
    wire_bounded host pkt valid.readable valid.bounded
  refine ⟨{ pkt with
    payload := some (pkt.body ++ List.replicate (paddingOf pkt.length.toNat) 0)
    crc := host.crc32 (covered pkt) }, ?_, rfl, ?_⟩
  · simp only [intactPacket]
    rw [List.take_of_length_le fits,
      decode_wire host pkt valid _ (holds_getElem (wire host pkt) fun _ => 0) blankPkt]
  · have size := body_length pkt valid.readable
    simp only [Pkt.body, Option.getD_some] at size ⊢
    rw [List.take_append_of_le_length (by omega), List.take_of_length_le (by omega)]

/-- It is accepted with its number and its payload. -/
theorem acceptedPacket_wire (host : Host) (pkt : Pkt) (valid : Valid pkt) :
    acceptedPacket host (some (wire host pkt)) = some (pktGetSeqnum pkt, pkt.body) := by
  obtain ⟨intact, reads, number, body⟩ := intactPacket_wire host pkt valid
  rw [acceptedPacket_intact, reads, Option.map_some, body, pktGetSeqnum, number]
  rfl

/-- A pass that reads a packet with this number. -/
def quietArrival (number : BitVec 8) : Arrival :=
  ⟨quietAmbient, some (wire zlibHost { highPkt with seqnum := number })⟩

/-- The packet of three bytes under any number. -/
theorem highPkt_numbered (number : BitVec 8) : Valid { highPkt with seqnum := number } where
  known := .inl rfl
  bounded := highPkt_valid.bounded
  readable := highPkt_valid.readable
  dataOnly := fun foreign => absurd rfl foreign

/-- The abstract reading of a datagram agrees with what the loop body decodes, whatever the buffer
and the struct held before. -/
theorem decode_read (host : Host) (result : Option (List Byte)) (buffer : Nat → Byte)
    (prior : Pkt) :
    acceptedPacket host result =
      if (pktDecode host (readInto maxSduSize result buffer)
          (asSize (readSize maxSduSize result)) prior).1 = .pktOk
      then some (pktGetSeqnum (pktDecode host (readInto maxSduSize result buffer)
          (asSize (readSize maxSduSize result)) prior).2,
        (pktDecode host (readInto maxSduSize result buffer)
          (asSize (readSize maxSduSize result)) prior).2.body)
      else none := by
  rw [acceptedPacket_intact, decode_intact host result buffer prior]
  split
  · rfl
  · rfl

/-- Of four bytes the second is taken for the number. -/
theorem cutNumber_some (result : Option (List Byte)) (buffer : Nat → Byte)
    (four : readSize maxSduSize result = 4) :
    cutNumber result = some (readInto maxSduSize result buffer 1).toNat := by
  cases result with
  | none => simp [readSize] at four
  | some sdu =>
    simp only [readSize, maxSduSize, maxPayloadSize, List.length_take] at four
    have whole : sdu.length = 4 := by omega
    obtain ⟨first, second, third, fourth, rfl⟩ := List.length_eq_four.mp whole
    rfl

/-- Anything else is not taken for a cut datagram. -/
theorem cutNumber_none (result : Option (List Byte)) (other : readSize maxSduSize result ≠ 4) :
    cutNumber result = none := by
  unfold cutNumber
  split
  · exact absurd rfl other
  · rfl

/-- One pass through the loop never faults, is one abstract step, and refuses exactly
the cut datagrams whose number lies in the window. -/
theorem selRepeatReadBody_passes (host : Host) (allocator : Allocator deref) (ambient : Ambient)
    (result : Option (List Byte)) {before : Reassembly31} {state : RecvState Ref}
    (represents : Represents deref before state) :
    ∃ next events,
      selRepeatReadBody deref host allocator ambient result state = .ok (next, events) ∧
      Passed deref host before (reassemble before (acceptedPacket host result)) next
        events ∧
      nacks events =
        ((refused before result).map fun number => nackDatagram host number
          (31 - before.count)).toList := by
  have taken := decode_read host result state.pktBuffer (pktNew (ambient.fresh 0))
  have status := (decode_status host (readInto maxSduSize result state.pktBuffer)
    (asSize (readSize maxSduSize result)) (pktNew (ambient.fresh 0))).1
  have head := decode_header host (readInto maxSduSize result state.pktBuffer)
    (asSize (readSize maxSduSize result)) (pktNew (ambient.fresh 0))
  have kept : Represents deref before
      { state with pktBuffer := readInto maxSduSize result state.pktBuffer } :=
    ⟨represents.lastack, represents.buffer, represents.window⟩
  rw [selRepeatReadBody]
  revert taken status head
  generalize pktDecode host (readInto maxSduSize result state.pktBuffer)
    (asSize (readSize maxSduSize result)) (pktNew (ambient.fresh 0)) = decoded
  obtain ⟨err, content⟩ := decoded
  intro taken status head
  have read := allocator.deref_alloc content
  -- a datagram of four bytes is rejected, with its second byte as its number
  have cut : (err = .eUnconsistent ∧ readSize maxSduSize result = 4) ↔
      readSize maxSduSize result = 4 := by
    refine ⟨fun both => both.2, fun four => ⟨?_, four⟩⟩
    rw [show err = _ from status, four]
    rfl
  have refusal : refused before result =
      if readSize maxSduSize result = 4 ∧ distance 256 before.delivered (pktGetSeqnum content) < 31
      then some (pktGetSeqnum content) else none := by
    by_cases four : readSize maxSduSize result = 4
    · have number : content.seqnum = readInto maxSduSize result state.pktBuffer 1 :=
        (head (by rw [four]; decide)).2.2.1
      rw [refused, cutNumber_some result state.pktBuffer four, ← number, Option.filter_some]
      simp [four, pktGetSeqnum]
    · rw [refused, cutNumber_none result four, if_neg (fun both => four both.1)]
      rfl
  by_cases accepted : err = .pktOk
  · subst accepted
    obtain ⟨last, events, handles, passed, noNacks⟩ := handlePacket_accepts host ambient kept
      (readSize maxSduSize result) (allocator.alloc content)
    have whole : ¬ readSize maxSduSize result = 4 := fun four => by
      simpa using (cut.mpr four).1
    refine ⟨refreshed last, events, ?_, ?_, ?_⟩
    · simp only [bind, Except.bind, reduceCtorEq, if_false]
      rw [handles]
      rfl
    · rw [taken, if_pos rfl]
      rw [read] at passed
      exact passed
    · rw [noNacks, refusal, if_neg (fun both => whole both.1)]
      rfl
  · rw [taken, if_neg accepted]
    by_cases headless : err = .eNoheader
    · subst headless
      have other : ¬ readSize maxSduSize result = 4 := fun four => by
        simpa using (cut.mpr four).1
      refine ⟨_, _, rfl, passed_unchanged host kept rfl rfl rfl, ?_⟩
      rw [refusal, if_neg (fun both => other both.1)]
      rfl
    · obtain ⟨events, handles, passed, sent⟩ := handlePacket_rejects host ambient kept err accepted
        (readSize maxSduSize result) (allocator.alloc content)
      refine ⟨refreshed { state with pktBuffer := readInto maxSduSize result state.pktBuffer },
        events, ?_, passed, ?_⟩
      · simp only [headless, if_false, bind, Except.bind]
        rw [handles]
        rfl
      · rw [sent, read, refusal]
        simp only [cut]
        split <;> rfl

/-! ## Runs -/

/-- The abstract receiver after a sequence of arrivals. -/
def reassembled (host : Host) (first : Reassembly31) (arrivals : List Arrival) : Reassembly31 :=
  arrivals.foldl
    (fun before arrival => reassemble before (acceptedPacket host arrival.result)) first

/-- The start of the receiver represents the start of the reassembler. -/
theorem represents_start (junk : Nat → Byte) :
    Represents deref (start 31 (List Byte)) (recvStart Ref junk) where
  lastack := rfl
  buffer := ⟨[], (packed_nil _).symm, rfl⟩
  window := rfl

/-- From a represented state every run of passes stays represented, and its writes
continue the abstract output. -/
theorem selRepeatRead_runs (host : Host) (arrivals : List Arrival) {first : Reassembly31}
    {state : RecvState Pkt} (represents : Represents id first state) :
    ∃ last passes, selRepeatRead host arrivals state = .ok (last, passes) ∧
      Represents id (reassembled host first arrivals) last ∧
      (reassembled host first arrivals).output = first.output ++ passes.flatMap payloads ∧
      Sound host first.delivered passes.flatten (reassembled host first arrivals).delivered := by
  induction arrivals generalizing first state with
  | nil => exact ⟨state, [], rfl, represents, by simp [reassembled], rfl⟩
  | cons arrival rest inductionHypothesis =>
    obtain ⟨next, events, handles, passed, _⟩ := selRepeatReadBody_passes host Allocator.values
      arrival.ambient arrival.result represents
    obtain ⟨last, passes, runs, final, output, sound⟩ := inductionHypothesis passed.represents
    refine ⟨last, events :: passes, ?_, final, ?_, ?_⟩
    · simp only [selRepeatRead, handles, runs, bind, Except.bind, pure, Except.pure]
    · rw [reassembled, List.foldl_cons, ← reassembled, output, passed.output, List.append_assoc]
      rfl
    · exact sound_append host _ _ _ events passes.flatten passed.sound sound

/-- The heads of the loop that some sequence of reads leads to. -/
def Reached (host : Host) (state : RecvState Pkt) : Prop :=
  ∃ arrivals junk passes, selRepeatRead host arrivals (recvStart Pkt junk) = .ok (state, passes)

/-- Every reachable state of the receiver represents one of the reassembler. -/
theorem Reached.represents {host : Host} {state : RecvState Pkt} (reached : Reached host state) :
    ∃ before, Represents id before state := by
  obtain ⟨arrivals, junk, passes, runs⟩ := reached
  obtain ⟨last, others, same, represents, _⟩ :=
    selRepeatRead_runs host arrivals (represents_start junk)
  obtain ⟨rfl, rfl⟩ : last = state ∧ others = passes := by simpa using same.symm.trans runs
  exact ⟨_, represents⟩

/-- After any sequence of reads, of any bytes and sizes or failed, the receiver
represents the abstract receiver that took the accepted packets one by one, and has
written exactly its output. This is the receiver over values, where a release is an event
and no more: whether each of them is one the heap allows is another question. -/
theorem selRepeatRead_refines_reassembler (host : Host) (arrivals : List Arrival)
    (junk : Nat → Byte) :
    ∃ last passes, selRepeatRead host arrivals (recvStart Pkt junk) = .ok (last, passes) ∧
      Represents id (reassembled host (start 31 (List Byte)) arrivals) last ∧
      passes.flatMap payloads = (reassembled host (start 31 (List Byte)) arrivals).output := by
  obtain ⟨last, passes, runs, represents, output, _⟩ :=
    selRepeatRead_runs host arrivals (represents_start junk)
  exact ⟨last, passes, runs, represents, output.symm⟩

end SelectiveRepeat
