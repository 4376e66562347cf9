import SelectiveRepeat.Packet.RoundTrip

/-!
# What packet_interface.h promises

Three promises of the header are compared with the code. `pkt_decode` is the
unsigned big-endian parser on everything a socket read can return. It keeps its
promise on the header values of a rejected datagram only when the setters accept
the type and the length that were found, or when the struct happened to hold them.
`pkt_encode` keeps its promise on the capacity of the buffer only when there is room
and 16 bits are enough to say so: it stores everything before it compares.
-/

namespace SelectiveRepeat

/-! ## The decoder as a parser -/

/-- `pkt_decode` returns the status of the reference parser, and on success it leaves
exactly the parsed packet, whatever the struct held before.

`decode_exact` follows the returns of `pkt_decode` one by one. The parser finds the CRC
behind the padding and the reference four bytes before the end, which is the same place
once the length test has passed. -/
theorem decode_agrees_with_reference (host : Host) (data : Nat → Byte) (len : Nat) (prior : Pkt)
    (received : Received len) :
    (pktDecode host data len prior).1 = referenceStatus host data len ∧
      ((pktDecode host data len prior).1 = .pktOk →
        (pktDecode host data len prior).2 = {
          type := BitVec.ofNat 3 (typeField data)
          window := BitVec.ofNat 5 (windowField data)
          seqnum := data 1
          length := BitVec.ofNat 16 (lengthField data)
          payload := some (bytesAt (fun i => data (4 + i)) (lengthField data) ++
            List.replicate (paddingOf (lengthField data)) 0)
          crc := crcField data (len - 4) }) := by
  obtain ⟨status, content⟩ := decode_exact host data len prior received
  constructor
  · exact status
  · intro ok
    have accepted := accepted_of_ok host data len prior ok
    have size := accepted.size
    have narrow : len % 65536 = len := by
      rcases received with read | failed
      · omega
      · -- a failed read is never accepted
        have refused : referenceStatus host data len ≠ .pktOk := by
          rw [failed]
          simp [referenceStatus]
        exact absurd (status.symm.trans ok) refused
    have trailer : len - 4 = 4 + lengthField data + paddingOf (lengthField data) := by omega
    rw [content ok, trailer]
    rfl

/-- The twelve bytes of a packet with bytes above 127, in front of stale bytes. -/
theorem decode_agrees_with_reference_high :
    (pktDecode zlibHost (fun i => ((wire zlibHost highPkt)[i]?).getD 0xff) 12 blankPkt).1 =
        .pktOk ∧
      (pktDecode zlibHost (fun i => ((wire zlibHost highPkt)[i]?).getD 0xff) 12 blankPkt).2.payload
        = some [0x80, 0xff, 1, 0] := by
  obtain ⟨status, content⟩ := decode_agrees_with_reference zlibHost
    (fun i => ((wire zlibHost highPkt)[i]?).getD 0xff) 12 blankPkt (.inl (by decide))
  have accepted : referenceStatus zlibHost (fun i => ((wire zlibHost highPkt)[i]?).getD 0xff) 12 =
      .pktOk := by decide +kernel
  constructor
  · exact status.trans accepted
  · rw [content (status.trans accepted)]
    decide +kernel

/-! ## The header of a rejected datagram -/

/-- The struct has the values of the header bits in the data stream. -/
structure HeaderRead (data : Nat → Byte) (pkt : Pkt) : Prop where
  type : pkt.type.toNat = typeField data
  window : pktGetWindow pkt = windowField data
  seqnum : pktGetSeqnum pkt = (data 1).toNat
  length : pktGetLength pkt = lengthField data

/-- Both fields fit the struct. -/
theorem fields_fit (data : Nat → Byte) : typeField data < 8 ∧ lengthField data < 65536 := by
  have first := (data 0).isLt
  have third := (data 2).isLt
  have fourth := (data 3).isLt
  simp only [typeField, lengthField]
  omega

/-- From four bytes on, the header values survive exactly when neither setter refuses
its value, or the struct already held the refused value.

`decode_header` gives the four fields after any return from the header on. Number and
window are always stored; type and length are stored unless their setter refuses. -/
theorem header_read_iff (host : Host) (data : Nat → Byte) (len : Nat) (prior : Pkt)
    (header : 4 ≤ len) :
    HeaderRead data (pktDecode host data len prior).2 ↔
      ((typeField data = 1 ∨ typeField data = 2 ∨ typeField data = 4) ∨
          prior.type.toNat = typeField data) ∧
        (lengthField data ≤ 512 ∨ prior.length.toNat = lengthField data) := by
  obtain ⟨type, window, seqnum, length⟩ := decode_header host data len prior header
  obtain ⟨narrowType, narrowLength⟩ := fields_fit data
  have typeRead : (pktDecode host data len prior).2.type.toNat = typeField data ↔
      (typeField data = 1 ∨ typeField data = 2 ∨ typeField data = 4) ∨
        prior.type.toNat = typeField data := by
    rw [type]
    by_cases known : typeField data = 1 ∨ typeField data = 2 ∨ typeField data = 4
    · rw [if_pos known, BitVec.toNat_ofNat, Nat.mod_eq_of_lt narrowType]
      exact iff_of_true rfl (.inl known)
    · rw [if_neg known]
      exact (or_iff_right known).symm
  have lengthRead : (pktDecode host data len prior).2.length.toNat = lengthField data ↔
      lengthField data ≤ 512 ∨ prior.length.toNat = lengthField data := by
    rw [length]
    by_cases oversize : lengthField data > 512
    · rw [if_pos oversize]
      exact (or_iff_right (Nat.not_le.mpr oversize)).symm
    · rw [if_neg oversize, BitVec.toNat_ofNat, Nat.mod_eq_of_lt narrowLength]
      exact iff_of_true rfl (.inl (Nat.le_of_not_lt oversize))
  constructor
  · intro read
    exact ⟨typeRead.mp read.type, lengthRead.mp read.length⟩
  · rintro ⟨typeKept, lengthKept⟩
    constructor
    · exact typeRead.mpr typeKept
    · rw [pktGetWindow, window, BitVec.toNat_ofNat]
      apply Nat.mod_eq_of_lt
      exact Nat.mod_lt _ (by decide)
    · rw [pktGetSeqnum, seqnum]
    · exact lengthRead.mpr lengthKept

/-- Four bytes with the type 0 and the length 513, into a struct of zeros: the number
is found, the length is not. -/
theorem header_lost_on_refusal :
    ¬ ∀ (data : Nat → Byte) (len : Nat) (prior : Pkt), 4 ≤ len →
      HeaderRead data (pktDecode zlibHost data len prior).2 := by
  intro claimed
  have read := claimed (fun i => [0x00, 0x05, 0x02, 0x01].getD i 0) 4 blankPkt (Nat.le_refl 4)
  have length := read.length
  revert length
  decide

/-- The same bytes with the length 1 and type DATA. -/
theorem header_read_cut :
    HeaderRead (fun i => [0x20, 0x05, 0x00, 0x01].getD i 0)
      (pktDecode zlibHost (fun i => [0x20, 0x05, 0x00, 0x01].getD i 0) 4 blankPkt).2 :=
  (header_read_iff zlibHost _ 4 blankPkt (Nat.le_refl 4)).mpr (by decide)

/-! ## The capacity of the buffer -/

/-- The promise on the capacity, with `buf` an array of `capacity` bytes: success and
exactly the bytes of the packet if they fit, otherwise E_NOMEM, no store outside the
array, and an unchanged `*len`. -/
def RespectsCapacity (host : Host) (pkt : Pkt) (mem : Nat → Byte) (capacity : Nat) : Prop :=
  ∃ status stored final, pktEncode host pkt ⟨mem, []⟩ capacity = .ok (status, stored, final) ∧
    let size := 8 + pkt.length.toNat + paddingOf pkt.length.toNat
    if size ≤ capacity then
      status = .pktOk ∧ stored.written = List.range size ∧ final = size ∧
        bytesAt stored.mem size = wire host pkt ∧ ∀ i ≥ size, stored.mem i = mem i
    else status = .eNomem ∧ (∀ i ∈ stored.written, i < capacity) ∧ final = capacity

/-- The promise is kept exactly when the low 16 bits of `*len` announce enough room:
a small buffer is overrun before the comparison, and a large one may be refused.

All bytes are stored before the comparison, and the comparison sees the low 16 bits only.
If these announce too little, either the packet would have fitted and is refused, or the
byte behind the array is among those stored. -/
theorem capacity_respected_iff (host : Host) (pkt : Pkt) (mem : Nat → Byte) (capacity : Nat)
    (valid : Valid pkt) :
    RespectsCapacity host pkt mem capacity ↔
      8 + pkt.length.toNat + paddingOf pkt.length.toNat ≤ capacity % 65536 := by
  have size := wire_length host pkt valid.readable
  have encoded := encode_exact host pkt ⟨mem, []⟩ capacity valid.readable
  have stores := storeAll_written ⟨mem, []⟩ 0 (wire host pkt)
  rw [List.nil_append, ← List.range_eq_range', size] at stores
  rw [size] at encoded
  constructor
  · rintro ⟨status, stored, final, same, promised⟩
    by_contra refused
    rw [if_pos (Nat.lt_of_not_le refused)] at encoded
    obtain ⟨failed, everything, _⟩ : status = .eNomem ∧
        stored = CharBuf.storeAll ⟨mem, []⟩ 0 (wire host pkt) ∧ final = capacity := by
      simpa using (Except.ok.inj (same.symm.trans encoded))
    by_cases fits : 8 + pkt.length.toNat + paddingOf pkt.length.toNat ≤ capacity
    · simp only [fits, if_true, failed, reduceCtorEq, false_and] at promised
    · -- the byte just behind the array is among the stores
      simp only [fits, if_false] at promised
      have outside := promised.2.1 capacity (by
        rw [everything, stores, List.mem_range]
        omega)
      exact Nat.lt_irrefl capacity outside
  · intro announced
    rw [if_neg (Nat.not_lt.mpr announced)] at encoded
    have fits : 8 + pkt.length.toNat + paddingOf pkt.length.toNat ≤ capacity :=
      Nat.le_trans announced (Nat.mod_le capacity 65536)
    refine ⟨_, _, _, encoded, ?_⟩
    simp only [fits, if_true]
    refine ⟨trivial, stores, trivial, ?_, ?_⟩
    · rw [← size]
      exact bytesAt_storeAll _ _
    · intro i outside
      rw [storeAll_mem, size, if_neg (by omega)]

/-- Twelve bytes into a buffer of eight: four stores go past its end. -/
theorem small_buffer_overrun : ¬ RespectsCapacity zlibHost highPkt (fun _ => 0) 8 := by
  rw [RespectsCapacity, encode_exact zlibHost highPkt _ 8 highPkt_valid.readable]
  rintro ⟨status, stored, final, same, promised⟩
  have size : (wire zlibHost highPkt).length = 12 := wire_length _ _ highPkt_valid.readable
  have sizes : 8 + highPkt.length.toNat + paddingOf highPkt.length.toNat = 12 := rfl
  rw [if_pos (by rw [size]; decide), Except.ok.injEq, Prod.mk.injEq, Prod.mk.injEq] at same
  obtain ⟨_, rfl, _⟩ := same
  simp only [sizes, Nat.reduceLeDiff, if_false, storeAll_written, size] at promised
  have inside := promised.2.1 11 (by decide)
  exact absurd inside (by decide)

/-- With the 520 bytes its callers provide, the promise is kept. -/
theorem capacity_respected_high : RespectsCapacity zlibHost highPkt (fun _ => 0) 520 :=
  (capacity_respected_iff zlibHost highPkt (fun _ => 0) 520 highPkt_valid).mpr (by decide)

end SelectiveRepeat
