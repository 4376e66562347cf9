import SelectiveRepeat.Packet.Encode

/-!
# Decoding undoes encoding

A datagram in memory is recognised through its first bytes only, so the round
trip holds for the buffer `pkt_encode` filled, for a receive buffer with stale
bytes behind the datagram, and for any other memory with the same bytes.
-/

namespace SelectiveRepeat

/-- The packets the protocol exchanges: a known type, a payload of at most 512
bytes that is there to be read, and no payload unless the type is DATA. -/
structure Valid (pkt : Pkt) : Prop where
  known : pkt.type = 1 ∨ pkt.type = 2 ∨ pkt.type = 4
  bounded : pkt.length.toNat ≤ 512
  dataOnly : pkt.type ≠ 1 → pkt.length.toNat = 0
  readable : Readable pkt

/-- The memory from `data` on starts with these bytes. -/
def Holds (data : Nat → Byte) (bytes : List Byte) : Prop := bytesAt data bytes.length = bytes

/-- Reading so many bytes and then more of them is reading all of them. -/
theorem bytesAt_add (data : Nat → Byte) (first second : Nat) :
    bytesAt data (first + second) =
      bytesAt data first ++ bytesAt (fun i => data (first + i)) second := by
  simp [bytesAt, List.range_add, Function.comp_def]

/-- Memory holds a joined list exactly if it holds the front, and behind it the back. -/
theorem holds_append (data : Nat → Byte) (first second : List Byte) :
    Holds data (first ++ second) ↔
      Holds data first ∧ Holds (fun i => data (first.length + i)) second := by
  simp only [Holds, List.length_append, bytesAt_add]
  constructor
  · intro same
    exact List.append_inj same (by simp [bytesAt])
  · rintro ⟨front, back⟩
    rw [front, back]

/-- Memory holds a list exactly if it starts with the first byte and holds the rest behind it. -/
theorem holds_cons (data : Nat → Byte) (first : Byte) (rest : List Byte) :
    Holds data (first :: rest) ↔ data 0 = first ∧ Holds (fun i => data (i + 1)) rest := by
  simp [Holds, bytesAt, List.range_succ_eq_map, Function.comp_def]

/-- The buffer `pkt_encode` filled starts with what was stored. -/
theorem holds_storeAll (buf : CharBuf) (bytes : List Byte) :
    Holds (buf.storeAll 0 bytes).mem bytes := bytesAt_storeAll buf bytes

/-- A list read as memory, with arbitrary bytes behind it. -/
theorem holds_getElem (bytes : List Byte) (beyond : Nat → Byte) :
    Holds (fun i => (bytes[i]?).getD (beyond i)) bytes := by
  apply List.ext_getElem
  · simp [bytesAt]
  · intro i before after
    simp [bytesAt, after]

/-- What the fields of a stored datagram read as. -/
structure Fields (host : Host) (pkt : Pkt) (data : Nat → Byte) : Prop where
  type : BitVec.ofNat 3 (typeField data) = pkt.type
  window : BitVec.ofNat 5 (windowField data) = pkt.window
  seqnum : data 1 = pkt.seqnum
  length : lengthField data = pkt.length.toNat
  payload : bytesAt (fun i => data (4 + i)) pkt.length.toNat = pkt.body
  covered : bytesAt data (4 + pkt.length.toNat + paddingOf pkt.length.toNat) = covered pkt
  crc : crcField data (4 + pkt.length.toNat + paddingOf pkt.length.toNat) =
    host.crc32 (SelectiveRepeat.covered pkt)

/-- The two bytes of a length make up the length. -/
theorem extract_append (length : BitVec 16) :
    256 * (length.extractLsb' 8 8).toNat + (length.extractLsb' 0 8).toNat = length.toNat := by
  have bounded := length.isLt
  simp only [BitVec.extractLsb'_toNat, Nat.shiftRight_eq_div_pow]
  omega

/-- The four bytes of a word make up the word. -/
theorem bigEndian_append (word : BitVec 32) :
    (word.extractLsb' 24 8 ++ word.extractLsb' 16 8 ++ word.extractLsb' 8 8 ++
      word.extractLsb' 0 8 : BitVec 32) = word := by
  apply BitVec.eq_of_getLsbD_eq
  intro i bounded
  simp only [BitVec.getLsbD_append, BitVec.getLsbD_extractLsb']
  interval_cases i <;> simp

/-- Where the CRC field is read, the bytes are those of its value. -/
theorem bigEndian_crcField (data : Nat → Byte) (start : Nat) :
    bigEndian (crcField data start) = bytesAt (fun i => data (start + i)) 4 := by
  have parts (highest higher lower lowest : Byte) :
      bigEndian (highest ++ higher ++ lower ++ lowest : BitVec 32) =
        [highest, higher, lower, lowest] := by
    simp only [bigEndian, List.cons.injEq, and_true]
    refine ⟨?_, ?_, ?_, ?_⟩ <;> apply BitVec.eq_of_getLsbD_eq <;> intro i bounded <;>
      simp only [BitVec.getLsbD_extractLsb', BitVec.getLsbD_append] <;>
      interval_cases i <;> simp
  rw [crcField, parts]
  rfl

/-- The CRC covers the header, the payload and its padding. -/
theorem covered_length (pkt : Pkt) (readable : Readable pkt) :
    (covered pkt).length = 4 + pkt.length.toNat + paddingOf pkt.length.toNat := by
  simp only [covered, header, List.length_append, List.length_cons, List.length_nil,
    List.length_replicate, body_length pkt readable]
  omega

/-- Each field of a stored datagram reads as the packet's. The datagram is taken apart along its
definition: header, payload, padding and CRC. -/
theorem wire_fields (host : Host) (pkt : Pkt) (data : Nat → Byte) (readable : Readable pkt)
    (held : Holds data (wire host pkt)) : Fields host pkt data := by
  have splitByte : ∀ (type : BitVec 3) (window : BitVec 5),
      BitVec.ofNat 3 ((type ++ window : BitVec 8).toNat / 32) = type ∧
        BitVec.ofNat 5 ((type ++ window : BitVec 8).toNat % 32) = window := by decide +kernel
  obtain ⟨front, trailer⟩ := (holds_append data _ _).mp held
  obtain ⟨head, rest⟩ := (holds_append data _ _).mp front
  obtain ⟨body, _⟩ := (holds_append _ _ _).mp rest
  simp only [header, holds_cons] at head
  obtain ⟨first, second, third, fourth, _⟩ := head
  rw [covered_length pkt readable, bigEndian] at trailer
  simp only [holds_cons] at trailer
  obtain ⟨highest, higher, lower, lowest, _⟩ := trailer
  refine ⟨?_, ?_, second, ?_, ?_, ?_, ?_⟩
  · rw [typeField, first, (splitByte pkt.type pkt.window).1]
  · rw [windowField, first, (splitByte pkt.type pkt.window).2]
  · rw [lengthField, third, fourth, extract_append]
  · rw [← body_length pkt readable]
    exact body
  · rw [← covered_length pkt readable]
    exact front
  · rw [← bigEndian_append (host.crc32 (covered pkt)), crcField, ← highest, ← higher,
      ← lower, ← lowest]
    rfl

/-- The decoder accepts a stored datagram and recovers every field of the packet,
the padded payload and the CRC, into a struct of any prior content. -/
theorem decode_wire (host : Host) (pkt : Pkt) (valid : Valid pkt) (data : Nat → Byte)
    (held : Holds data (wire host pkt)) (prior : Pkt) :
    pktDecode host data (wire host pkt).length prior =
      (.pktOk, { pkt with
        payload := some (pkt.body ++ List.replicate (paddingOf pkt.length.toNat) 0)
        crc := host.crc32 (covered pkt) }) := by
  have fields := wire_fields host pkt data valid.readable held
  have size := wire_length host pkt valid.readable
  have bounded := valid.bounded
  have known : typeField data = 1 ∨ typeField data = 2 ∨ typeField data = 4 := by
    have narrow : typeField data < 8 := by
      have byte := (data 0).isLt
      unfold typeField
      omega
    have values : ∀ value < 8, ∀ type : BitVec 3, BitVec.ofNat 3 value = type →
        (type = 1 ∨ type = 2 ∨ type = 4) → (value = 1 ∨ value = 2 ∨ value = 4) := by decide
    exact values _ narrow pkt.type fields.type valid.known
  have dataOnly : ¬ (typeField data ≠ 1 ∧ lengthField data > 0) := by
    rintro ⟨foreign, nonempty⟩
    have type : pkt.type ≠ 1 := by
      intro isData
      have same := fields.type
      rcases known with value | value | value <;> rw [value] at same foreign <;>
        simp_all
    have empty := valid.dataOnly type
    rw [fields.length] at nonempty
    omega
  obtain ⟨status, content⟩ := decode_exact host data (wire host pkt).length prior
    (.inl (wire_bounded host pkt valid.readable bounded))
  have accepted : referenceStatus host data (wire host pkt).length = .pktOk := by
    have trailer : 8 + pkt.length.toNat + paddingOf pkt.length.toNat - 4 =
        4 + pkt.length.toNat + paddingOf pkt.length.toNat := by omega
    have large : ¬ 8 + pkt.length.toNat + paddingOf pkt.length.toNat < 4 := by omega
    have full : ¬ 8 + pkt.length.toNat + paddingOf pkt.length.toNat < 8 := by omega
    have aligned : (8 + pkt.length.toNat + paddingOf pkt.length.toNat) % 4 = 0 := by
      have completed := paddingOf_completes pkt.length.toNat
      omega
    rw [fields.length] at dataOnly
    simp only [referenceStatus, size, fields.length, trailer, fields.covered, fields.crc, aligned,
      large, full, known, dataOnly, Nat.not_lt.mpr bounded, gt_iff_lt, ne_eq, not_true, or_self,
      if_false]
  have exact := content (status.trans accepted)
  have same : parsed data = { pkt with
      payload := some (pkt.body ++ List.replicate (paddingOf pkt.length.toNat) 0)
      crc := host.crc32 (covered pkt) } := by
    simp only [parsed, fields.type, fields.window, fields.seqnum, fields.length, fields.payload,
      fields.crc, BitVec.ofNat_toNat, BitVec.setWidth_eq]
  exact Prod.ext (status.trans accepted) (exact.trans same)

/-- Encoding a valid packet into a buffer with room writes exactly its datagram,
and decoding those bytes recovers the packet.

`encode_exact` gives the bytes in memory as the abstract datagram, `wire_fields` what each
field of it reads as, and `decode_wire` runs the decoder over these fields. -/
theorem decode_undoes_encode (host : Host) (pkt : Pkt) (buf : CharBuf) (capacity : Nat)
    (prior : Pkt) (valid : Valid pkt)
    (room : 8 + pkt.length.toNat + paddingOf pkt.length.toNat ≤ capacity)
    (representable : capacity ≤ 65535) :
    ∃ stored : CharBuf,
      pktEncode host pkt buf capacity =
        .ok (.pktOk, stored, 8 + pkt.length.toNat + paddingOf pkt.length.toNat) ∧
      stored.written = buf.written ++ List.range
        (8 + pkt.length.toNat + paddingOf pkt.length.toNat) ∧
      (∀ i, 8 + pkt.length.toNat + paddingOf pkt.length.toNat ≤ i → stored.mem i = buf.mem i) ∧
      pktDecode host stored.mem (8 + pkt.length.toNat + paddingOf pkt.length.toNat) prior =
        (.pktOk, { pkt with
          payload := some (pkt.body ++ List.replicate (paddingOf pkt.length.toNat) 0)
          crc := host.crc32 (bytesAt stored.mem
            (4 + pkt.length.toNat + paddingOf pkt.length.toNat)) }) := by
  have size := wire_length host pkt valid.readable
  have fits : ¬ capacity % 65536 < (wire host pkt).length := by
    rw [Nat.mod_eq_of_lt (by omega)]
    omega
  have held := holds_storeAll buf (wire host pkt)
  refine ⟨buf.storeAll 0 (wire host pkt), ?_, ?_, ?_, ?_⟩
  · rw [encode_exact host pkt buf capacity valid.readable, if_neg fits, size]
  · rw [storeAll_written, size, List.range_eq_range']
  · intro i outside
    rw [storeAll_mem, size, if_neg (by omega)]
  · rw [(wire_fields host pkt _ valid.readable held).covered, ← size]
    exact decode_wire host pkt valid _ held prior

/-- Three bytes, two of them above 127, and one byte of padding. -/
def highPkt : Pkt := ⟨1, 31, 255, 3, some [0x80, 0xff, 1, 0], 0⟩

/-- It is one the protocol exchanges. -/
theorem highPkt_valid : Valid highPkt where
  known := .inl rfl
  bounded := by decide
  readable := .inr ⟨_, rfl, by decide⟩
  dataOnly foreign := absurd rfl foreign

/-- The round trip of that packet through a buffer of 520 bytes. -/
theorem decode_undoes_encode_high : ∃ stored : CharBuf,
    pktEncode zlibHost highPkt ⟨fun _ => 0xff, []⟩ 520 = .ok (.pktOk, stored, 12) ∧
      stored.written = List.range 12 ∧ (∀ i, 12 ≤ i → stored.mem i = 0xff) ∧
      (pktDecode zlibHost stored.mem 12 blankPkt).2.payload = some [0x80, 0xff, 1, 0] := by
  obtain ⟨stored, encoded, written, outside, decoded⟩ :=
    decode_undoes_encode zlibHost highPkt ⟨fun _ => 0xff, []⟩ 520 blankPkt highPkt_valid (by decide)
      (by decide)
  exact ⟨stored, encoded, written, outside, congrArg (fun pair => pair.2.payload) decoded⟩

end SelectiveRepeat
