import SelectiveRepeat.Packet.RoundTrip

/-!
# Which accepted datagrams are canonical

Encoding a decoded packet restores the header, the payload and, when the bytes
before it agree, the CRC. The padding is not restored: `pkt_decode` never looks
at the padding bytes it received, and `pkt_encode` writes zeros. An accepted
datagram is reproduced exactly when its padding is null. `E_PADDING` is declared
in the interface for this check and returned nowhere.
-/

namespace SelectiveRepeat

/-- The bytes between the payload and the CRC are null. -/
def NullPadding (data : Nat → Byte) : Prop :=
  ∀ i < paddingOf (lengthField data), data (4 + lengthField data + i) = 0

/-- Encoding `pkt` into any buffer that is large enough for it gives back the
datagram of `len` bytes at `data`. -/
def Reproduces (host : Host) (data : Nat → Byte) (len : Nat) (pkt : Pkt) : Prop :=
  ∀ (buf : CharBuf) (capacity : Nat),
    8 + pkt.length.toNat + paddingOf pkt.length.toNat ≤ capacity → capacity ≤ 65535 →
    ∃ stored : CharBuf, pktEncode host pkt buf capacity = .ok (.pktOk, stored, len) ∧
      bytesAt stored.mem len = bytesAt data len

/-- A length of at most 512 fits into the field of 16 bits. -/
theorem parsed_length (data : Nat → Byte) (bounded : lengthField data ≤ 512) :
    (parsed data).length.toNat = lengthField data := by
  simp only [parsed, BitVec.toNat_ofNat]
  exact Nat.mod_eq_of_lt (by omega)

/-- The payload of a parsed packet is the bytes behind the header. -/
theorem parsed_body (data : Nat → Byte) (bounded : lengthField data ≤ 512) :
    (parsed data).body = bytesAt (fun i => data (4 + i)) (lengthField data) := by
  have width : (bytesAt (fun i => data (4 + i)) (lengthField data)).length = lengthField data := by
    simp [bytesAt]
  rw [Pkt.body, parsed_length data bounded]
  simp only [parsed, Option.getD_some]
  rw [List.take_append_of_le_length (by omega), List.take_of_length_le (by omega)]

/-- A parsed packet has a block that is as long as its length says. -/
theorem parsed_readable (data : Nat → Byte) (bounded : lengthField data ≤ 512) :
    Readable (parsed data) := by
  refine .inr ⟨_, rfl, ?_⟩
  rw [parsed_length data bounded]
  simp [bytesAt]

/-- The header of a parsed packet is the header it was parsed from. -/
theorem parsed_header (data : Nat → Byte) (bounded : lengthField data ≤ 512) :
    header (parsed data) = bytesAt data 4 := by
  have joined : ∀ b : Byte,
      (BitVec.ofNat 3 (b.toNat / 32) ++ BitVec.ofNat 5 (b.toNat % 32) : Byte) = b := by
    decide +kernel
  have word : (parsed data).length = (data 2 ++ data 3 : BitVec 16) := by
    apply BitVec.eq_of_toNat_eq
    rw [parsed_length data bounded, length_append]
  have bytes (high low : Byte) : (high ++ low : BitVec 16).extractLsb' 8 8 = high ∧
      (high ++ low : BitVec 16).extractLsb' 0 8 = low := by
    constructor <;> apply BitVec.eq_of_getLsbD_eq <;> intro i inside <;>
      simp only [BitVec.getLsbD_append, BitVec.getLsbD_extractLsb'] <;> interval_cases i <;> simp
  simp only [header, word, (bytes (data 2) (data 3)).1, (bytes (data 2) (data 3)).2]
  simp only [parsed, typeField, windowField, joined]
  rfl

/-- Without null padding the datagram is not what the parsed packet encodes to. -/
theorem wire_parsed (host : Host) (data : Nat → Byte) (bounded : lengthField data ≤ 512)
    (crc : crcField data (4 + lengthField data + paddingOf (lengthField data)) =
      host.crc32 (bytesAt data (4 + lengthField data + paddingOf (lengthField data)))) :
    wire host (parsed data) =
        bytesAt data (8 + lengthField data + paddingOf (lengthField data)) ↔ NullPadding data := by
  have zeros : List.replicate (paddingOf (lengthField data)) 0 =
      bytesAt (fun i => data (4 + lengthField data + i)) (paddingOf (lengthField data)) ↔
        NullPadding data := by
    rw [eq_comm, List.eq_replicate_iff]
    simp [bytesAt, NullPadding]
  have front : bytesAt data (4 + lengthField data + paddingOf (lengthField data)) =
      header (parsed data) ++ ((parsed data).body ++
        bytesAt (fun i => data (4 + lengthField data + i)) (paddingOf (lengthField data))) := by
    rw [bytesAt_add, bytesAt_add, parsed_header data bounded, parsed_body data bounded,
      List.append_assoc]
  have whole : bytesAt data (8 + lengthField data + paddingOf (lengthField data)) =
      bytesAt data (4 + lengthField data + paddingOf (lengthField data)) ++
        bytesAt (fun i => data (4 + lengthField data + paddingOf (lengthField data) + i)) 4 := by
    rw [← bytesAt_add]
    congr 1
    omega
  rw [whole, ← bigEndian_crcField, crc, front, ← zeros, wire, covered, parsed_length data bounded]
  constructor
  · intro same
    have parts := (List.append_inj same (by simp [bytesAt])).1
    exact List.append_cancel_left (List.append_cancel_left parts)
  · intro same
    rw [same]

/-- The packet parsed from an accepted datagram is encoded back to it exactly when
the padding is null and the size fits the 16 bits the decoder compares. -/
theorem reproduces_parsed (host : Host) (data : Nat → Byte) (len : Nat)
    (accepted : Accepted host data len) :
    Reproduces host data len (parsed data) ↔ len ≤ 65535 ∧ NullPadding data := by
  have bounded := accepted.bounded
  have padded := paddingOf_lt (lengthField data)
  have readable := parsed_readable data bounded
  have size := wire_length host (parsed data) readable
  rw [parsed_length data bounded] at size
  rw [← wire_parsed host data bounded accepted.crc, Reproduces, parsed_length data bounded]
  constructor
  · intro reproduced
    obtain ⟨stored, encoded, same⟩ := reproduced ⟨fun _ => 0, []⟩
      (8 + lengthField data + paddingOf (lengthField data)) (Nat.le_refl _) (by omega)
    rw [encode_exact host _ _ _ readable, if_neg (by rw [size, Nat.mod_eq_of_lt (by omega)]; omega)]
      at encoded
    simp only [Except.ok.injEq, Prod.mk.injEq, true_and] at encoded
    obtain ⟨rfl, rfl⟩ := encoded
    refine ⟨by omega, ?_⟩
    rw [bytesAt_storeAll, size] at same
    exact same
  · rintro ⟨small, same⟩ buf capacity room representable
    have exactSize : len = (wire host (parsed data)).length := by
      rw [size, ← accepted.size, Nat.mod_eq_of_lt (by omega)]
    refine ⟨buf.storeAll 0 (wire host (parsed data)), ?_, ?_⟩
    · rw [encode_exact host _ _ _ readable,
        if_neg (by rw [size, Nat.mod_eq_of_lt (by omega)]; omega), exactSize]
    · rw [exactSize, bytesAt_storeAll, size]
      exact same

/-- Encoding the packet decoded from an accepted datagram reproduces the datagram
exactly when its padding bytes are null and it is no longer than 65535 bytes.

Where decoding succeeds the packet is the parsed one, so that the question is whether the
parsed packet's datagram is the given string. All of it is, but the padding, which is
written as null bytes, and what a length above 65535 leaves behind the part that was
looked at. -/
theorem canonical_iff_null_padding (host : Host) (data : Nat → Byte) (len : Nat) (prior : Pkt)
    (ok : (pktDecode host data len prior).1 = .pktOk) :
    Reproduces host data len (pktDecode host data len prior).2 ↔
      len ≤ 65535 ∧ NullPadding data := by
  rw [(decode_status host data len prior).2 ok]
  exact reproduces_parsed host data len (accepted_of_ok host data len prior ok)

/-- A DATA datagram with one payload byte and the padding 1, 0, 0. -/
def dirtyPadding : List Byte :=
  [0x20, 0, 0, 1, 0x61, 1, 0, 0] ++ bigEndian (crc32 [0x20, 0, 0, 1, 0x61, 1, 0, 0])

/-- It is accepted: the CRC covers the padding, and nothing else looks at it. -/
theorem dirty_padding_accepted :
    (pktDecode zlibHost (fun i => (dirtyPadding[i]?).getD 0) 12 blankPkt).1 = .pktOk := by
  decide +kernel

/-- Not every accepted datagram is reproduced. -/
theorem dirty_padding_not_reproduced :
    ¬ ∀ (data : Nat → Byte) (len : Nat) (prior : Pkt),
      (pktDecode zlibHost data len prior).1 = .pktOk →
      Reproduces zlibHost data len (pktDecode zlibHost data len prior).2 := by
  intro canonical
  have ok := dirty_padding_accepted
  have reproduced := canonical _ _ _ ok
  rw [(decode_status zlibHost _ _ _).2 ok] at reproduced
  have null := ((reproduces_parsed zlibHost _ _ (accepted_of_ok zlibHost _ _ _ ok)).mp reproduced).2
  exact absurd (null 0 (by decide +kernel)) (by decide +kernel)

/-- The last theorem at that datagram. -/
theorem dirty_padding_case :
    Reproduces zlibHost (fun i => (dirtyPadding[i]?).getD 0) 12
        (pktDecode zlibHost (fun i => (dirtyPadding[i]?).getD 0) 12 blankPkt).2 ↔
      12 ≤ 65535 ∧ NullPadding (fun i => (dirtyPadding[i]?).getD 0) :=
  canonical_iff_null_padding zlibHost _ 12 blankPkt dirty_padding_accepted

end SelectiveRepeat
