import SelectiveRepeat.Library.SingleChanges
import SelectiveRepeat.Packet.RoundTrip

/-!
# Damaged datagrams

A datagram of a valid packet can be cut, have bytes appended, or have one byte
changed on its way. The size test refuses the first two: the length field is still
the one of the packet, so only the original size fits it. For the third, what the
decoder accepts ends in the CRC of all that comes before its last four bytes,
wherever it looked for them; two such strings cannot differ in one byte only.

The second argument needs of `crc32` that it tells strings apart which differ in one
byte. The CRC-32 of zlib does: its step is injective in the register and in the byte.
-/

namespace SelectiveRepeat

open SingleChanges

/-! ## The CRC-32 of zlib -/

/-- One step of the shift register. The polynomial has its highest bit set, so the bit
that was shifted out can be read off the result. -/
theorem crc_shift_injective :
    Function.Injective (fun crc : BitVec 32 =>
      if crc.getLsbD 0 then (crc >>> 1) ^^^ 0xedb88320#32 else crc >>> 1) := by
  have highest (crc : BitVec 32) :
      ((if crc.getLsbD 0 then (crc >>> 1) ^^^ 0xedb88320#32 else crc >>> 1)).getLsbD 31 =
        crc.getLsbD 0 := by
    cases low : crc.getLsbD 0 <;> simp
  have shifted {one other : BitVec 32} (low : one.getLsbD 0 = other.getLsbD 0)
      (same : one >>> 1 = other >>> 1) : one = other := by
    apply BitVec.eq_of_getLsbD_eq
    intro i bounded
    cases i with
    | zero => exact low
    | succ i =>
      have bit := congrArg (fun word => word.getLsbD i) same
      simpa [BitVec.getLsbD_ushiftRight, Nat.add_comm] using bit
  intro one other same
  have low : one.getLsbD 0 = other.getLsbD 0 := by
    rw [← highest one, ← highest other]
    exact congrArg (fun word => word.getLsbD 31) same
  apply shifted low
  dsimp only at same
  rw [low] at same
  split at same
  · exact (BitVec.xor_left_inj _).mp same
  · exact same

/-- Two strings that differ in exactly one byte have different CRC-32 values. -/
theorem crc32_detects : Detects crc32 := by
  apply detects_comp (fun register : BitVec 32 => ~~~ register)
  · intro one other same
    exact BitVec.not_inj.mp same
  · apply foldl_detects
    · intro byte one other same
      have registers := crc_shift_injective.iterate 8 same
      exact (BitVec.xor_left_inj _).mp registers
    · intro register one other same
      have registers := crc_shift_injective.iterate 8 same
      have wide := (BitVec.xor_right_inj _).mp registers
      have values := congrArg BitVec.toNat wide
      have small := one.isLt
      have smaller := other.isLt
      rw [BitVec.toNat_setWidth, BitVec.toNat_setWidth, Nat.mod_eq_of_lt (by omega),
        Nat.mod_eq_of_lt (by omega)] at values
      exact BitVec.eq_of_toNat_eq values

/-! ## Sealed strings -/

/-- The last four bytes are the CRC of the others. -/
def Sealed (host : Host) (bytes : List Byte) : Prop :=
  ∃ content, bytes = content ++ bigEndian (host.crc32 content)

/-- What `pkt_encode` writes ends with the CRC of what comes before. -/
theorem wire_sealed (host : Host) (pkt : Pkt) : Sealed host (wire host pkt) := ⟨covered pkt, rfl⟩

/-- Different words are written as different bytes. -/
theorem bigEndian_injective : Function.Injective bigEndian := by
  intro one other same
  simp only [bigEndian, List.cons.injEq, and_true] at same
  rw [← bigEndian_append one, ← bigEndian_append other, same.1, same.2.1, same.2.2.1, same.2.2.2]

/-- What the decoder accepts is sealed, if it is shorter than 65536 bytes. -/
theorem accepted_sealed (host : Host) (data : Nat → Byte) (bytes : List Byte)
    (held : Holds data bytes) (short : bytes.length < 65536)
    (accepted : Accepted host data bytes.length) : Sealed host bytes := by
  have size := accepted.size
  rw [Nat.mod_eq_of_lt short] at size
  have split : bytes.length = 4 + lengthField data + paddingOf (lengthField data) + 4 := by omega
  refine ⟨bytesAt data (4 + lengthField data + paddingOf (lengthField data)), ?_⟩
  rw [← accepted.crc, bigEndian_crcField, ← bytesAt_add, ← split]
  exact held.symm

/-- Two sealed strings never differ in one byte only: either their contents do, and
then their CRCs differ as well, or only their CRCs do, which the contents determine. -/
theorem sealed_apart (host : Host) (detects : Detects host.crc32) {one other : List Byte}
    (first : Sealed host one) (second : Sealed host other) : ¬ OneChanged one other := by
  intro changed
  obtain ⟨content, rfl⟩ := first
  obtain ⟨otherContent, rfl⟩ := second
  have sizes : content.length = otherContent.length := by
    simpa [bigEndian] using changed.length
  rcases changed.split content.length with ⟨contents, trailers⟩ | ⟨contents, trailers⟩
  · rw [List.take_left, sizes, List.take_left] at contents
    rw [List.drop_left, sizes, List.drop_left] at trailers
    exact detects _ _ contents (bigEndian_injective trailers)
  · rw [List.take_left, sizes, List.take_left] at contents
    rw [List.drop_left, sizes, List.drop_left, contents] at trailers
    exact not_oneChanged_self _ trailers

/-! ## Damage -/

/-- The ways a datagram may be damaged. -/
inductive Damaged (datagram : List Byte) : List Byte → Prop where
  | cut (count : Nat) (shorter : count < datagram.length) : Damaged datagram (datagram.take count)
  | extended (more : List Byte) (nonempty : more ≠ []) (fits : (datagram ++ more).length ≤ 520) :
      Damaged datagram (datagram ++ more)
  | altered (bytes : List Byte) (changed : OneChanged datagram bytes) : Damaged datagram bytes

/-- A byte of memory that holds a list is the list's byte at that place. -/
theorem holds_byte {data : Nat → Byte} {bytes : List Byte} (held : Holds data bytes) {i : Nat}
    (inside : i < bytes.length) : data i = bytes[i] := by
  have same : (bytesAt data bytes.length)[i]? = bytes[i]? := by
    rw [show bytesAt data bytes.length = bytes from held]
  simpa [bytesAt, inside] using same

/-- The length field of an intact header is that of the packet, whatever follows. -/
theorem length_of_cut (host : Host) (pkt : Pkt) (readable : Readable pkt) (data : Nat → Byte)
    (count : Nat) (header : 4 ≤ count)
    (held : Holds data ((wire host pkt).take count)) : lengthField data = pkt.length.toNat := by
  have size := wire_length host pkt readable
  have whole := wire_fields host pkt _ readable (holds_getElem (wire host pkt) data)
  have byte (i : Nat) (early : i < 4) :
      data i = (((wire host pkt)[i]?).getD (data i)) := by
    have inside : i < ((wire host pkt).take count).length := by
      rw [List.length_take]
      omega
    have within : i < (wire host pkt).length := by omega
    rw [holds_byte held inside, List.getElem_take, List.getElem?_eq_getElem within,
      Option.getD_some]
  rw [← whole.length, lengthField, lengthField, ← byte 2 (by decide), ← byte 3 (by decide)]

/-- No damage to the bytes `pkt_encode` wrote for a valid packet leaves them acceptable,
if `crc32` tells strings apart that differ in one byte.

A cut or an extension leaves the length field as it was, if it is there at all, so that
the length test fails. After a change of one byte the string would have to end with its
own CRC again, as the datagram does, which a CRC that detects such a change rules out. -/
theorem damaged_never_accepted (host : Host) (detects : Detects host.crc32) (pkt : Pkt)
    (valid : Valid pkt) (buf stored : CharBuf) (capacity size : Nat)
    (encoded : pktEncode host pkt buf capacity = .ok (.pktOk, stored, size))
    (bytes : List Byte) (damaged : Damaged (bytesAt stored.mem size) bytes)
    (data : Nat → Byte) (held : Holds data bytes) (prior : Pkt) :
    (pktDecode host data bytes.length prior).1 ≠ .pktOk := by
  have datagram : bytesAt stored.mem size = wire host pkt := by
    rw [encode_exact host pkt buf capacity valid.readable] at encoded
    split at encoded
    · simp at encoded
    · obtain ⟨rfl, rfl⟩ : buf.storeAll 0 (wire host pkt) = stored ∧
          (wire host pkt).length = size := by simpa using encoded
      exact bytesAt_storeAll buf (wire host pkt)
  rw [datagram] at damaged
  have whole := wire_length host pkt valid.readable
  have padded := paddingOf_lt pkt.length.toNat
  have bounded := valid.bounded
  intro ok
  have accepted := accepted_of_ok host data bytes.length prior ok
  have size := accepted.size
  cases damaged with
  | cut count shorter =>
    rw [List.length_take_of_le (Nat.le_of_lt shorter), Nat.mod_eq_of_lt (by omega)] at size
    rw [length_of_cut host pkt valid.readable data count (by omega) held] at size
    omega
  | extended more nonempty fits =>
    have front := ((holds_append data _ _).mp held).1
    rw [← List.take_length (l := wire host pkt)] at front
    rw [length_of_cut host pkt valid.readable data _ (by omega) front] at size
    have positive := List.length_pos_of_ne_nil nonempty
    rw [Nat.mod_eq_of_lt (by omega), List.length_append] at size
    omega
  | altered bytes changed =>
    have short : bytes.length < 65536 := by
      rw [← changed.length]
      omega
    have isSealed := accepted_sealed host data bytes held short accepted
    exact sealed_apart host detects (wire_sealed host pkt) isSealed changed

/-- Over zlib's CRC-32: the first payload byte of a datagram of twelve, 80 before, is 81. -/
theorem damaged_payload_rejected :
    (pktDecode zlibHost (fun i => (((wire zlibHost highPkt).set 4 0x81)[i]?).getD 0) 12
      blankPkt).1 ≠ .pktOk := by
  have size : (wire zlibHost highPkt).length = 12 := wire_length _ _ highPkt_valid.readable
  have encoded := encode_exact zlibHost highPkt ⟨fun _ => 0, []⟩ 520 highPkt_valid.readable
  rw [if_neg (by rw [size]; decide)] at encoded
  have changed : OneChanged (wire zlibHost highPkt) ((wire zlibHost highPkt).set 4 0x81) :=
    ⟨(wire zlibHost highPkt).take 4, 0x80, 0x81, (wire zlibHost highPkt).drop 5, by decide,
      by decide +kernel, by decide +kernel⟩
  have rejected := damaged_never_accepted zlibHost crc32_detects highPkt highPkt_valid _ _ _ _
    encoded ((wire zlibHost highPkt).set 4 0x81)
    (.altered _ (by rw [bytesAt_storeAll]; exact changed)) _ (holds_getElem _ fun _ => 0) blankPkt
  rwa [List.length_set, size] at rejected

end SelectiveRepeat
