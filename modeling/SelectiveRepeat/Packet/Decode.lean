import Mathlib.Tactic.IntervalCases
import SelectiveRepeat.Packet.Structure

/-!
# pkt_decode

`pktDecode` follows the C function statement by statement: `data` is the memory
behind the pointer, `len` the value of the `size_t` argument, and the packet the
prior content of the struct. Words are assembled from promoted chars exactly as
written, so a negative length byte does wipe out the other one.

The reference parser reads the same datagram as unsigned big-endian fields.
`decode_exact` says that the two agree at every length a socket read can return,
for either signedness of `char` and any prior content.
-/

namespace SelectiveRepeat

/-- `ntohs` and `htons` on a little-endian host. -/
def ntohs (x : BitVec 16) : BitVec 16 := (x >>> 8) ||| (x <<< 8)

/-- `ntohl` and `htonl` on a little-endian host. -/
def ntohl (x : BitVec 32) : BitVec 32 :=
  (x >>> 24) ||| ((x >>> 8) &&& 0x0000ff00#32) ||| ((x <<< 8) &&& 0x00ff0000#32) ||| (x <<< 24)

/-- The 16-bit word built from `data[3]` and `data[2]`, before `ntohs`. -/
def lengthWord (host : Host) (high low : Byte) : BitVec 16 :=
  let length : BitVec 16 := (host.promote high).setWidth 16
  let length : BitVec 16 := (length.setWidth 32 <<< 8).setWidth 16
  (length.setWidth 32 ||| host.promote low).setWidth 16

/-- The loop over the CRC bytes, from `i = count - 1` down to `0`. -/
def crcLoop (host : Host) (data : Nat → Byte) : Nat → BitVec 32 → BitVec 32
  | 0, crc => crc
  | i + 1, crc => crcLoop host data i ((crc <<< 8) ||| (0xff#32 &&& host.promote (data i)))

/-- The checks of `pkt_decode` after it has stored the header, in their order, with
the statuses `err` to `err4` of the four setters. -/
def decodeChecks (host : Host) (data : Nat → Byte) (len : Nat)
    (err err2 err3 err4 : PktStatusCode) (pkt : Pkt) : PktStatusCode × Pkt :=
  if len < 8 then (.eUnconsistent, pkt) else
  if len % 4 ≠ 0 then (.eUnconsistent, pkt) else
  if err ≠ .pktOk then (err, pkt) else
  if err2 ≠ .pktOk then (err2, pkt) else
  if err3 ≠ .pktOk then (err3, pkt) else
  if err4 ≠ .pktOk then (err4, pkt) else
  if pktGetType pkt ≠ ptypeData ∧ pktGetType pkt ≠ ptypeAck ∧ pktGetType pkt ≠ ptypeNack then
    (.eType, pkt) else
  if pktGetType pkt ≠ ptypeData ∧ pktGetLength pkt > 0 then (.eUnconsistent, pkt) else
  let padding := paddingOf (pktGetLength pkt)
  if pktGetLength pkt + 8 + padding ≠ len % 65536 then (.eUnconsistent, pkt) else
  let payload := fun i => data (4 + i)
  let (err5, pkt) := pktSetPayload pkt payload pkt.length
  let startcrcbyte := 4 + pktGetLength pkt + padding
  let crc := crcLoop host (fun i => data (startcrcbyte + i)) 4 0
  let (err6, pkt) := pktSetCrc pkt (ntohl crc)
  let thiscrc := host.crc32 (bytesAt data (pktGetLength pkt + 4 + padding))
  if pktGetCrc pkt ≠ thiscrc then (.eCrc, pkt) else
  if err5 ≠ .pktOk then (err5, pkt) else
  if err6 ≠ .pktOk then (err6, pkt) else
  (.pktOk, pkt)

/-- `pkt_decode`, with the packet it leaves behind. -/
def pktDecode (host : Host) (data : Nat → Byte) (len : Nat) (pkt : Pkt) : PktStatusCode × Pkt :=
  if len < 4 then (.eNoheader, pkt) else
  let first := host.promote (data 0)
  let (err, pkt) := pktSetType pkt
      ((0b00000111#32 &&& first.sshiftRight 5).setWidth 8 |>.setWidth 32)
  let (err2, pkt) := pktSetWindow pkt ((0b00011111#32 &&& (first <<< 3).sshiftRight 3).setWidth 8)
  let (err3, pkt) := pktSetSeqnum pkt (data 1)
  let (err4, pkt) := pktSetLength pkt (ntohs (lengthWord host (data 3) (data 2)))
  decodeChecks host data len err err2 err3 err4 pkt

/-! ## The promoted header bytes -/

/-- The promotion to `int` and the arithmetic shift do not reach the type: the mask keeps the
three bits that a byte has, whether `char` is signed or not. -/
theorem promoted_type (host : Host) (b : Byte) :
    (0b00000111#32 &&& (host.promote b).sshiftRight 5).setWidth 8 = b >>> 5 := by
  have all : ∀ (signed : Bool) (b : Byte),
      (0b00000111#32 &&&
        (if signed then b.signExtend 32 else b.setWidth 32).sshiftRight 5).setWidth 8
        = b >>> 5 := by decide +kernel
  exact all host.charSigned b

/-- Nor do they reach the window, whose five bits the two shifts bring back to their place. -/
theorem promoted_window (host : Host) (b : Byte) :
    (0b00011111#32 &&& ((host.promote b) <<< 3).sshiftRight 3).setWidth 8 = b &&& 0x1f#8 := by
  have all : ∀ (signed : Bool) (b : Byte),
      (0b00011111#32 &&&
        ((if signed then b.signExtend 32 else b.setWidth 32) <<< 3).sshiftRight 3).setWidth 8
        = b &&& 0x1f#8 := by decide +kernel
  exact all host.charSigned b

/-- `data[0] << 3` loses no bit of an `int`, so five bits always fit the window. -/
theorem window_fits (b : Byte) :
    ¬ (b &&& 0x1f#8).toNat > maxWindowSize ∧ (b &&& 0x1f#8).setWidth 5 = b.setWidth 5 := by
  revert b
  decide +kernel

/-- Swapping the bytes of a concatenation. -/
theorem ntohs_append (high low : Byte) :
    ntohs (high ++ low : BitVec 16) = (low ++ high : BitVec 16) := by
  apply BitVec.eq_of_getLsbD_eq
  intro i bounded
  simp only [ntohs, BitVec.getLsbD_or, BitVec.getLsbD_ushiftRight, BitVec.getLsbD_shiftLeft,
    BitVec.getLsbD_append]
  by_cases lower : i < 8
  · simp [lower]
  · simp [lower]
    grind

/-- A negative `data[2]` sign-extends over the byte already shifted into place. -/
theorem lengthWord_append (host : Host) (high low : Byte) :
    lengthWord host high low =
      ((if host.charSigned && low.msb then BitVec.allOnes 8 else high) ++ low : BitVec 16) := by
  apply BitVec.eq_of_getLsbD_eq
  intro i bounded
  rw [BitVec.getLsbD_append]
  cases signed : host.charSigned <;> cases negative : low.msb <;> by_cases lower : i < 8 <;>
    simp [lengthWord, Host.promote, signed, negative, lower, BitVec.getLsbD_signExtend,
      -BitVec.reduceAllOnes] <;> grind

/-- The length the decoder compares: exact below 32768, and beyond the maximal
payload size in every case where the sign extension has spoilt it. -/
theorem length_decoded (host : Host) (data : Nat → Byte) :
    (512 < (ntohs (lengthWord host (data 3) (data 2))).toNat ↔
        512 < (data 2 ++ data 3 : BitVec 16).toNat) ∧
      (¬ 512 < (data 2 ++ data 3 : BitVec 16).toNat →
        ntohs (lengthWord host (data 3) (data 2)) = (data 2 ++ data 3 : BitVec 16)) := by
  rw [lengthWord_append, ntohs_append]
  by_cases spoilt : (host.charSigned && (data 2).msb) = true
  · have large : 128 ≤ (data 2).toNat := by
      have negative : (data 2).msb = true := by simp_all
      simpa [BitVec.msb_eq_decide] using negative
    have exceeds (low : Byte) : 512 < (data 2 ++ low : BitVec 16).toNat := by
      rw [BitVec.toNat_append, ← Nat.shiftLeft_add_eq_or_of_lt low.isLt, Nat.shiftLeft_eq]
      omega
    exact ⟨iff_of_true (exceeds _) (exceeds _), fun small => absurd (exceeds _) small⟩
  · simp [spoilt]

/-- The four CRC bytes, most significant first. -/
theorem crc_decoded (host : Host) (data : Nat → Byte) :
    ntohl (crcLoop host data 4 0) = (data 0 ++ data 1 ++ data 2 ++ data 3 : BitVec 32) := by
  have masked (b : Byte) : 0xff#32 &&& host.promote b = b.setWidth 32 := by
    have all : ∀ (signed : Bool) (b : Byte),
        0xff#32 &&& (if signed then b.signExtend 32 else b.setWidth 32) = b.setWidth 32 := by
      decide +kernel
    exact all host.charSigned b
  simp only [crcLoop, masked]
  apply BitVec.eq_of_getLsbD_eq
  intro i bounded
  simp only [ntohl, BitVec.getLsbD_or, BitVec.getLsbD_and, BitVec.getLsbD_ushiftRight,
    BitVec.getLsbD_shiftLeft, BitVec.getLsbD_append, BitVec.getLsbD_setWidth]
  interval_cases i <;> simp

/-! ## The reference parser -/

/-- The three upper bits of the first byte. -/
def typeField (data : Nat → Byte) : Nat := (data 0).toNat / 32

/-- The five lower bits of the first byte. -/
def windowField (data : Nat → Byte) : Nat := (data 0).toNat % 32

/-- The third and the fourth byte, as a big-endian number. -/
def lengthField (data : Nat → Byte) : Nat := 256 * (data 2).toNat + (data 3).toNat

/-- The four bytes from `start` on, as a big-endian word. -/
def crcField (data : Nat → Byte) (start : Nat) : BitVec 32 :=
  data start ++ data (start + 1) ++ data (start + 2) ++ data (start + 3)

/-- The status of a datagram read as unsigned big-endian fields. -/
def referenceStatus (host : Host) (data : Nat → Byte) (len : Nat) : PktStatusCode :=
  let t := typeField data
  let length := lengthField data
  if len < 4 then .eNoheader
  else if len < 8 ∨ len % 4 ≠ 0 then .eUnconsistent
  else if ¬ (t = 1 ∨ t = 2 ∨ t = 4) then .eType
  else if length > 512 then .eLength
  else if (t ≠ 1 ∧ length > 0) ∨ len ≠ 8 + length + paddingOf length then .eUnconsistent
  else if crcField data (len - 4) ≠ host.crc32 (bytesAt data (len - 4)) then .eCrc
  else .pktOk

/-- The status at any length: the size test compares 16 bits of `len`, and the CRC
is looked for where the length field says. -/
def decodedStatus (host : Host) (data : Nat → Byte) (len : Nat) : PktStatusCode :=
  let t := typeField data
  let length := lengthField data
  let size := 4 + length + paddingOf length
  if len < 4 then .eNoheader
  else if len < 8 ∨ len % 4 ≠ 0 then .eUnconsistent
  else if ¬ (t = 1 ∨ t = 2 ∨ t = 4) then .eType
  else if length > 512 then .eLength
  else if (t ≠ 1 ∧ length > 0) ∨ len % 65536 ≠ 4 + size then .eUnconsistent
  else if crcField data size ≠ host.crc32 (bytesAt data size) then .eCrc
  else .pktOk

/-- The packet an accepted datagram describes, whatever the struct held before. -/
def parsed (data : Nat → Byte) : Pkt where
  type := BitVec.ofNat 3 (typeField data)
  window := BitVec.ofNat 5 (windowField data)
  seqnum := data 1
  length := BitVec.ofNat 16 (lengthField data)
  payload := some (bytesAt (fun i => data (4 + i)) (lengthField data) ++
    List.replicate (paddingOf (lengthField data)) 0)
  crc := crcField data (4 + lengthField data + paddingOf (lengthField data))

/-- Two bytes as one big-endian word. -/
theorem length_append (data : Nat → Byte) :
    (data 2 ++ data 3 : BitVec 16).toNat = lengthField data := by
  rw [BitVec.toNat_append, ← Nat.shiftLeft_add_eq_or_of_lt (data 3).isLt, Nat.shiftLeft_eq,
    lengthField]
  omega

/-- `pkt_set_type` on the promoted header bits accepts types 1, 2 and 4 only. -/
theorem type_decoded (data : Nat → Byte) (pkt : Pkt) :
    pktSetType pkt (((data 0) >>> 5).setWidth 32) =
      if typeField data = 1 ∨ typeField data = 2 ∨ typeField data = 4 then
        (.pktOk, { pkt with type := BitVec.ofNat 3 (typeField data) })
      else (.eType, pkt) := by
  have all : ∀ b : Byte, (((b >>> 5).setWidth 32 ≠ ptypeData ∧ (b >>> 5).setWidth 32 ≠ ptypeAck ∧
      (b >>> 5).setWidth 32 ≠ ptypeNack) ↔
        ¬ (b.toNat / 32 = 1 ∨ b.toNat / 32 = 2 ∨ b.toNat / 32 = 4)) ∧
      ((b >>> 5).setWidth 32).setWidth 3 = BitVec.ofNat 3 (b.toNat / 32) := by
    decide +kernel
  simp only [pktSetType, (all (data 0)).2, typeField]
  by_cases known : (data 0).toNat / 32 = 1 ∨ (data 0).toNat / 32 = 2 ∨ (data 0).toNat / 32 = 4
  · rw [if_neg (fun refused => (all (data 0)).1.mp refused known)]
    simp only [known, if_true]
  · rw [if_pos ((all (data 0)).1.mpr known)]
    simp only [known, if_false]

/-- The window of a header has five bits, and `pkt_set_window` refuses none. -/
theorem window_decoded (data : Nat → Byte) (pkt : Pkt) :
    pktSetWindow pkt (data 0 &&& 0x1f#8) =
      (.pktOk, { pkt with window := BitVec.ofNat 5 (windowField data) }) := by
  have all : ∀ b : Byte, b.setWidth 5 = BitVec.ofNat 5 (b.toNat % 32) := by decide +kernel
  simp only [pktSetWindow, (window_fits (data 0)).1, (window_fits (data 0)).2, windowField, all,
    if_false]

/-- `ntohs` of the word assembled from the two length bytes is the big-endian length, and one
above 512 is refused. -/
theorem length_set (host : Host) (data : Nat → Byte) (pkt : Pkt) :
    pktSetLength pkt (ntohs (lengthWord host (data 3) (data 2))) =
      if lengthField data > 512 then (.eLength, pkt)
      else (.pktOk, { pkt with length := BitVec.ofNat 16 (lengthField data) }) := by
  obtain ⟨refused, exact⟩ := length_decoded host data
  rw [length_append] at refused exact
  by_cases large : 512 < lengthField data
  · simp only [pktSetLength, maxPayloadSize, gt_iff_lt, large, refused.mpr large, if_true]
  · have same : (data 2 ++ data 3 : BitVec 16) = BitVec.ofNat 16 (lengthField data) := by
      apply BitVec.eq_of_toNat_eq
      rw [length_append, BitVec.toNat_ofNat, Nat.mod_eq_of_lt (by omega)]
    have small : ¬ 512 < (BitVec.ofNat 16 (lengthField data)).toNat := by
      rw [← same, length_append]
      exact large
    simp only [pktSetLength, maxPayloadSize, gt_iff_lt, large, if_false, exact large, same, small]

/-- The two type tests after the setters agree with the field the packet received. -/
theorem type_tests (data : Nat → Byte)
    (known : typeField data = 1 ∨ typeField data = 2 ∨ typeField data = 4) :
    ((BitVec.ofNat 3 (typeField data)).setWidth 32 = ptypeData ↔ typeField data = 1) ∧
      ((BitVec.ofNat 3 (typeField data)).setWidth 32 = ptypeAck ↔ typeField data = 2) ∧
      ((BitVec.ofNat 3 (typeField data)).setWidth 32 = ptypeNack ↔ typeField data = 4) := by
  rcases known with same | same | same <;> rw [same] <;> decide

/-- The status and, on success, the whole packet are functions of the datagram. -/
theorem decode_status (host : Host) (data : Nat → Byte) (len : Nat) (pkt : Pkt) :
    (pktDecode host data len pkt).1 = decodedStatus host data len ∧
      ((pktDecode host data len pkt).1 = .pktOk → (pktDecode host data len pkt).2 =
        parsed data) := by
  by_cases header : len < 4
  · simp [pktDecode, decodedStatus, header]
  by_cases short : len < 8
  · simp [pktDecode, decodeChecks, decodedStatus, header, short]
  by_cases aligned : len % 4 = 0
  swap
  · simp [pktDecode, decodeChecks, decodedStatus, header, short, aligned]
  simp only [pktDecode, decodeChecks, decodedStatus, header, short, aligned, promoted_type,
    promoted_window, type_decoded, window_decoded, pktSetSeqnum, length_set, if_false]
  by_cases known : typeField data = 1 ∨ typeField data = 2 ∨ typeField data = 4
  swap
  · simp [known]
  by_cases oversize : 512 < lengthField data
  · simp [known, oversize]
  obtain ⟨isData, isAck, isNack⟩ := type_tests data known
  have width : (BitVec.ofNat 16 (lengthField data)).toNat = lengthField data := by
    rw [BitVec.toNat_ofNat, Nat.mod_eq_of_lt (by omega)]
  have noTypeError : ¬ (typeField data ≠ 1 ∧ typeField data ≠ 2 ∧ typeField data ≠ 4) := by tauto
  have order : lengthField data + 4 + paddingOf (lengthField data) =
      4 + lengthField data + paddingOf (lengthField data) := by omega
  have sizes : lengthField data + 8 + paddingOf (lengthField data) = len % 65536 ↔
      len % 65536 = 4 + (4 + lengthField data + paddingOf (lengthField data)) := by omega
  simp only [known, oversize, if_true, if_false, pktGetType, pktGetLength, pktGetCrc, ne_eq,
    not_true, isData, isAck, isNack, width, pktSetPayload, pktSetCrc, maxPayloadSize,
    gt_iff_lt, crc_decoded, noTypeError, or_self, order, sizes]
  by_cases foreign : ¬ typeField data = 1 ∧ 0 < lengthField data
  · simp only [foreign, not_false_eq_true, and_self, true_or, if_true, reduceCtorEq, false_implies]
  by_cases fits : len % 65536 = 4 + (4 + lengthField data + paddingOf (lengthField data))
  swap
  · simp only [foreign, fits, not_false_eq_true, or_true, if_true, if_false, reduceCtorEq,
      false_implies, and_self]
  simp only [foreign, fits, not_true, or_self, if_false]
  by_cases checked : crcField data (4 + lengthField data + paddingOf (lengthField data)) =
      host.crc32 (bytesAt data (4 + lengthField data + paddingOf (lengthField data)))
  · have sum := checked
    simp only [crcField] at sum
    simp [sum, crcField, parsed]
  · have sum := checked
    simp only [crcField] at sum
    simp [sum, crcField]

/-- Every length a socket read can hand to the decoder: at most 520 bytes, or the
`(size_t) -1` of a failed read. -/
def Received (len : Nat) : Prop := len ≤ 520 ∨ len = 2 ^ 64 - 1

/-- At such a length the C decoder is the reference parser. -/
theorem decode_exact (host : Host) (data : Nat → Byte) (len : Nat) (pkt : Pkt)
    (received : Received len) :
    (pktDecode host data len pkt).1 = referenceStatus host data len ∧
      ((pktDecode host data len pkt).1 = .pktOk → (pktDecode host data len pkt).2 =
        parsed data) := by
  obtain ⟨status, content⟩ := decode_status host data len pkt
  refine ⟨status.trans ?_, content⟩
  by_cases misaligned : len < 4 ∨ len < 8 ∨ len % 4 ≠ 0
  · simp only [decodedStatus, referenceStatus]
    by_cases header : len < 4
    · simp only [header, if_true]
    · simp only [header, misaligned.resolve_left header, if_true, if_false]
  have narrow : len % 65536 = len := by
    rcases received with read | failed <;> omega
  simp only [decodedStatus, referenceStatus, narrow]
  by_cases fits : len = 8 + lengthField data + paddingOf (lengthField data)
  · have trailer : len - 4 = 4 + lengthField data + paddingOf (lengthField data) := by omega
    have sizes : len = 4 + (4 + lengthField data + paddingOf (lengthField data)) := by omega
    simp only [trailer, ← sizes, ← fits]
  · have sizes : len ≠ 4 + (4 + lengthField data + paddingOf (lengthField data)) := by omega
    simp only [sizes, fits, ne_eq, not_false_eq_true, or_true, if_true]

/-- What acceptance says about a datagram of any length. -/
structure Accepted (host : Host) (data : Nat → Byte) (len : Nat) : Prop where
  known : typeField data = 1 ∨ typeField data = 2 ∨ typeField data = 4
  bounded : lengthField data ≤ 512
  dataOnly : typeField data ≠ 1 → lengthField data = 0
  size : len % 65536 = 8 + lengthField data + paddingOf (lengthField data)
  crc : crcField data (4 + lengthField data + paddingOf (lengthField data)) =
    host.crc32 (bytesAt data (4 + lengthField data + paddingOf (lengthField data)))

/-- A datagram that decodes without error passed every test of `pkt_decode`; one case for each of
its returns. -/
theorem accepted_of_ok (host : Host) (data : Nat → Byte) (len : Nat) (pkt : Pkt)
    (ok : (pktDecode host data len pkt).1 = .pktOk) : Accepted host data len := by
  rw [(decode_status host data len pkt).1, decodedStatus] at ok
  split_ifs at ok with header misaligned foreign oversize misfit checked
  exact ⟨by tauto, by omega, by intro other; by_contra; exact misfit (.inl ⟨other, by omega⟩),
    by omega, by tauto⟩

/-- Below 65536 bytes the decoder looks at the datagram only, not at what is behind it. -/
theorem decoded_local (host : Host) (data other : Nat → Byte) (len : Nat) (short : len < 65536)
    (same : ∀ i < len, data i = other i) :
    decodedStatus host data len = decodedStatus host other len ∧
      (decodedStatus host data len = .pktOk → parsed data = parsed other) := by
  by_cases header : len < 4
  · simp [decodedStatus, header]
  have types : typeField data = typeField other := by
    simp only [typeField, same 0 (by omega)]
  have windows : windowField data = windowField other := by
    simp only [windowField, same 0 (by omega)]
  have lengths : lengthField data = lengthField other := by
    simp only [lengthField, same 2 (by omega), same 3 (by omega)]
  by_cases fits : len % 65536 =
      4 + (4 + lengthField other + paddingOf (lengthField other))
  swap
  · have refused : decodedStatus host data len ≠ .pktOk := by
      simp only [decodedStatus, lengths]
      split_ifs <;> simp_all
    exact ⟨by simp [decodedStatus, types, lengths, fits], fun accepted => absurd accepted refused⟩
  have bytes (count : Nat) (within : count ≤ len) : bytesAt data count = bytesAt other count := by
    apply List.map_congr_left
    intro i inside
    rw [List.mem_range] at inside
    exact same i (by omega)
  have trailer : crcField data (4 + lengthField other + paddingOf (lengthField other)) =
      crcField other (4 + lengthField other + paddingOf (lengthField other)) := by
    simp only [crcField]
    rw [same _ (by omega), same _ (by omega), same _ (by omega), same _ (by omega)]
  have payload : bytesAt (fun i => data (4 + i)) (lengthField other) =
      bytesAt (fun i => other (4 + i)) (lengthField other) := by
    apply List.map_congr_left
    intro i inside
    rw [List.mem_range] at inside
    exact same (4 + i) (by omega)
  refine ⟨?_, fun _ => ?_⟩
  · simp only [decodedStatus, types, lengths, trailer, bytes _ (show
      4 + lengthField other + paddingOf (lengthField other) ≤ len by omega)]
  · simp only [parsed, types, windows, lengths, trailer, payload, same 1 (by omega)]

/-- Two packets with the same header fields. -/
def SameHeader (one other : Pkt) : Prop :=
  other.type = one.type ∧ other.window = one.window ∧ other.seqnum = one.seqnum ∧
    other.length = one.length

/-- The checks leave the header fields as the setters left them: the payload is
stored with the length the struct already has. -/
theorem checks_header (host : Host) (data : Nat → Byte) (len : Nat)
    (err err2 err3 err4 : PktStatusCode) (pkt : Pkt) :
    SameHeader pkt (decodeChecks host data len err err2 err3 err4 pkt).2 := by
  have unchanged : SameHeader pkt pkt := ⟨rfl, rfl, rfl, rfl⟩
  have stored (payload : Nat → Byte) : SameHeader pkt (pktSetPayload pkt payload pkt.length).2 := by
    unfold pktSetPayload
    split <;> exact ⟨rfl, rfl, rfl, rfl⟩
  have branch (condition : Prop) [Decidable condition] (yes no : PktStatusCode × Pkt)
      (onYes : SameHeader pkt yes.2) (onNo : SameHeader pkt no.2) :
      SameHeader pkt (if condition then yes else no).2 := by
    split
    · exact onYes
    · exact onNo
  unfold decodeChecks
  iterate 9 refine branch _ _ _ unchanged ?_
  refine branch _ _ _ (stored _) ?_
  iterate 2 refine branch _ _ _ (stored _) ?_
  exact stored _

/-- The header fields left in the struct, whatever the status: the setters of the
type and of the length keep the prior value when they refuse the new one. -/
theorem decode_header (host : Host) (data : Nat → Byte) (len : Nat) (pkt : Pkt)
    (header : 4 ≤ len) :
    (pktDecode host data len pkt).2.type =
        (if typeField data = 1 ∨ typeField data = 2 ∨ typeField data = 4
          then BitVec.ofNat 3 (typeField data) else pkt.type) ∧
      (pktDecode host data len pkt).2.window = BitVec.ofNat 5 (windowField data) ∧
      (pktDecode host data len pkt).2.seqnum = data 1 ∧
      (pktDecode host data len pkt).2.length =
        (if lengthField data > 512 then pkt.length else BitVec.ofNat 16 (lengthField data)) := by
  have long : ¬ len < 4 := by omega
  simp only [pktDecode, long, if_false]
  obtain ⟨type, window, seqnum, length⟩ := checks_header host data len _ _ _ _ _
  rw [type, window, seqnum, length]
  simp only [promoted_type, promoted_window, type_decoded, window_decoded, pktSetSeqnum, length_set]
  by_cases known : typeField data = 1 ∨ typeField data = 2 ∨ typeField data = 4 <;>
    by_cases oversize : 512 < lengthField data <;> simp [known, oversize]

end SelectiveRepeat
