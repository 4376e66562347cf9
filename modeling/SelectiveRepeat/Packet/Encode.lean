import SelectiveRepeat.Packet.Decode

/-!
# pkt_encode

The destination is a memory area together with the indices stored to so far, so
that a store beyond the capacity of the caller's array stays visible. The
function writes the header, the payload, the padding and the CRC before it
compares `*len` with the size it needed.
-/

namespace SelectiveRepeat

/-- The memory behind a `char *`, with the indices stored to, oldest first. -/
structure CharBuf where
  mem : Nat → Byte
  written : List Nat := []

/-- A store of one byte, recorded with its index. -/
def CharBuf.store (buf : CharBuf) (index : Nat) (value : Byte) : CharBuf where
  mem := fun i => if i = index then value else buf.mem i
  written := buf.written ++ [index]

/-- The loop that copies `remaining` payload bytes from index `i` on. -/
def copyPayload (payload : Option (List Byte)) : Nat → Nat → CharBuf → Run CharBuf
  | 0, _, buf => .ok buf
  | remaining + 1, i, buf =>
    match payload with
    | none => .error .wildPointer
    | some block =>
      match block[i]? with
      | none => .error (.outOfRange i)
      | some byte => copyPayload payload remaining (i + 1) (buf.store (4 + i) byte)

/-- The loop that stores `remaining` null bytes from index `start` on. -/
def storePadding : Nat → Nat → CharBuf → CharBuf
  | 0, _, buf => buf
  | remaining + 1, start, buf => storePadding remaining (start + 1) (buf.store start 0)

/-- `pkt_encode`: the status, the memory behind `buf`, and the final `*len`. -/
def pktEncode (host : Host) (pkt : Pkt) (buf : CharBuf) (len : Nat) :
    Run (PktStatusCode × CharBuf × Nat) := do
  let buf := buf.store 0
    ((host.promote (pkt.type.setWidth 8) <<< 5 ||| host.promote (pkt.window.setWidth 8)).setWidth 8)
  let buf := buf.store 1 pkt.seqnum
  let ordering := ntohs pkt.length
  let buf := buf.store 2 ((ordering &&& 0xff#16).setWidth 8)
  let buf := buf.store 3 ((ordering >>> 8).setWidth 8)
  let buf ← copyPayload pkt.payload (pktGetLength pkt) 0 buf
  let padding := paddingOf (pktGetLength pkt)
  let buf := storePadding padding (4 + pktGetLength pkt) buf
  let crc := ntohl (host.crc32 (bytesAt buf.mem (pktGetLength pkt + 4 + padding)))
  let buf := buf.store (4 + pktGetLength pkt + padding) (crc.setWidth 8)
  let buf := buf.store (5 + pktGetLength pkt + padding) ((crc >>> 8).setWidth 8)
  let buf := buf.store (6 + pktGetLength pkt + padding) ((crc >>> 16).setWidth 8)
  let buf := buf.store (7 + pktGetLength pkt + padding) ((crc >>> 24).setWidth 8)
  if len % 65536 < 8 + pktGetLength pkt + padding then
    return (.eNomem, buf, len)
  return (.pktOk, buf, 8 + pktGetLength pkt + padding)

/-! ## Consecutive stores -/

/-- Store a list of bytes at consecutive indices. -/
def CharBuf.storeAll (buf : CharBuf) (start : Nat) : List Byte → CharBuf
  | [] => buf
  | byte :: rest => (buf.store start byte).storeAll (start + 1) rest

/-- Bytes stored one list after the other are stored as one list. -/
theorem storeAll_append (buf : CharBuf) (start : Nat) (first second : List Byte) :
    buf.storeAll start (first ++ second) =
      (buf.storeAll start first).storeAll (start + first.length) second := by
  induction first generalizing buf start with
  | nil => rfl
  | cons byte rest inductionHypothesis =>
    simp only [List.cons_append, CharBuf.storeAll, inductionHypothesis, List.length_cons]
    rw [Nat.add_right_comm, Nat.add_assoc]

/-- The memory holds the stored bytes at their indices and is unchanged elsewhere. -/
theorem storeAll_mem (buf : CharBuf) (start : Nat) (bytes : List Byte) (i : Nat) :
    (buf.storeAll start bytes).mem i =
      if start ≤ i ∧ i < start + bytes.length then bytes.getD (i - start) 0 else buf.mem i := by
  induction bytes generalizing buf start with
  | nil =>
    simp [CharBuf.storeAll]
  | cons byte rest inductionHypothesis =>
    rw [CharBuf.storeAll, inductionHypothesis, List.length_cons]
    by_cases first : i = start
    · simp [first, CharBuf.store]
    · by_cases later : start + 1 ≤ i ∧ i < start + 1 + rest.length
      · have index : i - start = i - (start + 1) + 1 := by omega
        have inside : start ≤ i ∧ i < start + (rest.length + 1) := by omega
        simp [later, inside, index]
      · have outside : ¬ (start ≤ i ∧ i < start + (rest.length + 1)) := by omega
        simp only [later, outside, if_false, CharBuf.store, first]

/-- The stores are in ascending order, each index once. -/
theorem storeAll_written (buf : CharBuf) (start : Nat) (bytes : List Byte) :
    (buf.storeAll start bytes).written = buf.written ++ List.range' start bytes.length := by
  induction bytes generalizing buf start with
  | nil => simp [CharBuf.storeAll]
  | cons byte rest inductionHypothesis =>
    simp [CharBuf.storeAll, inductionHypothesis, CharBuf.store, List.range'_succ]

/-- What was stored from the beginning on is what is read back. -/
theorem bytesAt_storeAll (buf : CharBuf) (bytes : List Byte) :
    bytesAt (buf.storeAll 0 bytes).mem bytes.length = bytes := by
  apply List.ext_getElem
  · simp [bytesAt]
  · intro i before after
    simp [bytesAt, storeAll_mem, after]

/-- Copying from a block that is long enough stores its bytes behind the header, and reads nothing
outside it. Induction on what remains. -/
theorem copyPayload_exact (block : List Byte) (remaining i : Nat) (buf : CharBuf)
    (stored : i + remaining ≤ block.length) :
    copyPayload (some block) remaining i buf =
      .ok (buf.storeAll (4 + i) ((block.drop i).take remaining)) := by
  induction remaining generalizing i buf with
  | zero => simp [copyPayload, CharBuf.storeAll]
  | succ remaining inductionHypothesis =>
    have present : i < block.length := by omega
    rw [copyPayload, List.getElem?_eq_getElem present]
    simp only
    rw [inductionHypothesis (i + 1) _ (by omega), List.drop_eq_getElem_cons present,
      List.take_succ_cons, CharBuf.storeAll, Nat.add_assoc]

/-- The padding loop stores null bytes. -/
theorem storePadding_exact (remaining start : Nat) (buf : CharBuf) :
    storePadding remaining start buf = buf.storeAll start (List.replicate remaining 0) := by
  induction remaining generalizing start buf with
  | zero => rfl
  | succ remaining inductionHypothesis =>
    rw [storePadding, inductionHypothesis, List.replicate_succ, CharBuf.storeAll]

/-! ## The bytes on the wire -/

/-- A word's bytes, most significant first. -/
def bigEndian (word : BitVec 32) : List Byte :=
  [word.extractLsb' 24 8, word.extractLsb' 16 8, word.extractLsb' 8 8, word.extractLsb' 0 8]

/-- The four header bytes. -/
def header (pkt : Pkt) : List Byte :=
  [pkt.type ++ pkt.window, pkt.seqnum, pkt.length.extractLsb' 8 8, pkt.length.extractLsb' 0 8]

/-- The bytes the CRC covers: header, payload and padding. -/
def covered (pkt : Pkt) : List Byte :=
  header pkt ++ (pkt.body ++ List.replicate (paddingOf pkt.length.toNat) 0)

/-- The datagram of a packet. -/
def wire (host : Host) (pkt : Pkt) : List Byte :=
  covered pkt ++ bigEndian (host.crc32 (covered pkt))

/-- A packet whose payload block holds at least its length. -/
def Readable (pkt : Pkt) : Prop :=
  pkt.length.toNat = 0 ∨ ∃ block, pkt.payload = some block ∧ pkt.length.toNat ≤ block.length

/-- The payload is as long as the packet says. -/
theorem body_length (pkt : Pkt) (readable : Readable pkt) : pkt.body.length = pkt.length.toNat := by
  rcases readable with empty | ⟨block, held, long⟩
  · simp [Pkt.body, empty]
  · simp [Pkt.body, held, long]

/-- A datagram is a header, the payload, its padding to a multiple of four, and a CRC. -/
theorem wire_length (host : Host) (pkt : Pkt) (readable : Readable pkt) :
    (wire host pkt).length = 8 + pkt.length.toNat + paddingOf pkt.length.toNat := by
  simp only [wire, covered, header, bigEndian, List.length_append, List.length_cons,
    List.length_nil, List.length_replicate, body_length pkt readable]
  omega

/-- Every datagram fits the 520 bytes its sender and its receiver provide. -/
theorem wire_bounded (host : Host) (pkt : Pkt) (readable : Readable pkt)
    (bounded : pkt.length.toNat ≤ 512) : (wire host pkt).length ≤ 520 := by
  have padded := paddingOf_lt pkt.length.toNat
  have completed := paddingOf_completes pkt.length.toNat
  rw [wire_length host pkt readable]
  omega

/-- The first byte is the type followed by the window, however `char` is promoted. -/
theorem header_byte (host : Host) (type : BitVec 3) (window : BitVec 5) :
    (host.promote (type.setWidth 8) <<< 5 ||| host.promote (window.setWidth 8)).setWidth 8 =
      (type ++ window : BitVec 8) := by
  have all : ∀ (signed : Bool) (type : BitVec 3) (window : BitVec 5),
      ((if signed then (type.setWidth 8).signExtend 32 else (type.setWidth 8).setWidth 32) <<< 5 |||
        (if signed then (window.setWidth 8).signExtend 32
          else (window.setWidth 8).setWidth 32)).setWidth 8 = (type ++ window : BitVec 8) := by
    decide +kernel
  exact all host.charSigned type window

/-- The bytes of the converted length are its upper and its lower one, in this order. -/
theorem length_bytes (length : BitVec 16) :
    (ntohs length &&& 0xff#16).setWidth 8 = length.extractLsb' 8 8 ∧
      (ntohs length >>> 8).setWidth 8 = length.extractLsb' 0 8 := by
  constructor <;> apply BitVec.eq_of_getLsbD_eq <;> intro i bounded <;>
    interval_cases i <;> simp [ntohs]

/-- The bytes of the converted CRC are those of the word, upper ones first. -/
theorem crc_bytes (crc : BitVec 32) :
    [(ntohl crc).setWidth 8, (ntohl crc >>> 8).setWidth 8, (ntohl crc >>> 16).setWidth 8,
      (ntohl crc >>> 24).setWidth 8] = bigEndian crc := by
  simp only [bigEndian, List.cons.injEq, and_true]
  refine ⟨?_, ?_, ?_, ?_⟩ <;> apply BitVec.eq_of_getLsbD_eq <;> intro i bounded <;>
    interval_cases i <;> simp [ntohl]

/-- The loop over the payload stores the packet's payload; it does not look at the block where the
length is zero. -/
theorem copyPayload_body (pkt : Pkt) (buf : CharBuf) (readable : Readable pkt) :
    copyPayload pkt.payload pkt.length.toNat 0 buf = .ok (buf.storeAll 4 pkt.body) := by
  rcases readable with empty | ⟨block, held, long⟩
  · simp [empty, copyPayload, Pkt.body, CharBuf.storeAll]
  · rw [held, copyPayload_exact block _ 0 buf (by omega)]
    simp [Pkt.body, held]

/-- Every readable packet is stored as its datagram from index 0 on, whatever the
capacity: the comparison with `*len` comes after the stores. -/
theorem encode_exact (host : Host) (pkt : Pkt) (buf : CharBuf) (len : Nat)
    (readable : Readable pkt) :
    pktEncode host pkt buf len =
      .ok (if len % 65536 < (wire host pkt).length
        then (.eNomem, buf.storeAll 0 (wire host pkt), len)
        else (.pktOk, buf.storeAll 0 (wire host pkt), (wire host pkt).length)) := by
  have bodyLength := body_length pkt readable
  have coveredLength : (covered pkt).length =
      4 + pkt.length.toNat + paddingOf pkt.length.toNat := by
    simp only [covered, header, List.length_append, List.length_cons, List.length_nil,
      List.length_replicate, bodyLength]
    omega
  -- the buffer when the CRC is computed holds exactly the covered bytes
  have filled : storePadding (paddingOf pkt.length.toNat) (4 + pkt.length.toNat)
      ((buf.storeAll 0 (header pkt)).storeAll 4 pkt.body) = buf.storeAll 0 (covered pkt) := by
    rw [storePadding_exact, covered, storeAll_append, storeAll_append, bodyLength]
    rfl
  have summed : bytesAt (buf.storeAll 0 (covered pkt)).mem
      (pkt.length.toNat + 4 + paddingOf pkt.length.toNat) = covered pkt := by
    rw [show pkt.length.toNat + 4 + paddingOf pkt.length.toNat = (covered pkt).length by omega]
    exact bytesAt_storeAll buf (covered pkt)
  have trailer (crc : BitVec 32) : ((((buf.storeAll 0 (covered pkt)).store
        (4 + pkt.length.toNat + paddingOf pkt.length.toNat) ((ntohl crc).setWidth 8)).store
        (5 + pkt.length.toNat + paddingOf pkt.length.toNat) ((ntohl crc >>> 8).setWidth 8)).store
        (6 + pkt.length.toNat + paddingOf pkt.length.toNat) ((ntohl crc >>> 16).setWidth 8)).store
        (7 + pkt.length.toNat + paddingOf pkt.length.toNat) ((ntohl crc >>> 24).setWidth 8) =
      buf.storeAll 0 (covered pkt ++ bigEndian crc) := by
    have second (n : Nat) : 4 + n + paddingOf n + 1 = 5 + n + paddingOf n := by omega
    have third (n : Nat) : 5 + n + paddingOf n + 1 = 6 + n + paddingOf n := by omega
    have fourth (n : Nat) : 6 + n + paddingOf n + 1 = 7 + n + paddingOf n := by omega
    rw [storeAll_append, ← crc_bytes, coveredLength]
    simp only [CharBuf.storeAll, Nat.zero_add, second, third, fourth]
  have size : 8 + pkt.length.toNat + paddingOf pkt.length.toNat = (wire host pkt).length :=
    (wire_length host pkt readable).symm
  have headed : (((buf.store 0 ((host.promote (pkt.type.setWidth 8) <<< 5 |||
      host.promote (pkt.window.setWidth 8)).setWidth 8)).store 1 pkt.seqnum).store 2
      ((ntohs pkt.length &&& 0xff#16).setWidth 8)).store 3 ((ntohs pkt.length >>> 8).setWidth 8) =
      buf.storeAll 0 (header pkt) := by
    rw [header_byte, (length_bytes pkt.length).1, (length_bytes pkt.length).2]
    rfl
  simp only [pktEncode, headed, pktGetLength, copyPayload_body pkt _ readable]
  simp only [bind, Except.bind, filled, summed, trailer, size]
  rw [← wire]
  split <;> rfl

end SelectiveRepeat
