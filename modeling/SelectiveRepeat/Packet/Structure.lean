import Mathlib.Logic.Function.Iterate

/-!
# Packets, their setters, and the C values they are made of

The bit-fields of `struct pkt` keep their declared widths, so a packet of the
model is any content the C struct can hold, including what `malloc` leaves in
it. The payload pointer is separate: it is absent until `pkt_set_payload` has
allocated a block, and reading through an absent pointer is a fault rather than
a made-up value.

A host fixes what the sources leave to the platform and to zlib: whether a plain
`char` is signed, and the function `crc32`. Byte order is little-endian, which is
what the conversions of `packet_implem.c` assume to have any effect.
-/

namespace SelectiveRepeat

/-- An octet: `char` and `uint8_t`. -/
abbrev Byte := BitVec 8

/-- Undefined behaviour the C code would run into: a dereference of a pointer
that was never set, or an array access at an index outside the array. -/
inductive Fault where
  | wildPointer
  | outOfRange (index : Int)
  deriving DecidableEq, Repr

/-- A computation of the C code, stopped at its first fault. -/
abbrev Run (α : Type) := Except Fault α

/-- A computation that ends well did so step by step. -/
theorem run_bind {α β : Type} {first : Run α} {next : α → Run β} {result : β}
    (ends : first >>= next = .ok result) :
    ∃ value, first = .ok value ∧ next value = .ok result := by
  cases first with
  | error fault => simp [bind, Except.bind] at ends
  | ok value => exact ⟨value, rfl, ends⟩

/-- The platform: the signedness of plain `char`, and zlib's `crc32(0, ..)`. -/
structure Host where
  charSigned : Bool
  crc32 : List Byte → BitVec 32

/-- Integer promotion of a plain `char` to a 32-bit `int`. -/
def Host.promote (host : Host) (char : Byte) : BitVec 32 :=
  if host.charSigned then char.signExtend 32 else char.setWidth 32

/-- The CRC-32 of zlib: reflected polynomial 0xEDB88320, all ones before and after. -/
def crc32 (bytes : List Byte) : BitVec 32 :=
  let shift (crc : BitVec 32) : BitVec 32 :=
    if crc.getLsbD 0 then (crc >>> 1) ^^^ 0xedb88320#32 else crc >>> 1
  ~~~ bytes.foldl (fun crc byte => shift^[8] (crc ^^^ byte.setWidth 32)) 0xffffffff#32

/-- The standard check value: the CRC-32 of the ASCII digits 1 to 9. -/
example : crc32 [0x31, 0x32, 0x33, 0x34, 0x35, 0x36, 0x37, 0x38, 0x39] = 0xcbf43926#32 := by
  decide +kernel

/-- A host with signed chars and the CRC-32 of zlib. -/
def zlibHost : Host := ⟨true, crc32⟩

/-- `MAX_PAYLOAD_SIZE` and `MAX_WINDOW_SIZE` -/
@[simp] def maxPayloadSize : Nat := 512
@[simp] def maxWindowSize : Nat := 31

/-- `pkt_status_code`, in the order of the header. -/
inductive PktStatusCode where
  | pktOk
  | eType
  | eLength
  | eCrc
  | eWindow
  | eSeqnum
  | ePadding
  | eNomem
  | eNopayload
  | eNoheader
  | eUnconsistent
  deriving DecidableEq, Repr

/-- The enumerators of `ptypes_t`. Its C values are any 32-bit word: decoding
passes unchecked header bits to `pkt_set_type`. -/
def ptypeData : BitVec 32 := 1
def ptypeAck : BitVec 32 := 2
def ptypeNack : BitVec 32 := 4

/-- `struct pkt`. The payload block holds the padding bytes too; `none` is a
pointer that no `pkt_set_payload` has set. -/
structure Pkt where
  type : BitVec 3
  window : BitVec 5
  seqnum : BitVec 8
  length : BitVec 16
  payload : Option (List Byte)
  crc : BitVec 32
  deriving DecidableEq, Repr

/-- What the C runtime leaves open during one pass through a loop body: the content
of the blocks `malloc` hands out and of uninitialised local arrays, in the order in
which they come to be, the seconds that pass before each reading of the clock, and
the seconds an uninitialised `struct timespec` holds. -/
structure Ambient where
  fresh : Nat → Pkt
  junk : Nat → Nat → Byte
  elapsed : Nat → Nat
  stale : Int

/-- `malloc` gives a block of unspecified content, so its payload pointer points
nowhere whatever its bits are. -/
def pktNew (block : Pkt) : Pkt := { block with payload := none }

/-- A block that happens to be all zero. -/
def blankPkt : Pkt := ⟨0, 0, 0, 0, none, 0⟩

/-- All memory is zero and no time passes. -/
def quietAmbient : Ambient := ⟨fun _ => blankPkt, fun _ _ => 0, fun _ => 0, 0⟩

/-- The getters, one for each field. -/
def pktGetType (pkt : Pkt) : BitVec 32 := pkt.type.setWidth 32
def pktGetWindow (pkt : Pkt) : Nat := pkt.window.toNat
def pktGetSeqnum (pkt : Pkt) : Nat := pkt.seqnum.toNat
def pktGetLength (pkt : Pkt) : Nat := pkt.length.toNat
def pktGetCrc (pkt : Pkt) : BitVec 32 := pkt.crc
def pktGetPayload (pkt : Pkt) : Option (List Byte) := pkt.payload

/-- `pkt_set_type` refuses all but the three enumerators, and leaves the packet as it was. -/
def pktSetType (pkt : Pkt) (type : BitVec 32) : PktStatusCode × Pkt :=
  if type ≠ ptypeData ∧ type ≠ ptypeAck ∧ type ≠ ptypeNack then (.eType, pkt)
  else (.pktOk, { pkt with type := type.setWidth 3 })

/-- `pkt_set_window` refuses more than 31. -/
def pktSetWindow (pkt : Pkt) (window : BitVec 8) : PktStatusCode × Pkt :=
  if window.toNat > maxWindowSize then (.eWindow, pkt)
  else (.pktOk, { pkt with window := window.setWidth 5 })

/-- `pkt_set_seqnum` takes any number that a byte holds. -/
def pktSetSeqnum (pkt : Pkt) (seqnum : BitVec 8) : PktStatusCode × Pkt :=
  (.pktOk, { pkt with seqnum := seqnum })

/-- `pkt_set_length` refuses more than 512. -/
def pktSetLength (pkt : Pkt) (length : BitVec 16) : PktStatusCode × Pkt :=
  if length.toNat > maxPayloadSize then (.eLength, pkt)
  else (.pktOk, { pkt with length := length })

/-- `pkt_set_crc` -/
def pktSetCrc (pkt : Pkt) (crc : BitVec 32) : PktStatusCode × Pkt :=
  (.pktOk, { pkt with crc := crc })

/-- The number of null bytes that complete a payload to a multiple of four. -/
def paddingOf (length : Nat) : Nat := if length % 4 ≠ 0 then 4 - length % 4 else 0

/-- There are at most three bytes of padding, -/
theorem paddingOf_lt (length : Nat) : paddingOf length < 4 := by
  unfold paddingOf
  split <;> omega

/-- and with them a payload takes a multiple of four bytes. -/
theorem paddingOf_completes (length : Nat) : (length + paddingOf length) % 4 = 0 := by
  unfold paddingOf
  split <;> omega

/-- The first bytes of a memory area. -/
def bytesAt (data : Nat → Byte) (count : Nat) : List Byte := (List.range count).map data

/-- Both copying loops fill a fresh block of `length + padding` bytes. -/
def pktSetPayload (pkt : Pkt) (data : Nat → Byte) (length : BitVec 16) : PktStatusCode × Pkt :=
  if length.toNat > maxPayloadSize then (.eLength, pkt)
  else
    (.pktOk, { pkt with
      payload := some (bytesAt data length.toNat ++ List.replicate (paddingOf length.toNat) 0)
      length := length })

/-- The payload bytes proper, without the padding. -/
def Pkt.body (pkt : Pkt) : List Byte := (pkt.payload.getD []).take pkt.length.toNat

end SelectiveRepeat
