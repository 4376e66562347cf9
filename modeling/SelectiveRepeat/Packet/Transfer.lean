import SelectiveRepeat.Packet.RoundTrip

/-!
# Datagrams through read and write

A `read` of at most `size` bytes replaces the front of an array and leaves stale
bytes behind it; a failed one leaves all of it and returns -1, which the callers pass
to `pkt_decode` as a `size_t`. A `write` takes the front of an array.
-/

namespace SelectiveRepeat

/-- `write(fd, data, length)` of a datagram in memory. -/
def written (buffer : CharBuf) (length : Nat) : List Byte := bytesAt buffer.mem length

/-- `read(fd, buffer, size)`: the bytes that fit replace the front of the
buffer, the rest of it is stale. A failed read leaves it alone. -/
def readInto (size : Nat) (result : Option (List Byte)) (buffer : Nat → Byte) : Nat → Byte :=
  match result with
  | none => buffer
  | some sdu => fun i => ((sdu.take size)[i]?).getD (buffer i)

/-- The value of `read`: the number of bytes, or -1. -/
def readSize (size : Nat) (result : Option (List Byte)) : Int :=
  match result with
  | none => -1
  | some sdu => (sdu.take size).length

/-- Conversion of a read size to `size_t`. -/
def asSize (size : Int) : Nat := (size % (2 ^ 64)).toNat

/-- A complete read starts with the datagram, whatever is behind it. -/
theorem holds_read (size : Nat) (datagram : List Byte) (buffer : Nat → Byte)
    (fits : datagram.length ≤ size) : Holds (readInto size (some datagram) buffer) datagram := by
  rw [readInto, List.take_of_length_le fits]
  exact holds_getElem datagram buffer

/-- A datagram that fits into the buffer is read whole, and its size survives the conversion to
`size_t`. -/
theorem asSize_read (size : Nat) (datagram : List Byte) (fits : datagram.length ≤ size)
    (small : datagram.length < 2 ^ 64) :
    asSize (readSize size (some datagram)) = datagram.length := by
  simp only [readSize, List.take_of_length_le fits, asSize]
  omega

/-- The sequence that sends a packet everywhere: encode it into a local array of
`capacity` bytes, then write as many bytes as `pkt_encode` reports. -/
def transmit (host : Host) (pkt : Pkt) (data : CharBuf) (capacity : Nat) : Run (List Byte) := do
  let (_, data, size) ← pktEncode host pkt data capacity
  return written data size

/-- With room for it, what is written is the datagram of the packet. -/
theorem transmit_exact (host : Host) (pkt : Pkt) (data : CharBuf) (capacity : Nat)
    (readable : Readable pkt) (room : (wire host pkt).length ≤ capacity)
    (representable : capacity < 65536) :
    transmit host pkt data capacity = .ok (wire host pkt) := by
  rw [transmit, encode_exact host pkt data capacity readable,
    if_neg (by rw [Nat.mod_eq_of_lt representable]; omega)]
  simp only [bind, Except.bind, pure, Except.pure, written, bytesAt_storeAll]

end SelectiveRepeat
