import SelectiveRepeat.Packet.RoundTrip

/-!
# Acknowledgement datagrams

Positive and negative acknowledgements are packets without a payload: a type, a
number and an advertised window. Their datagrams have 8 bytes, and whoever decodes
one into any memory and any struct reads the three values back.
-/

namespace SelectiveRepeat

/-- The packet an answer decodes to, without its CRC. -/
def answerPkt (type : BitVec 3) (number window : Nat) : Pkt where
  type := type
  window := BitVec.ofNat 5 window
  seqnum := BitVec.ofNat 8 number
  length := 0
  payload := none
  crc := 0

/-- The datagram of an acknowledgement of all packets before `number`. -/
def ackDatagram (host : Host) (number window : Nat) : List Byte :=
  wire host (answerPkt 2 number window)

/-- The datagram of a negative acknowledgement of packet `number`. -/
def nackDatagram (host : Host) (number window : Nat) : List Byte :=
  wire host (answerPkt 4 number window)

/-- An answer is a packet the protocol exchanges: of a known type, without payload. -/
theorem answer_valid (type : BitVec 3) (number window : Nat) (known : type = 2 ∨ type = 4) :
    Valid (answerPkt type number window) where
  known := .inr known
  bounded := by simp [answerPkt]
  dataOnly := fun _ => rfl
  readable := .inl rfl

/-- An answer takes the eight bytes of header and CRC. -/
theorem answer_length (host : Host) (type : BitVec 3) (number window : Nat) :
    (wire host (answerPkt type number window)).length = 8 := by
  rw [wire_length host _ (.inl rfl)]
  rfl

/-- The sent bytes depend on the header alone when there is no payload. -/
theorem wire_congr (host : Host) (one other : Pkt) (same : SameHeader one other)
    (empty : one.length.toNat = 0) : wire host other = wire host one := by
  obtain ⟨type, window, seqnum, length⟩ := same
  simp only [wire, covered, header, Pkt.body, type, window, seqnum, length, empty, List.take_zero]

/-- The peer accepts an answer and reads its type, window and number from it. -/
theorem decode_answer (host : Host) (type : BitVec 3) (number window : Nat)
    (known : type = 2 ∨ type = 4) (data : Nat → Byte)
    (held : Holds data (wire host (answerPkt type number window))) (prior : Pkt) :
    ∃ pkt : Pkt, pktDecode host data 8 prior = (.pktOk, pkt) ∧ pkt.type = type ∧
      pkt.window = BitVec.ofNat 5 window ∧ pkt.seqnum = BitVec.ofNat 8 number := by
  have decoded := decode_wire host _ (answer_valid type number window known) data held prior
  rw [answer_length] at decoded
  exact ⟨_, decoded, rfl, rfl, rfl⟩

/-- The peer that reads this datagram gets PKT_OK, and these three values. -/
def Announces (host : Host) (datagram : List Byte) (type : BitVec 32)
    (number window : Nat) : Prop :=
  datagram.length = 8 ∧ ∀ (data : Nat → Byte) (prior : Pkt), Holds data datagram →
    ∃ pkt, pktDecode host data 8 prior = (.pktOk, pkt) ∧ pktGetType pkt = type ∧
      pktGetSeqnum pkt = number ∧ pktGetWindow pkt = window

/-- What `pkt_decode` reads from an answer is the type, number and window it was built with. The
number is stored modulo 256; the window needs its five bits only. -/
theorem announces_answer (host : Host) (type : BitVec 3) (number window : Nat)
    (known : type = 2 ∨ type = 4) (bounded : window ≤ 31) :
    Announces host (wire host (answerPkt type number window)) (type.setWidth 32) (number % 256)
      window := by
  refine ⟨answer_length host type number window, ?_⟩
  intro data prior held
  obtain ⟨pkt, decoded, typed, windowed, numbered⟩ :=
    decode_answer host type number window known data held prior
  refine ⟨pkt, decoded, by rw [pktGetType, typed], ?_, ?_⟩
  · rw [pktGetSeqnum, numbered, BitVec.toNat_ofNat]
  · rw [pktGetWindow, windowed, BitVec.toNat_ofNat]
    exact Nat.mod_eq_of_lt (by omega)

/-- The same of an ACK, -/
theorem announces_ack (host : Host) (number window : Nat) (bounded : window ≤ 31) :
    Announces host (ackDatagram host number window) ptypeAck (number % 256) window :=
  announces_answer host 2 number window (.inl rfl) bounded

/-- and of a NACK. -/
theorem announces_nack (host : Host) (number window : Nat) (bounded : window ≤ 31) :
    Announces host (nackDatagram host number window) ptypeNack (number % 256) window :=
  announces_answer host 4 number window (.inr rfl) bounded

/-- A datagram announces one number only. -/
theorem announces_number (host : Host) {datagram : List Byte} {type : BitVec 32}
    {number other window otherWindow : Nat} (first : Announces host datagram type number window)
    (second : Announces host datagram type other otherWindow) : number = other := by
  have held := holds_getElem datagram (fun _ => 0)
  obtain ⟨pkt, decoded, _, numbered, _⟩ := first.2 _ blankPkt held
  obtain ⟨same, redecoded, _, renumbered, _⟩ := second.2 _ blankPkt held
  have equal : pkt = same := congrArg Prod.snd (decoded.symm.trans redecoded)
  rw [← numbered, ← renumbered, equal]

end SelectiveRepeat
