import SelectiveRepeat.Link.System

/-!
# What arrives at the receiver

A datagram of the packet with index `n` is accepted as the number `n % 256` with its
chunk; cut to four bytes it is rejected but still shows its number. As long as the
receiver has not delivered more than 225 packets beyond it, the number stands for
exactly this index, so that the abstract receiver takes the item under its index.
-/

namespace SelectiveRepeat

open Reassembly CyclicNumbers

/-- Fewer than eight bytes are never a packet. -/
theorem accepted_short (host : Host) (bytes : List Byte) (short : bytes.length < 8) :
    acceptedPacket host (some bytes) = none := by
  have whole : bytes.take maxSduSize = bytes :=
    List.take_of_length_le (by simp only [maxSduSize, maxPayloadSize]; omega)
  have status := (decode_status host (fun i => (bytes[i]?).getD 0) bytes.length blankPkt).1
  simp only [acceptedPacket, whole]
  split
  · rename_i pkt decoded
    rw [decoded, decodedStatus] at status
    split_ifs at status
    omega
  · rfl

/-- A datagram of a chunk, as the receiver reads it. -/
theorem accepted_chunk (host : Host) (number : Nat) (chunk : List Byte) (crc : BitVec 32)
    (bounded : chunk.length ≤ 512) :
    acceptedPacket host (some (wire host (chunkPacket number chunk crc))) =
      some (number % 256, chunk) := by
  rw [acceptedPacket_wire host _ (chunk_valid number chunk crc bounded),
    chunk_body number chunk crc bounded, pktGetSeqnum, chunkPacket, BitVec.toNat_ofNat]

/-- The front of a datagram shows its number. -/
theorem cut_chunk (host : Host) (number : Nat) (chunk : List Byte) (crc : BitVec 32) :
    cutNumber (some ((wire host (chunkPacket number chunk crc)).take 4)) = some (number % 256) := by
  have front : (wire host (chunkPacket number chunk crc)).take 4 =
      header (chunkPacket number chunk crc) := by
    simp only [wire, covered, List.append_assoc]
    exact List.take_left' rfl
  rw [front, header, cutNumber]
  simp [chunkPacket]

/-- A datagram of a chunk has at least eight bytes. -/
theorem chunk_wire_long (host : Host) (number : Nat) (chunk : List Byte) (crc : BitVec 32)
    (bounded : chunk.length ≤ 512) : 8 ≤ (wire host (chunkPacket number chunk crc)).length := by
  rw [wire_length host _ (chunk_valid number chunk crc bounded).readable]
  omega

/-- Only a datagram of four bytes counts as cut. -/
theorem cutNumber_other (bytes : List Byte) (other : bytes.length ≠ 4) :
    cutNumber (some bytes) = none := by
  unfold cutNumber
  split
  · rename_i first second third fourth same
    rw [Option.some.inj same] at other
    exact absurd rfl other
  · rfl

/-! ## The abstract receiver -/

/-- What arrived so far is what the input returned, at indices below `next`. -/
structure Receiving (input : Input) (next : Nat) (reassembler : Reassembly31) : Prop where
  follows : Reassembler.Follows input.chunk reassembler
  below : Reassembler.Below next reassembler

/-- A receiver that is consistent with what the sender has built stays so when it builds more. -/
theorem Receiving.more {input : Input} {next later : Nat} {reassembler : Reassembly31}
    (receiving : Receiving input next reassembler) (grows : next ≤ later) :
    Receiving input later reassembler where
  follows := receiving.follows
  below := ⟨Nat.le_trans receiving.below.delivered grows,
    fun index present => Nat.lt_of_lt_of_le (receiving.below.held index present) grows⟩

/-- The number of a packet that was sent and is not too old stands for its index. -/
theorem reassemble_index (reassembler : Reassembly31) (index : Nat) (payload : List Byte)
    (near : index < reassembler.delivered + 31) (recent : reassembler.delivered ≤ index + 225) :
    reassemble reassembler (some (index % 256, payload)) = reassembler.offer index payload :=
  Reassembler.accept_exact (by decide) (by decide) reassembler index payload near recent

/-- An intact packet keeps the receiver on the stream. -/
theorem Receiving.arrival {input : Input} {next index : Nat} {reassembler : Reassembly31}
    (receiving : Receiving input next reassembler) (sent : index < next)
    (near : index < reassembler.delivered + 31) (recent : reassembler.delivered ≤ index + 225) :
    Receiving input next (reassemble reassembler (some (index % 256, input.chunk index))) := by
  rw [reassemble_index reassembler index _ near recent]
  exact ⟨Reassembler.offer_follows input.chunk reassembler index receiving.follows,
    Reassembler.offer_below reassembler index _ receiving.below sent⟩

/-- A cut datagram is refused only if its packet is not delivered yet: an old number is
out of the window even after it wrapped. -/
theorem refused_index {reassembler : Reassembly31} {index number : Nat} {bytes : List Byte}
    (cut : cutNumber (some bytes) = some (index % 256))
    (recent : reassembler.delivered ≤ index + 225)
    (refusal : refused reassembler (some bytes) = some number) :
    number = index % 256 ∧ reassembler.delivered ≤ index := by
  rw [refused, cut, Option.filter_some] at refusal
  split at refusal
  case isTrue near =>
    refine ⟨(Option.some.inj refusal).symm, ?_⟩
    by_contra old
    have far := distance_behind (show 0 < 256 by decide) (Nat.lt_of_not_le old) recent (by decide)
    have close : distance 256 reassembler.delivered (index % 256) < 31 := by simpa using near
    omega
  case isFalse => cases refusal

/-- A number that is refused, and does not mislead, is that of the packet. -/
theorem honest_number {reassembler : Reassembly31} {receiver : RecvState Pkt}
    (represents : Represents id reassembler receiver) {index number : Nat} {bytes : List Byte}
    (honest : ¬ Misleads receiver index (.corrupt bytes))
    (refusal : refused reassembler (some bytes) = some number) :
    cutNumber (some bytes) = some (index % 256) := by
  obtain ⟨shown, near⟩ := Option.filter_eq_some_iff.mp refusal
  rw [shown]
  unfold cutNumber at shown
  split at shown
  · rename_i first second third fourth same
    obtain rfl := Option.some.inj same
    obtain rfl := Option.some.inj shown
    by_contra other
    refine honest ⟨fun same => other (congrArg some same), ?_⟩
    rw [compare_expected _ _ represents.bounded second.isLt, represents.offset]
    have close : distance 256 reassembler.delivered second.toNat < 31 := by simpa using near
    simp only [maxWindowSize]
    omega
  · cases shown

/-- Whatever the channel does to the datagram of a chunk, as long as it does not mislead
the receiver, this stays on the stream, and refuses the datagram only if its packet is
not delivered. -/
theorem Receiving.handed {input : Input} {next index : Nat} {reassembler : Reassembly31}
    (receiving : Receiving input next reassembler) (sent : index < next)
    (near : index < reassembler.delivered + 31) (recent : reassembler.delivered ≤ index + 225)
    {host : Host} {crc : BitVec 32} {datagram : List Byte}
    (built : datagram = wire host (chunkPacket index (input.chunk index) crc)) (fate : Fate)
    (noticed : fate.Noticed host) {receiver : RecvState Pkt}
    (represents : Represents id reassembler receiver) (honest : ¬ Misleads receiver index fate) :
    Receiving input next
        (reassemble reassembler (acceptedPacket host (some (fate.arriving datagram)))) ∧
      ∀ number, refused reassembler (some (fate.arriving datagram)) = some number →
        number = index % 256 ∧ (reassemble reassembler
          (acceptedPacket host (some (fate.arriving datagram)))).delivered ≤ index := by
  subst built
  have bounded := input.bounded index
  have long := chunk_wire_long host index (input.chunk index) crc bounded
  cases fate with
  | intact =>
    simp only [Fate.arriving, accepted_chunk host index _ crc bounded]
    refine ⟨receiving.arrival sent near recent, ?_⟩
    intro number refusal
    rw [refused, cutNumber_other _ (by omega)] at refusal
    cases refusal
  | cut =>
    have short :
        (List.take 4 (wire host (chunkPacket index (input.chunk index) crc))).length < 8 := by
      rw [List.length_take]
      omega
    simp only [Fate.arriving, accepted_short host _ short]
    have cut := cut_chunk host index (input.chunk index) crc
    exact ⟨receiving, fun number refusal => refused_index cut recent refusal⟩
  | corrupt bytes =>
    have rejected : acceptedPacket host (some bytes) = none := noticed
    simp only [Fate.arriving, rejected]
    exact ⟨receiving, fun number refusal =>
      refused_index (honest_number represents honest refusal) recent refusal⟩

end SelectiveRepeat
