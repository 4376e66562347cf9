import SelectiveRepeat.Library.CyclicNumbers
import SelectiveRepeat.Library.PackedSlots
import SelectiveRepeat.Packet.Structure

/-!
# The reordering buffer of sel_repeat_read

`compare_seqnums`, `insert_pkt`, `refresh` and `remove_from_buffer` work on an
array of 31 packet pointers. A pointer is any type with a dereference: the
functions copy pointers around and read sequence numbers through them, and what
they release is reported as an event.
-/

namespace SelectiveRepeat

open PackedSlots CyclicNumbers

/-- What an iteration of the receiver does to the outside, in order. A sent datagram
comes with the receive buffer at that moment, which the code does not transmit. -/
inductive Event (Ref : Type) where
  | writePayload (payload : List Byte)
  | sendAck (datagram : List Byte) (slots : List (Option Ref))
  | sendNack (datagram : List Byte) (slots : List (Option Ref))
  | pktDel (pkt : Ref)
  | free (pkt : Ref)

/-- `compare_seqnums`: numbers up to `lastack` count as one turn later. -/
def compareSeqnums (lastack seqnum1 seqnum2 : Int) : Int :=
  let seqnum1 := if seqnum1 ≤ lastack then seqnum1 + 256 else seqnum1
  let seqnum2 := if seqnum2 ≤ lastack then seqnum2 + 256 else seqnum2
  seqnum1 - seqnum2

variable {Ref : Type} (deref : Ref → Pkt)

/-- The loop of `insert_pkt` at index `i`, with `remaining` indices to go: the
buffer, the window size and the events it ends with. -/
def insertLoop (lastack : Nat) (pkt : Ref) :
    Nat → Nat → List (Option Ref) → Int → List (Option Ref) × Int × List (Event Ref)
  | 0, _, buffer, windowSize => (buffer, windowSize, [])
  | remaining + 1, i, buffer, windowSize =>
    match slot buffer i with
    | none => (buffer.set i (some pkt), windowSize - 1, [])
    | some entry =>
      let difference := compareSeqnums lastack (pktGetSeqnum (deref pkt))
          (pktGetSeqnum (deref entry))
      if difference = 0 then (buffer, windowSize, [.pktDel pkt])
      else if difference < 0 then
        (carryRight (maxWindowSize - i - 1) (i + 1) (some entry) (buffer.set i (some pkt)),
          windowSize - 1, [])
      else insertLoop lastack pkt remaining (i + 1) buffer windowSize

/-- `insert_pkt` -/
def insertPkt (lastack : Nat) (buffer : List (Option Ref)) (pkt : Ref) (windowSize : Int) :
    List (Option Ref) × Int × List (Event Ref) :=
  insertLoop deref lastack pkt maxWindowSize 0 buffer windowSize

/-- The loop of `refresh`: from the first occupied slot `i` on, everything moves down. -/
def refreshLoop : Nat → Nat → List (Option Ref) → List (Option Ref)
  | 0, _, buffer => buffer
  | remaining + 1, i, buffer =>
    match slot buffer i with
    | none => refreshLoop remaining (i + 1) buffer
    | some _ =>
      clearFrom i (maxWindowSize - i) (moveDown i (maxWindowSize - i) 0 buffer)

/-- `refresh` -/
def refresh (buffer : List (Option Ref)) : List (Option Ref) := refreshLoop maxWindowSize 0 buffer

/-- `remove_from_buffer`: the statement after `pkt_del` compares the slot with NULL
and leaves the released pointer where it is. -/
def removeFromBuffer (buffer : List (Option Ref)) (seqnum : Nat) (windowSize : Int) :
    List (Option Ref) × Int × List (Event Ref) :=
  match slot buffer 0 with
  | none => (buffer, windowSize, [])
  | some entry =>
    if pktGetSeqnum (deref entry) = seqnum then (refresh buffer, windowSize + 1, [.pktDel entry])
    else (buffer, windowSize, [])

/-! ## The order of the buffer -/

/-- On sequence numbers, `compare_seqnums` is the difference of the distances from
the number that is expected next. -/
theorem compare_distance (lastack seqnum1 seqnum2 : Nat) (bounded : lastack < 256)
    (first : seqnum1 < 256) (second : seqnum2 < 256) :
    compareSeqnums lastack seqnum1 seqnum2 =
      (distance 256 (lastack + 1) seqnum1 : Int) - distance 256 (lastack + 1) seqnum2 := by
  simp only [compareSeqnums, distance]
  split <;> split <;> omega

/-- The window test of the receiver is a test of the distance. -/
theorem compare_expected (lastack seqnum : Nat) (bounded : lastack < 256) (number : seqnum < 256) :
    compareSeqnums lastack seqnum (((lastack + 1) % 256 : Nat) : Int) =
      distance 256 (lastack + 1) seqnum := by
  simp only [compareSeqnums, distance]
  split <;> split <;> omega

variable {deref}

/-- Entries that stand before the packet are passed over. -/
theorem insertLoop_skip (lastack : Nat) (pkt : Ref) (before after : List Ref) (windowSize : Int)
    (smaller : ∀ entry ∈ before,
      0 < compareSeqnums lastack (pktGetSeqnum (deref pkt)) (pktGetSeqnum (deref entry)))
    (fits : before.length ≤ maxWindowSize) :
    insertPkt deref lastack (packed maxWindowSize (before ++ after)) pkt windowSize =
      insertLoop deref lastack pkt (maxWindowSize - before.length) before.length
        (packed maxWindowSize (before ++ after)) windowSize := by
  have skip (count : Nat) (within : count ≤ before.length) :
      insertPkt deref lastack (packed maxWindowSize (before ++ after)) pkt windowSize =
        insertLoop deref lastack pkt (maxWindowSize - count) count
          (packed maxWindowSize (before ++ after)) windowSize := by
    induction count with
    | zero => rfl
    | succ count inductionHypothesis =>
      have inside : count < before.length := by omega
      have more : maxWindowSize - count = (maxWindowSize - (count + 1)) + 1 := by
        simp only [maxWindowSize] at fits ⊢
        omega
      have entry : slot (packed maxWindowSize (before ++ after)) count = some before[count] := by
        rw [slot_packed, List.getElem?_append_left inside, List.getElem?_eq_getElem inside]
      have larger := smaller before[count] (List.getElem_mem inside)
      rw [inductionHypothesis (by omega), more, insertLoop, entry]
      simp only
      rw [if_neg (by omega), if_neg (by omega)]
  exact skip before.length (Nat.le_refl _)

/-- Behind the last entry the packet is appended. -/
theorem insertPkt_append (lastack : Nat) (pkt : Ref) (before : List Ref) (windowSize : Int)
    (smaller : ∀ entry ∈ before,
      0 < compareSeqnums lastack (pktGetSeqnum (deref pkt)) (pktGetSeqnum (deref entry)))
    (room : before.length < maxWindowSize) :
    insertPkt deref lastack (packed maxWindowSize before) pkt windowSize =
      (packed maxWindowSize (before ++ [pkt]), windowSize - 1, []) := by
  have skipped := insertLoop_skip lastack pkt before [] windowSize smaller (by omega)
  obtain ⟨remaining, more⟩ : ∃ remaining, maxWindowSize - before.length = remaining + 1 :=
    ⟨maxWindowSize - before.length - 1, by omega⟩
  rw [List.append_nil] at skipped
  rw [skipped, more, insertLoop, slot_packed, List.getElem?_eq_none (Nat.le_refl _)]
  simp only [packed_push maxWindowSize before pkt room]

/-- An entry with the same number makes the packet a duplicate, which is released. -/
theorem insertPkt_duplicate (lastack : Nat) (pkt entry : Ref) (before after : List Ref)
    (windowSize : Int)
    (smaller : ∀ other ∈ before,
      0 < compareSeqnums lastack (pktGetSeqnum (deref pkt)) (pktGetSeqnum (deref other)))
    (same : compareSeqnums lastack (pktGetSeqnum (deref pkt)) (pktGetSeqnum (deref entry)) = 0)
    (fits : (before ++ entry :: after).length ≤ maxWindowSize) :
    insertPkt deref lastack (packed maxWindowSize (before ++ entry :: after)) pkt windowSize =
      (packed maxWindowSize (before ++ entry :: after), windowSize, [.pktDel pkt]) := by
  have skipped := insertLoop_skip lastack pkt before (entry :: after) windowSize smaller
    (by simp at fits; simp; omega)
  obtain ⟨remaining, more⟩ : ∃ remaining, maxWindowSize - before.length = remaining + 1 :=
    ⟨maxWindowSize - before.length - 1, by simp at fits ⊢; omega⟩
  rw [skipped, more, insertLoop, slot_packed, List.getElem?_append_right (Nat.le_refl _)]
  simp [same]

/-- Before the first larger entry the packet is inserted, and the tail shifts right
without losing its last pointer. -/
theorem insertPkt_between (lastack : Nat) (pkt entry : Ref) (before after : List Ref)
    (windowSize : Int)
    (smaller : ∀ other ∈ before,
      0 < compareSeqnums lastack (pktGetSeqnum (deref pkt)) (pktGetSeqnum (deref other)))
    (larger : compareSeqnums lastack (pktGetSeqnum (deref pkt)) (pktGetSeqnum (deref entry)) < 0)
    (room : (before ++ entry :: after).length < maxWindowSize) :
    insertPkt deref lastack (packed maxWindowSize (before ++ entry :: after)) pkt windowSize =
      (packed maxWindowSize (before ++ pkt :: entry :: after), windowSize - 1, []) := by
  simp only [List.length_append, List.length_cons, maxWindowSize] at room
  have skipped := insertLoop_skip lastack pkt before (entry :: after) windowSize smaller
    (by simp only [maxWindowSize]; omega)
  obtain ⟨remaining, more⟩ : ∃ remaining, maxWindowSize - before.length = remaining + 1 :=
    ⟨maxWindowSize - before.length - 1, by simp only [maxWindowSize]; omega⟩
  have found : (before ++ entry :: after)[before.length]? = some entry := by simp
  rw [skipped, more, insertLoop, slot_packed, found]
  simp only [larger, if_true, if_neg (Int.ne_of_lt larger)]
  rw [packed_insert maxWindowSize before after pkt entry (by simpa using room)]

/-- `refresh` packs an array whose occupied slots follow some empty ones. -/
theorem refresh_packs (lead : Nat) (items : List Ref) (fits : lead + items.length ≤ maxWindowSize) :
    refresh (List.replicate lead none ++ packed (maxWindowSize - lead) items) =
      packed maxWindowSize items := by
  have entries (index : Nat) :
      slot (List.replicate lead none ++ packed (maxWindowSize - lead) items) index =
        if index < lead then none else items[index - lead]? := by
    rw [slot_replicate_append, slot_packed]
  -- the search stops at the first occupied slot, or finds none
  have search (remaining i : Nat) (whole : i + remaining = maxWindowSize)
      (before : items ≠ [] → i ≤ lead) :
      refreshLoop remaining i (List.replicate lead none ++ packed (maxWindowSize - lead) items) =
        packed maxWindowSize items := by
    induction remaining generalizing i with
    | zero =>
      cases items with
      | nil =>
        rw [refreshLoop, packed_nil, packed_nil, List.replicate_append_replicate]
        congr 1
        simp only [List.length_nil] at fits
        omega
      | cons first rest =>
        have reached := before (by simp)
        simp only [List.length_cons] at fits
        omega
    | succ remaining inductionHypothesis =>
      rw [refreshLoop, entries]
      by_cases early : i < lead
      · rw [if_pos early]
        exact inductionHypothesis (i + 1) (by omega) (fun _ => early)
      · rw [if_neg early]
        cases items with
        | nil => exact inductionHypothesis (i + 1) (by omega) (by simp)
        | cons first rest =>
          obtain rfl : i = lead := by
            have reached := before (by simp)
            omega
          rw [Nat.sub_self]
          exact compact maxWindowSize i (first :: rest) fits
  exact search maxWindowSize 0 (Nat.zero_add _) (fun _ => Nat.zero_le _)

/-- `refresh` leaves a packed array alone. -/
theorem refresh_packed (items : List Ref) (fits : items.length ≤ maxWindowSize) :
    refresh (packed maxWindowSize items) = packed maxWindowSize items :=
  refresh_packs 0 items (by omega)

end SelectiveRepeat
