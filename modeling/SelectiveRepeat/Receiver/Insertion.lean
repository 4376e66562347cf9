import SelectiveRepeat.Receiver.Buffer

/-!
# insert_pkt as sorted insertion

The buffer is read as a strictly increasing list under the order of
`compare_seqnums`, which is the order of the distances from `lastack + 1`. Around the
place of a packet such a list splits into the entries in front of it and the others,
of which only the first can have its number. What `insert_pkt` does on each of the
three shapes is known from the buffer; here they are put together for any buffer with
a free slot.
-/

namespace SelectiveRepeat

open PackedSlots CyclicNumbers

variable {Ref : Type} (deref : Ref → Pkt)

/-- Strictly increasing under `compare_seqnums`. -/
def Increasing (lastack : Nat) (items : List Ref) : Prop :=
  items.Pairwise fun one other =>
    compareSeqnums lastack (pktGetSeqnum (deref one)) (pktGetSeqnum (deref other)) < 0

/-- The distance of a packet's number from the number that is expected next. -/
def position (lastack : Nat) (pkt : Ref) : Nat :=
  distance 256 (lastack + 1) (pktGetSeqnum (deref pkt))

variable {deref}

/-- In terms of positions, `compare_seqnums` is a difference. -/
theorem compare_position (lastack : Nat) (bounded : lastack < 256) (one other : Ref) :
    compareSeqnums lastack (pktGetSeqnum (deref one)) (pktGetSeqnum (deref other)) =
      (position deref lastack one : Int) - position deref lastack other :=
  compare_distance lastack _ _ bounded (deref one).seqnum.isLt (deref other).seqnum.isLt

/-- A buffer increases under `compare_seqnums` exactly if its positions increase. -/
theorem increasing_iff (lastack : Nat) (bounded : lastack < 256) (items : List Ref) :
    Increasing deref lastack items ↔
      items.Pairwise fun one other =>
        position deref lastack one < position deref lastack other := by
  apply List.Pairwise.iff
  intro one other
  rw [compare_position lastack bounded]
  omega

/-- Two packets have one position exactly when they have one number. -/
theorem position_eq_iff (lastack : Nat) (one other : Ref) :
    position deref lastack one = position deref lastack other ↔
      pktGetSeqnum (deref one) = pktGetSeqnum (deref other) := by
  constructor
  · intro same
    have first : pktGetSeqnum (deref one) < 256 := (deref one).seqnum.isLt
    have second : pktGetSeqnum (deref other) < 256 := (deref other).seqnum.isLt
    have arrives := start_add_distance (show 0 < 256 by decide) (lastack + 1)
      (pktGetSeqnum (deref one))
    have reaches := start_add_distance (show 0 < 256 by decide) (lastack + 1)
      (pktGetSeqnum (deref other))
    rw [position, position] at same
    rw [same, reaches, Nat.mod_eq_of_lt first, Nat.mod_eq_of_lt second] at arrives
    exact arrives.symm
  · intro same
    rw [position, position, same]

/-- An increasing list splits into what lies below a bound and the rest. -/
theorem split_below {items : List Ref} {rank : Ref → Nat}
    (increasing : items.Pairwise fun one other => rank one < rank other) (bound : Nat) :
    ∃ front back, items = front ++ back ∧ (∀ entry ∈ front, rank entry < bound) ∧
      ∀ entry ∈ back, bound ≤ rank entry := by
  induction items with
  | nil => exact ⟨[], [], rfl, by simp, by simp⟩
  | cons first rest inductionHypothesis =>
    obtain ⟨smallest, tail⟩ := List.pairwise_cons.mp increasing
    by_cases below : rank first < bound
    · obtain ⟨front, back, rfl, smaller, larger⟩ := inductionHypothesis tail
      refine ⟨first :: front, back, rfl, ?_, larger⟩
      intro entry listed
      rcases List.mem_cons.mp listed with rfl | later
      · exact below
      · exact smaller entry later
    · refine ⟨[], first :: rest, rfl, by simp, ?_⟩
      intro entry listed
      rcases List.mem_cons.mp listed with rfl | later
      · exact Nat.le_of_not_lt below
      · have further := smallest entry later
        omega

/-- Between smaller and larger entries a packet keeps a list increasing. -/
theorem pairwise_insert {front back : List Ref} {rank : Ref → Nat} {pkt : Ref}
    (increasing : (front ++ back).Pairwise fun one other => rank one < rank other)
    (smaller : ∀ entry ∈ front, rank entry < rank pkt)
    (larger : ∀ entry ∈ back, rank pkt < rank entry) :
    (front ++ pkt :: back).Pairwise fun one other => rank one < rank other := by
  obtain ⟨frontOrder, backOrder, across⟩ := List.pairwise_append.mp increasing
  apply List.pairwise_append.mpr
  refine ⟨frontOrder, List.pairwise_cons.mpr ⟨larger, backOrder⟩, ?_⟩
  intro one inFront other inBack
  rcases List.mem_cons.mp inBack with rfl | later
  · exact smaller one inFront
  · exact across one inFront other later

/-- `insert_pkt` on an increasing buffer with a free slot either meets an entry with the
number of the packet and releases the packet, or adds the packet at its place. -/
theorem insertPkt_places (lastack : Nat) (bounded : lastack < 256) (items : List Ref)
    (fits : items.length ≤ 30) (increasing : Increasing deref lastack items) (pkt : Ref)
    (windowSize : Int) :
    ((∃ entry ∈ items, pktGetSeqnum (deref entry) = pktGetSeqnum (deref pkt)) ∧
        insertPkt deref lastack (packed maxWindowSize items) pkt windowSize =
          (packed maxWindowSize items, windowSize, [.pktDel pkt])) ∨
      ((∀ entry ∈ items, pktGetSeqnum (deref entry) ≠ pktGetSeqnum (deref pkt)) ∧
        ∃ result, insertPkt deref lastack (packed maxWindowSize items) pkt windowSize =
            (packed maxWindowSize result, windowSize - 1, []) ∧
          Increasing deref lastack result ∧ result.Perm (pkt :: items)) := by
  have ranked := (increasing_iff lastack bounded items).mp increasing
  obtain ⟨front, back, rfl, smaller, larger⟩ :=
    split_below ranked (position deref lastack pkt)
  rw [List.length_append] at fits
  have passed : ∀ entry ∈ front,
      0 < compareSeqnums lastack (pktGetSeqnum (deref pkt)) (pktGetSeqnum (deref entry)) := by
    intro entry listed
    have below := smaller entry listed
    rw [compare_position lastack bounded]
    omega
  -- the first entry that is not smaller decides whether the packet is a duplicate
  by_cases taken : ∃ entry ∈ back.head?, position deref lastack entry = position deref lastack pkt
  · obtain ⟨entry, first, same⟩ := taken
    obtain ⟨rest, rfl⟩ := List.head?_eq_some_iff.mp first
    left
    constructor
    · exact ⟨entry, by simp, (position_eq_iff lastack entry pkt).mp same⟩
    · apply insertPkt_duplicate lastack pkt entry front rest windowSize passed
      · rw [compare_position lastack bounded]
        omega
      · simp only [List.length_append, List.length_cons, maxWindowSize] at fits ⊢
        omega
  · right
    have above : ∀ entry ∈ back, position deref lastack pkt < position deref lastack entry := by
      intro entry listed
      cases back with
      | nil => simp at listed
      | cons first rest =>
        have reached := larger first (List.mem_cons_self ..)
        have apart : position deref lastack first ≠ position deref lastack pkt :=
          fun same => taken ⟨first, rfl, same⟩
        rcases List.mem_cons.mp listed with rfl | later
        · omega
        · have order := (List.pairwise_append.mp ranked).2.1
          have further := (List.pairwise_cons.mp order).1 entry later
          omega
    constructor
    · intro entry listed same
      have level := (position_eq_iff lastack entry pkt).mpr same
      rcases List.mem_append.mp listed with inFront | inBack
      · have below := smaller entry inFront
        omega
      · have further := above entry inBack
        omega
    · refine ⟨front ++ pkt :: back, ?_, ?_, List.perm_middle⟩
      · cases back with
        | nil =>
          rw [List.append_nil]
          apply insertPkt_append lastack pkt front windowSize passed
          simp only [List.length_nil, maxWindowSize] at fits ⊢
          omega
        | cons entry rest =>
          have further := above entry (List.mem_cons_self ..)
          apply insertPkt_between lastack pkt entry front rest windowSize passed
          · rw [compare_position lastack bounded]
            omega
          · simp only [List.length_append, List.length_cons, maxWindowSize] at fits ⊢
            omega
      · exact (increasing_iff lastack bounded _).mpr (pairwise_insert ranked smaller above)

/-- `insert_pkt` is sorted insertion: the buffer stays increasing, with NULL behind its
last packet only. A packet whose number is there is released, and nothing else happens.
Any other is added once and takes one slot, and no packet is lost.

Under `compare_seqnums` a packet's place is given by its distance from the expected
number. The loop stops at the first larger one, and carries the rest one slot to the
right. -/
theorem insertPkt_sorted (lastack : Nat) (bounded : lastack < 256) (items : List Ref)
    (fits : items.length ≤ 30) (increasing : Increasing deref lastack items) (pkt : Ref)
    (windowSize : Int) :
    ∃ result windowAfter events,
      insertPkt deref lastack (packed maxWindowSize items) pkt windowSize =
        (packed maxWindowSize result, windowAfter, events) ∧
      Increasing deref lastack result ∧
      ((∃ entry ∈ items, pktGetSeqnum (deref entry) = pktGetSeqnum (deref pkt)) →
        result = items ∧ windowAfter = windowSize ∧ events = [.pktDel pkt]) ∧
      ((∀ entry ∈ items, pktGetSeqnum (deref entry) ≠ pktGetSeqnum (deref pkt)) →
        result.Perm (pkt :: items) ∧ windowAfter = windowSize - 1 ∧ events = []) := by
  rcases insertPkt_places lastack bounded items fits increasing pkt windowSize with
    ⟨⟨entry, listed, same⟩, inserts⟩ | ⟨absent, result, inserts, kept, permuted⟩
  · refine ⟨items, windowSize, [.pktDel pkt], inserts, increasing, ?_, ?_⟩
    · intro _
      exact ⟨rfl, rfl, rfl⟩
    · intro absent
      exact absurd same (absent entry listed)
  · refine ⟨result, windowSize - 1, [], inserts, kept, ?_, ?_⟩
    · rintro ⟨entry, listed, same⟩
      exact absurd same (absent entry listed)
    · intro _
      exact ⟨permuted, rfl, rfl⟩

/-- A packet with number 1 into a buffer with the numbers 255 and 3, after 253. -/
theorem insertPkt_sorted_wrap :
    ∃ result, insertPkt id 253
        (packed maxWindowSize [{ blankPkt with seqnum := 255 }, { blankPkt with seqnum := 3 }])
        { blankPkt with seqnum := 1 } 29 = (packed maxWindowSize result, 28, []) ∧
      result.Perm [{ blankPkt with seqnum := 1 }, { blankPkt with seqnum := 255 },
        { blankPkt with seqnum := 3 }] := by
  have increasing : Increasing id 253
      [{ blankPkt with seqnum := 255 }, { blankPkt with seqnum := 3 }] := by
    simp only [Increasing, List.pairwise_pair]
    decide
  have absent : ∀ entry ∈ [{ blankPkt with seqnum := 255 }, { blankPkt with seqnum := 3 }],
      pktGetSeqnum (id entry) ≠ pktGetSeqnum (id { blankPkt with seqnum := 1 }) := by
    simp [pktGetSeqnum]
  obtain ⟨result, windowAfter, events, inserts, _, _, added⟩ :=
    insertPkt_sorted 253 (by decide) _ (by decide) increasing { blankPkt with seqnum := 1 } 29
  obtain ⟨permuted, rfl, rfl⟩ := added absent
  exact ⟨result, inserts, permuted⟩

end SelectiveRepeat
