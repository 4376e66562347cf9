import SelectiveRepeat.Receiver.Ownership

/-!
# Branches of the receiver that are never taken

`sel_repeat_read` has no guard at four places: `remove_from_buffer` would release a
packet and leave the pointer in its slot, `insert_pkt` would push a packet off a full
array or ignore the new one, the draining loop could run out of indices without an
acknowledgement, and `pkt_set_window` could refuse the window of an answer.

A pass is followed here once more, for the places it comes to and what the variables
are there. The answers it sends are those of the calls found on the way, and it ends as
the insertion, or the removal and the draining loop, found on the way leave it. At the
heads of the loop that a run reaches, no such place is unsafe.
-/

namespace SelectiveRepeat

open PackedSlots CyclicNumbers Reassembly

/-- The places of a pass with the values they depend on: the calls of four functions,
and the end of the draining loop, with whether a break ended it. -/
inductive Site (Ref : Type) where
  | removeFromBuffer (buffer : List (Option Ref)) (seqnum : Nat)
  | insertPkt (lastack : Nat) (buffer : List (Option Ref)) (pkt : Ref) (windowSize : Int)
  | sendAck (lastack : Nat) (windowSize : Int)
  | sendNack (seqnum : Nat) (windowSize : Int)
  | drained (broke : Bool)

variable {Ref : Type} (deref : Ref → Pkt)

/-- The places of the draining loop. -/
def drainSites : Nat → Nat → RecvState Ref → List (Site Ref)
  | 0, _, _ => [.drained false]
  | remaining + 1, i, state =>
    match slot state.receiveBuffer i with
    | none => [.sendAck state.lastack state.windowSize, .drained true]
    | some entry =>
      if pktGetSeqnum (deref entry) = (state.lastack + 1) % 256 then
        let state := { state with
          receiveBuffer := state.receiveBuffer.set i none
          windowSize := state.windowSize + 1
          lastack := (state.lastack + 1) % 256 }
        .sendAck state.lastack state.windowSize :: drainSites remaining (i + 1) state
      else [.sendAck state.lastack state.windowSize, .drained true]

/-- The places of the branch of the packet that is expected next. -/
def deliverSites (state : RecvState Ref) : List (Site Ref) :=
  let (buffer, windowSize, _) :=
    removeFromBuffer deref state.receiveBuffer ((state.lastack + 1) % 256) state.windowSize
  .removeFromBuffer state.receiveBuffer ((state.lastack + 1) % 256) ::
    drainSites deref maxWindowSize 0 { state with
      receiveBuffer := buffer
      windowSize := windowSize
      lastack := (state.lastack + 1) % 256 }

/-- The places of the `if` statement on a datagram whose header was read. -/
def handleSites (err : PktStatusCode) (sduSize : Int) (pkt : Ref) (state : RecvState Ref) :
    List (Site Ref) :=
  let seqnum := pktGetSeqnum (deref pkt)
  let expected : Int := ((state.lastack + 1) % 256 : Nat)
  if compareSeqnums state.lastack seqnum expected < maxWindowSize then
    if err ≠ .pktOk then
      if err = .eUnconsistent ∧ sduSize = 4 then [.sendNack seqnum state.windowSize] else []
    else if seqnum = (state.lastack + 1) % 256 then deliverSites deref state
    else [.insertPkt state.lastack state.receiveBuffer pkt state.windowSize]
  else []

/-- The places of a pass. -/
def passSites (host : Host) (allocator : Allocator deref) (ambient : Ambient)
    (result : Option (List Byte)) (state : RecvState Ref) : List (Site Ref) :=
  let state := { state with pktBuffer := readInto maxSduSize result state.pktBuffer }
  let sduSize := readSize maxSduSize result
  let (err, content) := pktDecode host state.pktBuffer (asSize sduSize) (pktNew (ambient.fresh 0))
  if err = .eNoheader then []
  else handleSites deref err sduSize (allocator.alloc content) state

/-! ## The answers of the places are those of the pass -/

/-- The arguments of the calls of `send_ack`. -/
def ackCalls (sites : List (Site Ref)) : List (Nat × Int) :=
  sites.filterMap fun
    | .sendAck lastack windowSize => some (lastack, windowSize)
    | _ => none

/-- The arguments of the calls of `send_nack`. -/
def nackCalls (sites : List (Site Ref)) : List (Nat × Int) :=
  sites.filterMap fun
    | .sendNack seqnum windowSize => some (seqnum, windowSize)
    | _ => none

/-- The answers sent are what the calls found on the way send, one for one. -/
structure Answered (host : Host) (sites : List (Site Ref)) (events : List (Event Ref)) : Prop where
  acks : List.Forall₂ (fun (call : Nat × Int) datagram =>
    ∃ block junk, sendAck host block junk call.1 call.2 = .ok datagram) (ackCalls sites)
      (acks events)
  nacks : List.Forall₂ (fun (call : Nat × Int) datagram =>
    ∃ block junk, sendNack host block junk call.1 call.2 = .ok datagram) (nackCalls sites)
      (nacks events)

variable {deref}

/-- Without the expected packet at its index, the loop acknowledges and breaks. -/
theorem drainSites_other {i : Nat} {state : RecvState Ref} (remaining : Nat)
    (other : ∀ entry, slot state.receiveBuffer i = some entry →
      pktGetSeqnum (deref entry) ≠ (state.lastack + 1) % 256) :
    drainSites deref (remaining + 1) i state =
      [.sendAck state.lastack state.windowSize, .drained true] := by
  rw [drainSites]
  cases found : slot state.receiveBuffer i with
  | none => rfl
  | some entry => exact if_neg (other entry found)

/-- Every answer of the draining loop comes from a call of `send_ack` that the sites list. -/
theorem Drains.answers {host : Host} {remaining i : Nat} {state last : RecvState Ref}
    {events : List (Event Ref)} (drains : Drains deref host remaining i state last events) :
    Answered host (drainSites deref remaining i state) events := by
  induction drains with
  | exhausted i state => exact ⟨.nil, .nil⟩
  | @stopped remaining i state datagram other sends =>
    rw [drainSites_other _ other]
    exact ⟨.cons sends .nil, .nil⟩
  | taken found expected sends goesOn answered =>
    rw [drainSites, found]
    dsimp only
    rw [if_pos expected]
    exact ⟨.cons sends answered.acks, answered.nacks⟩

/-- Where nothing is called, nothing is sent. -/
theorem answered_silent {host : Host} {sites : List (Site Ref)} {events : List (Event Ref)}
    (noCall : ackCalls sites = [] ∧ nackCalls sites = [])
    (quiet : acks events = [] ∧ nacks events = []) : Answered host sites events := by
  constructor
  · rw [noCall.1, quiet.1]
    exact .nil
  · rw [noCall.2, quiet.2]
    exact .nil

/-- Every answer of the `if` statement comes from a call that the sites list. -/
theorem Handled.answers {host : Host} {ambient : Ambient} {before : Reassembly31}
    {state last : RecvState Ref} (represents : Represents deref before state)
    {err : PktStatusCode} {sduSize : Int} {pkt : Ref} {events : List (Event Ref)}
    (handled : Handled deref host ambient err sduSize pkt state last events) :
    Answered host (handleSites deref err sduSize pkt state) events := by
  rw [handleSites]
  cases handled with
  | outside far =>
    rw [if_neg far]
    exact answered_silent ⟨rfl, rfl⟩ ⟨rfl, rfl⟩
  | cut near failed header sends =>
    rw [if_pos near, if_pos failed, if_pos header]
    exact ⟨.nil, .cons sends .nil⟩
  | damaged near failed whole =>
    rw [if_pos near, if_pos failed, if_neg whole]
    exact answered_silent ⟨rfl, rfl⟩ ⟨rfl, rfl⟩
  | expected near decoded next drains =>
    rw [if_pos near, if_neg (not_not.mpr decoded), if_pos next, deliverSites,
      removeFromBuffer_keeps represents]
    have answered := (drainLoop_ends host ambient drains).answers
    exact ⟨answered.acks, answered.nacks⟩
  | duplicate near decoded other present =>
    rw [if_pos near, if_neg (not_not.mpr decoded), if_neg other]
    exact answered_silent ⟨rfl, rfl⟩ ⟨rfl, rfl⟩
  | added near decoded other absent fits permuted =>
    rw [if_pos near, if_neg (not_not.mpr decoded), if_neg other]
    exact answered_silent ⟨rfl, rfl⟩ ⟨rfl, rfl⟩

/-- One for one, the answers of a pass are those of the places it comes to. -/
theorem passSites_answers (host : Host) (allocator : Allocator deref) (ambient : Ambient)
    (result : Option (List Byte)) {before : Reassembly31} {state next : RecvState Ref}
    (represents : Represents deref before state) {events : List (Event Ref)}
    (passes : selRepeatReadBody deref host allocator ambient result state = .ok (next, events)) :
    Answered host (passSites deref host allocator ambient result state) events := by
  rw [passSites]
  rcases selRepeatReadBody_ends host allocator ambient result represents passes with
    ⟨headless, _, rfl⟩ | ⟨header, last, _, handled⟩
  · rw [decodedRead] at headless
    dsimp only
    rw [if_pos headless]
    exact answered_silent ⟨rfl, rfl⟩ ⟨rfl, rfl⟩
  · rw [decodedRead] at header
    dsimp only
    rw [if_neg header]
    exact handled.answers (represents.read _)

/-! ## The pass ends as its places leave it -/

/-- The call is not of a function that may change the buffer. -/
def Site.Idle : Site Ref → Prop
  | .removeFromBuffer _ _ => False
  | .insertPkt _ _ _ _ => False
  | _ => True

/-- The places listed are those of the code: an insertion is of the state's own buffer and
leaves what the pass ends with, a removal is the one in front of the draining loop, which
acknowledges each packet it takes and once more where it breaks, and without either
everything stays. -/
structure Called (deref : Ref → Pkt) (host : Host) (ambient : Ambient) (state last : RecvState Ref)
    (events : List (Event Ref)) (sites : List (Site Ref)) : Prop where
  inserts : ∀ lastack buffer pkt windowSize, .insertPkt lastack buffer pkt windowSize ∈ sites →
    lastack = state.lastack ∧ buffer = state.receiveBuffer ∧ windowSize = state.windowSize ∧
      last.lastack = lastack ∧
      insertPkt deref lastack buffer pkt windowSize =
        (last.receiveBuffer, last.windowSize, events)
  removes : ∀ buffer seqnum, .removeFromBuffer buffer seqnum ∈ sites →
    buffer = state.receiveBuffer ∧ seqnum = (state.lastack + 1) % 256 ∧
      ∃ pkt, deliverExpected deref host ambient pkt state = .ok (last, events)
  drained : ∀ broke, .drained broke ∈ sites →
    (acks events).length + 1 = (payloads events).length + broke.toNat
  idle : (∀ site ∈ sites, site.Idle) → last = state ∧ payloads events = []

/-- The loop acknowledges each packet it takes, and once more where it breaks. -/
theorem Drains.breaks {host : Host} {remaining i : Nat} {state last : RecvState Ref}
    {events : List (Event Ref)} (drains : Drains deref host remaining i state last events)
    {broke : Bool} (listed : .drained broke ∈ drainSites deref remaining i state) :
    (acks events).length = (payloads events).length + broke.toNat := by
  induction drains with
  | exhausted i state =>
    obtain rfl : broke = false := by simpa [drainSites] using listed
    rfl
  | @stopped remaining i state datagram other sends =>
    rw [drainSites_other _ other] at listed
    obtain rfl : broke = true := by simpa using listed
    rfl
  | taken found expected sends goesOn inductionHypothesis =>
    rw [drainSites, found] at listed
    dsimp only at listed
    rw [if_pos expected] at listed
    have later := inductionHypothesis (by simpa using listed)
    simp only [acks, payloads] at later
    simp [acks, payloads, later]
    omega

/-- The draining loop comes to no insertion and no removal. -/
theorem drainSites_idle (remaining i : Nat) (state : RecvState Ref) :
    ∀ site ∈ drainSites deref remaining i state, site.Idle := by
  induction remaining generalizing i state with
  | zero => simp [drainSites, Site.Idle]
  | succ remaining inductionHypothesis =>
    rw [drainSites]
    split
    · simp [Site.Idle]
    · split
      · exact List.forall_mem_cons.mpr ⟨trivial, inductionHypothesis _ _⟩
      · simp [Site.Idle]

/-- What `remove_from_buffer` releases is neither written nor acknowledged. -/
theorem removeFromBuffer_silent (buffer : List (Option Ref)) (seqnum : Nat) (windowSize : Int) :
    payloads (removeFromBuffer deref buffer seqnum windowSize).2.2 = [] ∧
      acks (removeFromBuffer deref buffer seqnum windowSize).2.2 = [] := by
  rw [removeFromBuffer]
  split
  · exact ⟨rfl, rfl⟩
  · split
    · exact ⟨rfl, rfl⟩
    · exact ⟨rfl, rfl⟩

/-- The branch that delivers ends as its places leave it: the removal comes first, and the
draining loop neither inserts nor removes. -/
theorem deliverSites_called {host : Host} {ambient : Ambient} {state last : RecvState Ref}
    {pkt : Ref} {events : List (Event Ref)}
    (delivers : deliverExpected deref host ambient pkt state = .ok (last, events)) :
    Called deref host ambient state last events (deliverSites deref state) := by
  have silent := @removeFromBuffer_silent _ deref state.receiveBuffer ((state.lastack + 1) % 256)
    state.windowSize
  have ends := delivers
  rw [deliverExpected] at ends
  rw [deliverSites]
  revert silent ends
  generalize removeFromBuffer deref state.receiveBuffer ((state.lastack + 1) % 256)
    state.windowSize = removal
  obtain ⟨buffer, windowSize, removed⟩ := removal
  intro silent ends
  obtain ⟨⟨final, drained⟩, drains, same⟩ := run_bind ends
  cases same
  have idle := @drainSites_idle _ deref maxWindowSize 0 { state with
    receiveBuffer := buffer
    windowSize := windowSize
    lastack := (state.lastack + 1) % 256 }
  constructor
  · intro lastack other entry window listed
    rcases List.mem_cons.mp listed with same | later
    · cases same
    · exact (idle _ later).elim
  · intro other seqnum listed
    rcases List.mem_cons.mp listed with same | later
    · cases same
      exact ⟨rfl, rfl, pkt, delivers⟩
    · exact (idle _ later).elim
  · intro broke listed
    have later := (drainLoop_ends host ambient drains).breaks (by simpa using listed)
    simp only [acks, payloads] at later silent
    simp [acks, payloads, later, silent.1, silent.2]
    omega
  · intro spared
    exact (spared _ (List.mem_cons_self ..)).elim

/-- So does the `if` statement as a whole. -/
theorem handleSites_called {host : Host} {ambient : Ambient} {state last : RecvState Ref}
    {err : PktStatusCode} {sduSize : Int} {pkt : Ref} {events : List (Event Ref)}
    (handles : handlePacket deref host ambient err sduSize pkt state = .ok (last, events)) :
    Called deref host ambient state last events (handleSites deref err sduSize pkt state) := by
  rw [handlePacket] at handles
  rw [handleSites]
  dsimp only at handles ⊢
  split at handles
  case isFalse far =>
    cases handles
    rw [if_neg far]
    exact ⟨by simp, by simp, by simp, fun _ => ⟨rfl, rfl⟩⟩
  case isTrue near =>
    rw [if_pos near]
    split at handles
    case isTrue failed =>
      rw [if_pos failed]
      split at handles
      case isTrue header =>
        obtain ⟨datagram, sends, same⟩ := run_bind handles
        cases same
        rw [if_pos header]
        exact ⟨by simp, by simp, by simp, fun _ => ⟨rfl, rfl⟩⟩
      case isFalse whole =>
        cases handles
        rw [if_neg whole]
        exact ⟨by simp, by simp, by simp, fun _ => ⟨rfl, rfl⟩⟩
    case isFalse accepted =>
      rw [if_neg accepted]
      split at handles
      case isTrue next =>
        rw [if_pos next]
        exact deliverSites_called handles
      case isFalse other =>
        cases handles
        rw [if_neg other]
        constructor
        · intro lastack buffer entry windowSize listed
          cases List.mem_singleton.mp listed
          exact ⟨rfl, rfl, rfl, rfl, rfl⟩
        · simp
        · simp
        · intro spared
          exact (spared _ (List.mem_singleton_self _)).elim

/-- A pass ends, up to the final `refresh`, as its places leave it. -/
theorem passSites_called (host : Host) (allocator : Allocator deref) (ambient : Ambient)
    (result : Option (List Byte)) {state next : RecvState Ref} {events : List (Event Ref)}
    (passes : selRepeatReadBody deref host allocator ambient result state = .ok (next, events)) :
    ∃ last, next = refreshed last ∧
      Called deref host ambient
        { state with pktBuffer := readInto maxSduSize result state.pktBuffer } last events
        (passSites deref host allocator ambient result state) := by
  rw [selRepeatReadBody] at passes
  rw [passSites]
  dsimp only at passes ⊢
  split at passes
  case isTrue headless =>
    cases passes
    rw [if_pos headless]
    exact ⟨_, rfl, by simp, by simp, by simp, fun _ => ⟨rfl, rfl⟩⟩
  case isFalse header =>
    obtain ⟨⟨last, done⟩, handles, same⟩ := run_bind passes
    cases same
    rw [if_neg header]
    exact ⟨last, rfl, handleSites_called handles⟩

/-! ## Safety -/

variable (deref)

/-- Nothing goes wrong at a place. The removal finds nothing to remove. An insertion
adds nothing to a buffer of 30 packets, and every packet is afterwards in a slot or
released: none was pushed off the array, none ignored. A break ends the draining loop.
A window is one that `pkt_set_window` accepts. -/
def Site.Safe : Site Ref → Prop
  | .removeFromBuffer buffer seqnum =>
      ∀ entry, slot buffer 0 = some entry → pktGetSeqnum (deref entry) ≠ seqnum
  | .insertPkt lastack buffer pkt windowSize =>
      let (after, _, events) := SelectiveRepeat.insertPkt deref lastack buffer pkt windowSize
      (29 < buffer.reduceOption.length → after = buffer ∧ events = [.pktDel pkt]) ∧
        (after.reduceOption ++ released events).Perm (pkt :: buffer.reduceOption)
  | .sendAck _ windowSize => (1 ≤ windowSize ∧ windowSize ≤ 31) ∧
      ∀ pkt, (pktSetWindow pkt (BitVec.ofInt 8 windowSize)).1 = .pktOk
  | .sendNack _ windowSize => (1 ≤ windowSize ∧ windowSize ≤ 31) ∧
      ∀ pkt, (pktSetWindow pkt (BitVec.ofInt 8 windowSize)).1 = .pktOk
  | .drained broke => broke = true

variable {deref}

/-- A window between 1 and 31 is accepted. -/
theorem window_accepted {windowSize : Int} (low : 1 ≤ windowSize) (high : windowSize ≤ 31) :
    (1 ≤ windowSize ∧ windowSize ≤ 31) ∧
      ∀ pkt, (pktSetWindow pkt (BitVec.ofInt 8 windowSize)).1 = .pktOk := by
  obtain ⟨window, rfl⟩ : ∃ window : Nat, windowSize = window := ⟨windowSize.toNat, by omega⟩
  have small : ¬ (BitVec.ofNat 8 window).toNat > 31 := by
    rw [BitVec.toNat_ofNat]
    omega
  refine ⟨⟨low, high⟩, ?_⟩
  intro pkt
  simp only [pktSetWindow, BitVec.ofInt_natCast, maxWindowSize, small, if_false]

/-- Without the expected packet in front, the loop acknowledges and breaks. -/
theorem drainSites_stops {held : Nat → Option (List Byte)} {i fuel first : Nat} {items : List Ref}
    {state : RecvState Ref} (draining : Draining deref held i fuel first items state)
    (other : ∀ entry ∈ items.head?, pktGetSeqnum (deref entry) ≠ first % 256) :
    drainSites deref (fuel + 1) i state =
      [.sendAck state.lastack state.windowSize, .drained true] := by
  have expected : (state.lastack + 1) % 256 = first % 256 := by
    rw [draining.lastack]
    omega
  apply drainSites_other fuel
  intro entry found
  rw [draining.slot] at found
  rw [expected]
  exact other entry found

/-- `send_ack` is called with a window that `pkt_set_window` accepts. -/
theorem Draining.window_accepted {held : Nat → Option (List Byte)} {i fuel first : Nat}
    {items : List Ref} {state : RecvState Ref}
    (draining : Draining deref held i fuel first items state) :
    (Site.sendAck state.lastack state.windowSize : Site Ref).Safe deref := by
  have short := draining.length
  have room := draining.room
  apply SelectiveRepeat.window_accepted
  · rw [draining.window]
    omega
  · rw [draining.window]
    omega

/-- Where the draining loop stops, its one call is safe. -/
theorem drainSites_stops_safe {held : Nat → Option (List Byte)} {i fuel first : Nat}
    {items : List Ref} {state : RecvState Ref}
    (draining : Draining deref held i fuel first items state)
    (other : ∀ entry ∈ items.head?, pktGetSeqnum (deref entry) ≠ first % 256) :
    ∀ site ∈ drainSites deref (fuel + 1) i state, site.Safe deref := by
  rw [drainSites_stops draining other]
  intro site listed
  rcases List.mem_pair.mp listed with rfl | rfl
  · exact draining.window_accepted
  · rfl

/-- The draining loop has a window to advertise at every index, and ends with a break:
induction on the number of indices the window still allows. -/
theorem drainSites_safe {held : Nat → Option (List Byte)} {i fuel first : Nat} {items : List Ref}
    {state : RecvState Ref} (draining : Draining deref held i fuel first items state) :
    ∀ site ∈ drainSites deref (fuel + 1) i state, site.Safe deref := by
  induction fuel generalizing i first items state with
  | zero =>
    apply drainSites_stops_safe draining
    have empty : items = [] := List.length_eq_zero_iff.mp (by have := draining.length; omega)
    simp [empty]
  | succ fuel inductionHypothesis =>
    cases present : held first with
    | none => exact drainSites_stops_safe draining (draining.gap present)
    | some payload =>
      obtain ⟨entry, rest, rfl, expected⟩ := draining.front present
      obtain ⟨_, next⟩ := draining.advance present
      rw [drainSites, draining.slot]
      simp only [List.head?_cons, expected, if_true]
      intro site listed
      rcases List.mem_cons.mp listed with rfl | later
      · exact next.window_accepted
      · exact inductionHypothesis next site later

/-- The branch of the expected packet is safe. -/
theorem deliverSites_safe {before : Reassembly31} {state : RecvState Ref}
    (represents : Represents deref before state) :
    ∀ site ∈ deliverSites deref state, site.Safe deref := by
  obtain ⟨_, _, _, _, draining⟩ := represents.draining
  rw [deliverSites, removeFromBuffer_keeps represents]
  intro site listed
  rcases List.mem_cons.mp listed with rfl | later
  · exact fun entry front => represents.unexpected front
  · exact drainSites_safe draining site later

/-- A buffer of thirty packets has every number behind the expected one. -/
theorem Represents.full {before : Reassembly31} {state : RecvState Ref}
    (represents : Represents deref before state) (full : before.count = 30) {pkt : Ref}
    {ahead : Nat} (place : distance 256 before.delivered (pktGetSeqnum (deref pkt)) = ahead)
    (inside : 0 < ahead ∧ ahead < 31) :
    ∃ entry ∈ state.receiveBuffer.reduceOption,
      pktGetSeqnum (deref entry) = pktGetSeqnum (deref pkt) := by
  obtain ⟨items, packing, labels⟩ := represents.buffer
  have held := scan_full before.held full (before.delivered + ahead) (by omega) (by omega)
  obtain ⟨payload, present⟩ := Option.ne_none_iff_exists'.mp held
  have entered : (before.delivered + ahead, payload) ∈ before.entries :=
    mem_entries.mpr ⟨by omega, present⟩
  have labelled : shown (before.delivered + ahead, payload) ∈ items.map (label deref) :=
    labels ▸ List.mem_map_of_mem entered
  obtain ⟨entry, listed, same⟩ := List.mem_map.mp labelled
  rw [packing, reduceOption_packed]
  refine ⟨entry, listed, ?_⟩
  have number : pktGetSeqnum (deref entry) = (before.delivered + ahead) % 256 :=
    congrArg Prod.fst same
  rw [number, ← place, start_add_distance (by decide)]
  exact Nat.mod_eq_of_lt (deref pkt).seqnum.isLt

/-- An insertion of a packet behind the expected one is safe. -/
theorem insertSite_safe {before : Reassembly31} {state : RecvState Ref}
    (represents : Represents deref before state) (pkt : Ref) {ahead : Nat}
    (place : distance 256 before.delivered (pktGetSeqnum (deref pkt)) = ahead)
    (inside : 0 < ahead ∧ ahead < 31) :
    (Site.insertPkt state.lastack state.receiveBuffer pkt state.windowSize).Safe deref := by
  rw [Site.Safe]
  rcases represents.inserts pkt with ⟨_, inserts⟩ | ⟨absent, result, inserts, fits, permuted⟩
  · rw [inserts]
    constructor
    · exact fun _ => ⟨rfl, rfl⟩
    · exact List.perm_append_singleton pkt _
  · rw [inserts]
    constructor
    · intro crowded
      have longer := permuted.length_eq
      have counted := represents.counted
      have size : before.count ≤ 30 := entries_bounded before
      obtain ⟨entry, listed, same⟩ := represents.full (by omega) place inside
      exact absurd same (absent entry listed)
    · rw [reduceOption_packed]
      simpa [released] using permuted

/-- Every place of a pass is safe in a represented state. -/
theorem passSites_safe (host : Host) (allocator : Allocator deref) (ambient : Ambient)
    (result : Option (List Byte)) {before : Reassembly31} {state : RecvState Ref}
    (represents : Represents deref before state) :
    ∀ site ∈ passSites deref host allocator ambient result state, site.Safe deref := by
  have kept := represents.read (readInto maxSduSize result state.pktBuffer)
  have window := represents.window
  have size : before.count ≤ 30 := entries_bounded before
  intro site listed
  rw [passSites] at listed
  dsimp only at listed
  split at listed
  case isTrue => simp at listed
  case isFalse =>
    revert listed
    generalize allocator.alloc _ = pkt
    intro listed
    have number : pktGetSeqnum (deref pkt) < 256 := (deref pkt).seqnum.isLt
    have tested := compare_expected state.lastack _ represents.bounded number
    rw [represents.offset] at tested
    rw [handleSites] at listed
    dsimp only at listed
    rw [tested] at listed
    split at listed
    case isFalse => simp at listed
    case isTrue within =>
      split at listed
      case isTrue =>
        split at listed
        case isTrue =>
          obtain rfl := List.mem_singleton.mp listed
          apply SelectiveRepeat.window_accepted
          · omega
          · omega
        case isFalse => simp at listed
      case isFalse =>
        split at listed
        case isTrue => exact deliverSites_safe kept site listed
        case isFalse other =>
          obtain rfl := List.mem_singleton.mp listed
          apply insertSite_safe kept pkt rfl
          constructor
          · -- at distance 0 it would be the expected packet
            apply Nat.pos_of_ne_zero
            intro next
            have arrives := start_add_distance (show 0 < 256 by decide) before.delivered
              (pktGetSeqnum (deref pkt))
            rw [next, Nat.mod_eq_of_lt number] at arrives
            rw [represents.expected] at other
            exact other arrives.symm
          · simpa using within

/-- No run of the receiver comes to an unsafe place: in no pass from a reached head of
the loop does the removal find something, an insertion fill the last slot or lose a
packet, the draining loop run out of indices, or an answer have a refused window.

Every reached state represents an abstract receiver that holds at most 30 packets, none of
them the expected one. With that each call of a pass is safe where it stands. -/
theorem unsafe_branches_unreachable (host : Host) (state : RecvState Pkt)
    (reached : Reached host state) (arrival : Arrival) :
    ∀ site ∈ passSites id host Allocator.values arrival.ambient arrival.result state,
      site.Safe id := by
  obtain ⟨before, represents⟩ := reached.represents
  exact passSites_safe host Allocator.values arrival.ambient arrival.result represents

/-- A packet ahead of the expected one is held. -/
theorem quietArrival_holds {before : Reassembly31} {number : Nat}
    (ahead : before.delivered < number ∧ number < before.delivered + 31) :
    reassemble before (acceptedPacket zlibHost (quietArrival (BitVec.ofNat 8 number)).result) =
      before.hold number highPkt.body ahead := by
  have accepted : acceptedPacket zlibHost (quietArrival (BitVec.ofNat 8 number)).result =
      some ((BitVec.ofNat 8 number).toNat, highPkt.body) :=
    acceptedPacket_wire zlibHost _ (highPkt_numbered _)
  have place : before.delivered + distance 256 before.delivered (number % 256) = number := by
    rw [distance_ahead (by decide) (by omega) (by omega)]
    omega
  rw [accepted, BitVec.toNat_ofNat, reassemble, Reassembler.accept, place,
    Reassembler.offer, if_neg (by omega), dif_pos ahead]

/-- The packets from the one behind the expected packet up to a number. -/
def quietArrivals (last : Nat) : List Arrival :=
  (List.range' 1 last).map fun number => quietArrival (BitVec.ofNat 8 number)

/-- They are all held: each of them takes its place, and the others keep theirs. -/
theorem quietArrivals_held (last : Nat) (few : last ≤ 30) :
    (reassembled zlibHost (start 31 (List Byte)) (quietArrivals last)).delivered = 0 ∧
      ∀ index, 1 ≤ index → index < 1 + last →
        (reassembled zlibHost (start 31 (List Byte)) (quietArrivals last)).held index ≠ none := by
  induction last with
  | zero => exact ⟨rfl, fun index low high => by omega⟩
  | succ last inductionHypothesis =>
    obtain ⟨delivered, held⟩ := inductionHypothesis (by omega)
    have ahead : (reassembled zlibHost (start 31 (List Byte)) (quietArrivals last)).delivered <
        1 + last ∧ 1 + last < (reassembled zlibHost (start 31 (List Byte))
          (quietArrivals last)).delivered + 31 := by omega
    have step : reassembled zlibHost (start 31 (List Byte)) (quietArrivals (last + 1)) =
        (reassembled zlibHost (start 31 (List Byte)) (quietArrivals last)).hold (1 + last)
          highPkt.body ahead := by
      rw [quietArrivals, List.range'_1_concat, List.map_append, reassembled, List.foldl_append]
      exact quietArrival_holds ahead
    rw [step]
    refine ⟨delivered, ?_⟩
    intro index low high
    by_cases newest : index = 1 + last
    · simp [Reassembler.hold, newest]
    · simpa [Reassembler.hold, newest] using held index low (by omega)

/-- Packets 1 to 30 arrive before packet 0 and fill the buffer; the next pass is safe
whatever its number. -/
theorem full_buffer_safe : ∃ state, Reached zlibHost state ∧
    state.receiveBuffer.reduceOption.length = 30 ∧
    ∀ number, ∀ site ∈ passSites id zlibHost Allocator.values (quietArrival number).ambient
      (quietArrival number).result state, site.Safe id := by
  obtain ⟨state, passes, runs, represents, _⟩ :=
    selRepeatRead_runs zlibHost (quietArrivals 30) (represents_start fun _ => 0)
  have reached : Reached zlibHost state := ⟨_, _, passes, runs⟩
  obtain ⟨delivered, held⟩ := quietArrivals_held 30 (Nat.le_refl _)
  refine ⟨state, reached, ?_, ?_⟩
  · rw [represents.counted, Reassembler.count, Reassembler.entries, delivered]
    exact scan_whole _ _ _ held
  · exact fun number => unsafe_branches_unreachable zlibHost state reached (quietArrival number)

end SelectiveRepeat
