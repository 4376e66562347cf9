import SelectiveRepeat.Sender.Invariant

/-!
# Timers and retransmissions

A packet is sent when it is built, when a scan finds that its timer has expired, and for
each negative acknowledgement of it, and never otherwise. Its timer starts at the first
of these and anew at each other one.

All times are whole seconds, as in the code: it keeps `tv_sec` of each reading of the
clock and drops the rest. A timer expires when two such readings differ by more than
five, which may be anything from just above five seconds on. Between the readings a
packet was sent again, then, there are differences of at least six, and after a scan has
passed a packet over, the reading before that scan was at most five above its start.
-/

namespace SelectiveRepeat

open PackedSlots Transition

/-- The start of the timer in a slot of the window. -/
def startIn (window : List (Option PktTimer)) (i : Nat) : Option Int :=
  (slot window i).map PktTimer.start

/-- A timer that is read has its start. -/
theorem timerAt_start {window : List (Option PktTimer)} {i : Nat} {element : PktTimer}
    (reads : timerAt window i = .ok element) : startIn window i = some element.start := by
  rw [timerAt, Int.toNat_natCast] at reads
  split at reads
  · cases found : slot window i with
    | none => simp [found] at reads
    | some other =>
      rw [found] at reads
      cases reads
      rw [startIn, found, Option.map_some]
  · cases reads

/-- A store changes the start in its slot, and in no other. -/
theorem setTimer_start {window next : List (Option PktTimer)} {i : Int} {element : PktTimer}
    (stores : setTimer window i element = .ok next) (tested : Nat) :
    startIn next tested = if (tested : Int) = i then some element.start
      else startIn window tested := by
  rw [setTimer] at stores
  split at stores
  case isTrue inside =>
    cases stores
    have same : tested = i.toNat ↔ (tested : Int) = i := by omega
    rw [startIn, slot_set window i.toNat tested _ (by omega)]
    simp only [same]
    split <;> rfl
  case isFalse => cases stores

/-- A timer of the queue is in its slot. -/
theorem Queued.startIn {timers : List PktTimer} {state : SendState} (queued : Queued timers state)
    {i : Nat} (inside : i < timers.length) :
    startIn state.window i = (timers[i]?).map PktTimer.start := by
  obtain ⟨rest, window⟩ := queued.window
  rw [SelectiveRepeat.startIn, window, slot_items_append, if_pos inside]

/-! ## The scan -/

/-- What the scan of `count` slots from `first` on does when it sends the packets in the
slots `fired`: their timers had expired, and start anew; the others had not. -/
structure Fired (first count : Nat) (state last : SendState) (fired : List Nat) : Prop where
  ascending : fired.Pairwise (· < ·)
  within : ∀ i ∈ fired, first ≤ i ∧ i < first + count
  later : state.clock ≤ last.clock
  overdue : ∀ i ∈ fired, ∃ start again, startIn state.window i = some start ∧
    startIn last.window i = some again ∧ start + 6 ≤ again ∧ state.clock ≤ again ∧
    again ≤ last.clock
  kept : ∀ i, i ∉ fired → startIn last.window i = startIn state.window i
  recent : ∀ i, first ≤ i → i < first + count → i ∉ fired →
    ∃ start, startIn state.window i = some start ∧ state.clock ≤ start + 5

section Fired
variable {first remaining : Nat} {state middle last : SendState} {fired : List Nat}
  {start again : Int}

/-- The timer of the first slot has expired: its packet is sent, and it starts anew. -/
theorem Fired.expired (rest : Fired (first + 1) remaining middle last fired)
    (started : startIn state.window first = some start)
    (changed : ∀ i : Nat, startIn middle.window i = if (i : Int) = first then some again
      else startIn state.window i)
    (gap : start + 6 ≤ again) (low : state.clock ≤ again) (high : again ≤ middle.clock) :
    Fired first (remaining + 1) state last (first :: fired) := by
  have behind : first ∉ fired := fun listed => by
    have bounds := rest.within first listed
    omega
  have passes := rest.later
  refine ⟨?_, ?_, by omega, ?_, ?_, ?_⟩
  · refine List.pairwise_cons.mpr ⟨fun i listed => ?_, rest.ascending⟩
    exact (rest.within i listed).1
  · intro i listed
    rcases List.mem_cons.mp listed with rfl | inside
    · omega
    · have bounds := rest.within i inside
      omega
  · intro i listed
    rcases List.mem_cons.mp listed with rfl | inside
    · refine ⟨start, again, started, ?_, gap, low, by omega⟩
      rw [rest.kept i behind, changed, if_pos rfl]
    · obtain ⟨earlier, anew, before, after, wait, below, above⟩ := rest.overdue i inside
      have other : (i : Int) ≠ first := by
        rintro same
        exact behind (Int.natCast_inj.mp same ▸ inside)
      rw [changed, if_neg other] at before
      exact ⟨earlier, anew, before, after, wait, by omega, above⟩
  · intro i unlisted
    rw [List.mem_cons, not_or] at unlisted
    rw [rest.kept i unlisted.2, changed, if_neg (fun same => unlisted.1 (by omega))]
  · intro i below above unlisted
    rw [List.mem_cons, not_or] at unlisted
    obtain ⟨earlier, before, fresh⟩ := rest.recent i (by omega) (by omega) unlisted.2
    rw [changed, if_neg (fun same => unlisted.1 (by omega))] at before
    exact ⟨earlier, before, by omega⟩

/-- The timer of the first slot has not: nothing is sent, and no timer starts. -/
theorem Fired.unexpired (rest : Fired (first + 1) remaining middle last fired)
    (started : startIn state.window first = some start)
    (unchanged : ∀ i, startIn middle.window i = startIn state.window i)
    (recent : state.clock ≤ start + 5) (passes : state.clock ≤ middle.clock) :
    Fired first (remaining + 1) state last fired := by
  have ends := rest.later
  refine ⟨rest.ascending, ?_, by omega, ?_, ?_, ?_⟩
  · intro i listed
    have bounds := rest.within i listed
    omega
  · intro i listed
    obtain ⟨earlier, anew, before, after, wait, below, above⟩ := rest.overdue i listed
    exact ⟨earlier, anew, unchanged i ▸ before, after, wait, by omega, above⟩
  · intro i unlisted
    rw [rest.kept i unlisted]
    exact unchanged i
  · intro i below above unlisted
    by_cases here : i = first
    · subst here
      exact ⟨start, started, recent⟩
    · obtain ⟨earlier, before, fresh⟩ := rest.recent i (by omega) (by omega) unlisted
      exact ⟨earlier, unchanged i ▸ before, by omega⟩

end Fired

/-- The scan fires some slots, as `Fired` says. Induction on the slots that remain, which follows
the loop. -/
theorem timerLoop_fired (host : Host) (ambient : Ambient) (remaining first : Nat)
    {state last : SendState} {sent : List Sent}
    (ends : timerLoop host ambient remaining first state = .ok (last, sent)) :
    ∃ fired : List Nat, sent.map Sent.slot = fired.map Nat.cast ∧
      Fired first remaining state last fired := by
  induction remaining generalizing first state last sent with
  | zero =>
    cases ends
    exact ⟨[], rfl, List.Pairwise.nil, by simp, Int.le_refl _, by simp, fun _ _ => rfl,
      fun i low high => by omega⟩
  | succ remaining inductionHypothesis =>
    rw [timerLoop] at ends
    obtain ⟨element, reads, ends⟩ := run_bind ends
    have started := timerAt_start reads
    dsimp only at ends
    split at ends
    case isTrue lapsed =>
      obtain ⟨data, _, ends⟩ := run_bind ends
      obtain ⟨window, stores, ends⟩ := run_bind ends
      obtain ⟨⟨final, later⟩, loops, same⟩ := run_bind ends
      obtain ⟨rfl, rfl⟩ : final = last ∧ ⟨first, data⟩ :: later = sent := by
        simpa [pure, Except.pure] using same
      obtain ⟨fired, slots, rest⟩ := inductionHypothesis (first + 1) loops
      refine ⟨first :: fired, by rw [List.map_cons, List.map_cons, slots], ?_⟩
      have anew := setTimer_start stores
      dsimp only at anew
      exact rest.expired started anew (by omega) (by omega) (Int.le_refl _)
    case isFalse running =>
      obtain ⟨window, stores, loops⟩ := run_bind ends
      obtain ⟨fired, slots, rest⟩ := inductionHypothesis (first + 1) loops
      -- only `finish` was written
      have unchanged (i : Nat) : startIn window i = startIn state.window i := by
        rw [setTimer_start stores]
        split
        case isTrue same =>
          obtain rfl := Int.natCast_inj.mp same
          exact started.symm
        case isFalse => rfl
      exact ⟨fired, slots, rest.unexpired started unchanged (by omega) (by dsimp only; omega)⟩

/-- The packets sent, counted from the first of the run, are those in the slots that fired. -/
theorem absolute_indices (base : Nat) {sent : List Sent} {slots : List Nat}
    (same : sent.map Sent.slot = slots.map Nat.cast) :
    (absolute base sent).map Prod.fst = slots.map (base + ·) := by
  have indices : (absolute base sent).map Prod.fst =
      (sent.map Sent.slot).map fun slot => ((base : Int) + slot).toNat := by
    rw [absolute, List.map_map, List.map_map]
    rfl
  rw [indices, same, List.map_map]
  apply List.map_congr_left
  intro slot _
  simp only [Function.comp_apply]
  omega

/-- A scan of a run sends the packets of the slots that fired, and nothing else happens
to the packets. -/
theorem scan_fired {host : Host} {run next : SendRun} (inv : SendInv host run) {ambient : Ambient}
    (steps : sendStep host run (.scan ambient) = .ok next) :
    ∃ fired sent, Fired 0 (run.built.length - run.base) run.state next.state fired ∧
      next.log = run.log ++ sent ∧ sent.map Prod.fst = fired.map (run.base + ·) ∧
      next.base = run.base ∧ next.built = run.built := by
  rw [sendStep] at steps
  obtain ⟨⟨state, sent⟩, scans, same⟩ := run_bind steps
  cases same
  rw [scanTimers, inv.index.1, Int.toNat_natCast] at scans
  obtain ⟨fired, slots, fires⟩ := timerLoop_fired host ambient _ 0 scans
  exact ⟨fired, _, fires, rfl, absolute_indices run.base slots, rfl, rfl⟩

/-! ## The other parts of a pass -/

/-- A read starts the timer of the packet it builds. -/
theorem read_started {host : Host} {run next : SendRun} (inv : SendInv host run)
    {ambient : Ambient} {chunk : List Byte}
    (steps : sendStep host run (.read ambient chunk) = .ok next) :
    run.state.clock ≤ next.state.clock ∧
      ∀ i, startIn next.state.window i = if i = run.built.length - run.base
        then some next.state.clock else startIn run.state.window i := by
  rw [sendStep] at steps
  obtain ⟨⟨state, sent⟩, reads, same⟩ := run_bind steps
  cases same
  rw [readInput] at reads
  obtain ⟨data, _, reads⟩ := run_bind reads
  obtain ⟨window, stores, same⟩ := run_bind reads
  cases same
  refine ⟨by simp only; omega, fun i => ?_⟩
  rw [inv.index.1] at stores
  simp only [setTimer_start stores, Int.natCast_inj]

/-- An acknowledgement moves the timers of what it leaves to the front. -/
theorem ack_moved {host : Host} {run next : SendRun} (inv : SendInv host run) {ambient : Ambient}
    {index window : Nat} {datagram : List Byte}
    (between : run.base ≤ index ∧ index ≤ run.built.length)
    (announces : Announces host datagram ptypeAck (index % 256) window)
    (steps : sendStep host run (.ack ambient index datagram) = .ok next) :
    next.base = index ∧ next.built = run.built ∧ next.log = run.log ∧
      next.state.clock = run.state.clock ∧
      ∀ i < run.built.length - index,
        startIn next.state.window i = startIn run.state.window (index - run.base + i) := by
  obtain ⟨timers, queued, packets⟩ := inv.queue
  have size := timers_length packets
  have short := queued.short
  have number := inv.number
  obtain ⟨slots, serves, moved⟩ := readSocket_ack host ambient queued announces
    (Nat.mod_lt _ (by decide)) (index - run.base) (by omega) (by rw [number]; omega)
  obtain ⟨served, again, rfl⟩ := ack_served steps
  obtain rfl := Except.ok.inj (serves.symm.trans again)
  refine ⟨rfl, rfl, by simp [absolute], rfl, fun i inside => ?_⟩
  rw [queued.startIn (by omega), moved.startIn (by rw [List.length_drop]; omega),
    List.getElem?_drop]

/-- A negative acknowledgement starts one timer anew, and none of them goes back. -/
theorem nack_restarted {host : Host} {run next : SendRun} (inv : SendInv host run)
    (running : run.exited = false) {ambient : Ambient} {index window : Nat} {datagram : List Byte}
    (between : run.base ≤ index ∧ index < run.built.length)
    (announces : Announces host datagram ptypeNack (index % 256) window)
    (steps : sendStep host run (.nack ambient index datagram) = .ok next) :
    next.base = run.base ∧ next.built = run.built ∧
      next.log.map Prod.fst = run.log.map Prod.fst ++ [index] ∧
      run.state.clock ≤ next.state.clock ∧
      ∀ i < run.built.length - run.base, ∃ start again, startIn run.state.window i = some start ∧
        startIn next.state.window i = some again ∧ start ≤ again := by
  obtain ⟨slots, clock, pkt, _, exact, _⟩ := nack_step host ambient inv running between announces
  obtain ⟨served, serves, same⟩ := nack_served steps
  obtain rfl := Except.ok.inj (exact.symm.trans steps)
  have state := congrArg SendRun.state same
  dsimp only at state
  obtain ⟨packet, _, _, _, answers⟩ := readSocket_answer host ambient announces run.state
  rw [answers, if_neg (by decide), if_pos rfl, handleNack] at serves
  obtain ⟨element, reads, serves⟩ := run_bind serves
  obtain ⟨data, _, serves⟩ := run_bind serves
  obtain ⟨stored, stores, done⟩ := run_bind serves
  cases done
  have passes : clock = run.state.clock + ambient.elapsed 63 := congrArg SendState.clock state
  have written : slots = stored := congrArg SendState.window state
  subst written
  refine ⟨rfl, rfl, by rw [List.map_append]; rfl, by dsimp only; omega, ?_⟩
  intro i inside
  obtain ⟨timers, queued, packets⟩ := inv.queue
  have size := timers_length packets
  have here : i < timers.length := by omega
  have before := queued.startIn here
  rw [List.getElem?_eq_getElem here, Option.map_some] at before
  have started := queued.started timers[i] (List.getElem_mem here)
  have changed := setTimer_start stores i
  split at changed
  case isTrue => exact ⟨_, _, before, changed, by dsimp only; omega⟩
  case isFalse => exact ⟨_, _, before, changed.trans before, Int.le_refl _⟩

/-! ## Timed runs -/

/-- A run of the sender, with the clock in seconds at the building of each packet, and the
indices of what was sent again: for expired timers, and for negative acknowledgements. -/
structure TimedRun where
  run : SendRun
  builtAt : List Int
  expired : List Nat
  asked : List Nat

/-- After a part of a pass that ends in `next`. -/
def TimedRun.after (timed : TimedRun) (next : SendRun) : SendLabel → TimedRun
  | .scan _ => { timed with
      run := next
      expired := timed.expired ++ (next.log.drop timed.run.log.length).map Prod.fst }
  | .read _ _ => { timed with run := next, builtAt := timed.builtAt ++ [next.state.clock] }
  | .ack _ _ _ => { timed with run := next }
  | .nack _ index _ => { timed with run := next, asked := timed.asked ++ [index] }

/-- The sender with its history of transmissions. -/
def timedSystem (host : Host) : System TimedRun SendLabel where
  initial timed := ∃ junk clock, timed = ⟨sendRunStart junk clock, [], [], []⟩
  step before label after := ∃ next,
    (sendSystem host).step before.run label next ∧ after = before.after next label

/-- The packet of `index` was built at `date`, and sent again by scans only so often that
six seconds, by the readings of the clock, fit between, up to `now`. -/
def Paced (timed : TimedRun) (index : Nat) (date now : Int) : Prop :=
  timed.builtAt[index]? = some date → date + 6 * timed.expired.count index ≤ now

/-- The invariant of timed runs. Every packet was sent once for its building, once for each expiry
of its timer and once for each negative answer, and at no other time. Six seconds for each expiry
fit between the date it was built and the clock, and for a packet that waits between that date and
the last start of its timer. -/
structure TimedInv (host : Host) (timed : TimedRun) : Prop where
  run : SendInv host timed.run
  dated : timed.builtAt.length = timed.run.built.length
  sends : ∀ index, (timed.run.log.map Prod.fst).count index =
    (if index < timed.run.built.length then 1 else 0) + timed.expired.count index +
      timed.asked.count index
  past : ∀ index date, Paced timed index date timed.run.state.clock
  waiting : ∀ i date, ∀ start ∈ startIn timed.run.state.window i,
    Paced timed (timed.run.base + i) date start

/-- Nothing was sent, and no timer runs. -/
theorem timedStart_inv (host : Host) (junk : Nat → Byte) (clock : Int) :
    TimedInv host ⟨sendRunStart junk clock, [], [], []⟩ where
  run := sendRunStart_inv host junk clock
  dated := rfl
  sends := by simp [sendRunStart]
  past := by simp [Paced]
  waiting := by simp [Paced]

section Steps
variable {host : Host} {timed : TimedRun} {next : SendRun}

/-- Only packets that were built have dates. -/
theorem TimedInv.inside (inv : TimedInv host timed) {index : Nat} {date : Int}
    (built : timed.builtAt[index]? = some date) : index < timed.run.built.length := by
  rw [← inv.dated]
  exact (List.getElem?_eq_some_iff.mp built).1

/-- What is not built yet was never sent. -/
theorem TimedInv.unsent (inv : TimedInv host timed) :
    timed.expired.count timed.run.built.length = 0 ∧
      timed.asked.count timed.run.built.length = 0 := by
  have sends := inv.sends timed.run.built.length
  have never : (timed.run.log.map Prod.fst).count timed.run.built.length = 0 := by
    rw [List.count_eq_zero]
    intro listed
    obtain ⟨entry, logged, same⟩ := List.mem_map.mp listed
    obtain ⟨pkt, found, _⟩ := inv.run.log entry logged
    have inside := (List.getElem?_eq_some_iff.mp found).1
    omega
  omega

/-- The scan starts anew what it fires, at least six seconds after its last start, -/
theorem TimedInv.scanned (inv : TimedInv host timed) {ambient : Ambient}
    (steps : sendStep host timed.run (.scan ambient) = .ok next) (kept : SendInv host next) :
    TimedInv host (timed.after next (.scan ambient)) := by
  obtain ⟨fired, sent, fires, logged, indices, base, built⟩ := scan_fired inv.run steps
  have more : timed.after next (.scan ambient) = { timed with
      run := next
      expired := timed.expired ++ fired.map (timed.run.base + ·) } := by
    rw [TimedRun.after, logged, List.drop_left, indices]
  have once : (fired.map (timed.run.base + ·)).Nodup :=
    (fires.ascending.imp Nat.ne_of_lt).map _ fun _ _ different same => different (by omega)
  have counted (index : Nat) : (timed.expired ++ fired.map (timed.run.base + ·)).count index =
      timed.expired.count index + if index ∈ fired.map (timed.run.base + ·) then 1 else 0 := by
    rw [List.count_append, once.count]
  -- a timer that fired was at least six seconds old
  have again {i : Nat} (listed : i ∈ fired) {date : Int}
      (dated : timed.builtAt[timed.run.base + i]? = some date) :
      ∃ start, startIn next.state.window i = some start ∧
        date + 6 * (timed.expired.count (timed.run.base + i) + 1) ≤ start ∧
        start ≤ next.state.clock := by
    obtain ⟨start, again, before, after, gap, _, high⟩ := fires.overdue i listed
    have paced := inv.waiting i date start before dated
    exact ⟨again, after, by omega, high⟩
  rw [more]
  refine ⟨kept, ?_, fun index => ?_, fun index date dated => ?_, fun i date start found dated => ?_⟩
  · rw [built]
    exact inv.dated
  · have sends := inv.sends index
    simp only [counted, logged, List.map_append, indices, List.count_append, once.count, built]
    omega
  · have paced := inv.past index date dated
    have later := fires.later
    simp only [counted]
    split
    case isTrue listed =>
      obtain ⟨i, member, rfl⟩ := List.mem_map.mp listed
      obtain ⟨start, _, gap, high⟩ := again member dated
      omega
    case isFalse => omega
  · simp only [base] at found dated
    simp only [counted, base]
    by_cases listed : i ∈ fired
    · obtain ⟨other, here, gap, _⟩ := again listed dated
      obtain rfl : other = start := Option.some.inj (here.symm.trans found)
      rw [if_pos (List.mem_map_of_mem listed)]
      omega
    · have absent : timed.run.base + i ∉ fired.map (timed.run.base + ·) := by
        simpa using listed
      rw [fires.kept i listed] at found
      have paced := inv.waiting i date start found dated
      rw [if_neg absent]
      omega

/-- a read of the input starts one timer more, -/
theorem TimedInv.read (inv : TimedInv host timed) {ambient : Ambient} {chunk : List Byte}
    (enabled : Enabled timed.run (.read ambient chunk))
    (steps : sendStep host timed.run (.read ambient chunk) = .ok next) (kept : SendInv host next) :
    TimedInv host (timed.after next (.read ambient chunk)) := by
  obtain ⟨later, started⟩ := read_started inv.run steps
  obtain ⟨other, same, _, base, _, _, _, pkt, built, logged⟩ :=
    read_step host ambient inv.run enabled.2.1 chunk enabled.2.2
  obtain rfl : other = next := Except.ok.inj (same.symm.trans steps)
  obtain ⟨unexpired, unasked⟩ := inv.unsent
  have behind := inv.run.behind
  -- the date of an index is an old one, or that of the new packet
  have dates {index : Nat} {date : Int}
      (dated : (timed.builtAt ++ [other.state.clock])[index]? = some date) :
      timed.builtAt[index]? = some date ∨
        (index = timed.run.built.length ∧ date = other.state.clock) := by
    rw [← inv.dated]
    exact found_append dated
  refine ⟨kept, ?_, fun index => ?_, fun index date dated => ?_, fun i date start found dated => ?_⟩
  · simp only [TimedRun.after, built, List.length_append, List.length_singleton, inv.dated]
  · have sends := inv.sends index
    simp only [TimedRun.after, logged, built, List.map_append, List.map_singleton,
      List.count_append, List.count_singleton, List.length_append, List.length_singleton,
      beq_iff_eq]
    split_ifs at sends ⊢ <;> omega
  · simp only [TimedRun.after] at dated ⊢
    rcases dates dated with old | ⟨rfl, rfl⟩
    · have paced := inv.past index date old
      omega
    · omega
  · simp only [TimedRun.after, base] at found dated ⊢
    rw [Option.mem_def, started] at found
    rcases dates dated with old | ⟨new, rfl⟩
    · have inside := inv.inside old
      rw [if_neg (by omega)] at found
      exact inv.waiting i date start found old
    · rw [if_pos (by omega)] at found
      obtain rfl := Option.some.inj found
      rw [new]
      omega

/-- an acknowledgement moves those behind it to the front, -/
theorem TimedInv.acked (inv : TimedInv host timed) {ambient : Ambient} {index : Nat}
    {datagram : List Byte} (admissible : Admissible host timed.run (.ack ambient index datagram))
    (steps : sendStep host timed.run (.ack ambient index datagram) = .ok next)
    (kept : SendInv host next) :
    TimedInv host (timed.after next (.ack ambient index datagram)) := by
  obtain ⟨between, window, announces⟩ := admissible
  obtain ⟨base, built, logged, clock, moved⟩ := ack_moved inv.run between announces steps
  refine ⟨kept, ?_, fun other => ?_, fun other date dated => ?_, fun i date start found dated => ?_⟩
  · rw [TimedRun.after, built]
    exact inv.dated
  · simp only [TimedRun.after, logged, built]
    exact inv.sends other
  · simp only [TimedRun.after, clock]
    exact inv.past other date dated
  · simp only [TimedRun.after, base] at found dated ⊢
    have inside := inv.inside dated
    have position : timed.run.base + (index - timed.run.base + i) = index + i := by omega
    rw [Option.mem_def, moved i (by omega)] at found
    have paced := inv.waiting _ date start found
    rw [Paced, position] at paced
    exact paced dated

/-- and a negative one starts its packet's anew. -/
theorem TimedInv.nacked (inv : TimedInv host timed) {ambient : Ambient} {index : Nat}
    {datagram : List Byte} (running : timed.run.exited = false)
    (admissible : Admissible host timed.run (.nack ambient index datagram))
    (steps : sendStep host timed.run (.nack ambient index datagram) = .ok next)
    (kept : SendInv host next) :
    TimedInv host (timed.after next (.nack ambient index datagram)) := by
  obtain ⟨between, window, announces⟩ := admissible
  obtain ⟨base, built, logged, later, restarted⟩ :=
    nack_restarted inv.run running between announces steps
  refine ⟨kept, ?_, fun other => ?_, fun other date dated => ?_, fun i date start found dated => ?_⟩
  · rw [TimedRun.after, built]
    exact inv.dated
  · have sends := inv.sends other
    simp only [TimedRun.after, logged, built, List.count_append]
    omega
  · have paced := inv.past other date dated
    simp only [TimedRun.after]
    omega
  · simp only [TimedRun.after, base] at found dated ⊢
    have inside := inv.inside dated
    obtain ⟨earlier, again, before, after, less⟩ := restarted i (by omega)
    obtain rfl : again = start := Option.some.inj (after.symm.trans found)
    have paced := inv.waiting i date earlier before dated
    omega

end Steps

/-- The invariant holds in every reachable state; the steps are those of the sender. -/
theorem reachable_timed {host : Host} {timed : TimedRun}
    (reached : (timedSystem host).Reachable timed) : TimedInv host timed := by
  refine System.reachable_invariant ?_ ?_ reached
  · rintro first ⟨junk, clock, rfl⟩
    exact timedStart_inv host junk clock
  · rintro before label after inv ⟨next, ⟨enabled, admissible, steps⟩, rfl⟩
    obtain ⟨other, same, kept⟩ := sendStep_keeps host inv.run label enabled admissible
    obtain rfl : other = next := Except.ok.inj (same.symm.trans steps)
    cases label with
    | scan ambient => exact inv.scanned steps kept
    | read ambient chunk => exact inv.read enabled steps kept
    | ack ambient index datagram => exact inv.acked admissible steps kept
    | nack ambient index datagram => exact inv.nacked enabled admissible steps kept

/-! ## Retransmissions -/

/-- Each packet was sent once for its building, and once for each time its timer expired
and for each negative acknowledgement of it. However long it waits, the clock, read in
whole seconds, shows six more for each expiry than when the packet was built.

Both are kept by every step, so that `reachable_timed` gives them for every run: a scan
records as expired exactly what it sends, and starts such a timer at least six seconds
after its last start. -/
theorem transmissions_paced (host : Host) (timed : TimedRun)
    (reached : (timedSystem host).Reachable timed) (index : Nat) (date : Int)
    (built : timed.builtAt[index]? = some date) :
    (timed.run.log.map Prod.fst).count index =
        1 + timed.expired.count index + timed.asked.count index ∧
      date + 6 * timed.expired.count index ≤ timed.run.state.clock := by
  have inv := reachable_timed reached
  have sends := inv.sends index
  rw [if_pos (inv.inside built)] at sends
  exact ⟨sends, inv.past index date built⟩

/-- A step of the sender, with what it adds to the records. -/
theorem timed_step {host : Host} {timed : TimedRun} {next : SendRun} (label : SendLabel)
    (reached : (timedSystem host).Reachable timed) (enabled : Enabled timed.run label)
    (admissible : Admissible host timed.run label)
    (steps : sendStep host timed.run label = .ok next) :
    (timedSystem host).Reachable (timed.after next label) := by
  have step : (timedSystem host).step timed label (timed.after next label) :=
    ⟨next, ⟨enabled, admissible, steps⟩, rfl⟩
  exact System.reachable_step reached step

/-- Six seconds pass before each reading of the clock. -/
def sixSeconds : Ambient := { quietAmbient with elapsed := fun _ => 6 }

/-- A chunk is read, and the next scan finds the timer of its packet expired. -/
theorem expired_run : ∃ (first next : SendRun) (datagram : List Byte),
    (sendSystem zlibHost).Reachable first ∧
    (timedSystem zlibHost).Reachable ⟨first, [first.state.clock], [], []⟩ ∧
    first.exited = false ∧ sendStep zlibHost first (.scan sixSeconds) = .ok next ∧
    (0, datagram) ∈ next.log.drop first.log.length := by
  have canRead : CanRead (sendRunStart (fun _ => 0) 0).state := .inl ⟨by decide, rfl⟩
  have timed : (timedSystem zlibHost).Reachable ⟨sendRunStart (fun _ => 0) 0, [], [], []⟩ :=
    System.reachable_initial ⟨_, _, rfl⟩
  have untimed : (sendSystem zlibHost).Reachable (sendRunStart (fun _ => 0) 0) :=
    System.reachable_initial ⟨_, _, rfl⟩
  obtain ⟨first, reads, inv, base, exited, _, _, pkt, built, _⟩ := read_step zlibHost quietAmbient
    (sendRunStart_inv zlibHost (fun _ => 0) 0) canRead [0x41] (by decide)
  have step : (sendSystem zlibHost).step (sendRunStart (fun _ => 0) 0) (.read quietAmbient [0x41])
      first := ⟨⟨rfl, canRead, by decide⟩, trivial, reads⟩
  obtain ⟨state, sent, scans, _, _, slow⟩ := scan_step zlibHost sixSeconds inv
  refine ⟨first, _, wire zlibHost pkt, System.reachable_step untimed step,
    timed_step (.read quietAmbient [0x41]) timed step.1 trivial reads, exited, scans, ?_⟩
  rw [List.drop_left]
  exact slow (fun _ => rfl) 0 pkt (by rw [base]; exact Nat.le_refl _) (by rw [built]; rfl)

/-- The timer of the first packet expires once. -/
theorem transmissions_paced_expired : ∃ (timed : TimedRun) (date : Int), 0 ∈ timed.expired ∧
    (timed.run.log.map Prod.fst).count 0 = 1 + timed.expired.count 0 + timed.asked.count 0 ∧
    date + 6 * timed.expired.count 0 ≤ timed.run.state.clock := by
  obtain ⟨first, next, datagram, _, reached, running, scans, resent⟩ := expired_run
  have later := timed_step (.scan sixSeconds) reached running trivial scans
  exact ⟨_, _, List.mem_append_right _ (List.mem_map_of_mem resent),
    transmissions_paced zlibHost _ later 0 first.state.clock rfl⟩

/-- A scan sends again, with the bytes they were first sent with, each once and in order,
packets whose timers were started six whole seconds before or more, and starts these
anew. Of every other packet in the window, the clock as it was read last before the scan
shows at most five seconds more than the start of its timer.

`scan_fired` says which slots the scan sends; the packets in them are found through the
queue of the sender's invariant. -/
theorem scan_resends_overdue (host : Host) (run next : SendRun)
    (reached : (sendSystem host).Reachable run) (ambient : Ambient)
    (running : run.exited = false) (steps : sendStep host run (.scan ambient) = .ok next) :
    ∃ sent : List (Nat × List Byte), next.log = run.log ++ sent ∧
      (sent.map Prod.fst).Pairwise (· < ·) ∧
      (∀ entry ∈ sent, run.base ≤ entry.1 ∧
        ∃ pkt, run.built[entry.1]? = some pkt ∧ entry.2 = wire host pkt) ∧
      ∀ index, run.base ≤ index → index < run.built.length → ∃ start again,
        startIn run.state.window (index - run.base) = some start ∧
        startIn next.state.window (index - run.base) = some again ∧
        (index ∈ sent.map Prod.fst →
          start + 6 ≤ again ∧ run.state.clock ≤ again ∧ again ≤ next.state.clock) ∧
        (index ∉ sent.map Prod.fst → again = start ∧ run.state.clock ≤ start + 5) := by
  have inv := reachable_inv host reached
  obtain ⟨other, same, kept⟩ := sendStep_keeps host inv (.scan ambient) running trivial
  obtain rfl : other = next := Except.ok.inj (same.symm.trans steps)
  obtain ⟨fired, sent, fires, logged, indices, base, built⟩ := scan_fired inv steps
  have listed (index : Nat) (beyond : run.base ≤ index) :
      index ∈ sent.map Prod.fst ↔ index - run.base ∈ fired := by
    rw [indices, List.mem_map]
    constructor
    · rintro ⟨i, member, rfl⟩
      rwa [Nat.add_sub_cancel_left]
    · exact fun member => ⟨_, member, by omega⟩
  refine ⟨sent, logged, ?_, ?_, ?_⟩
  · rw [indices]
    exact fires.ascending.map _ fun _ _ less => by omega
  · intro entry member
    have index : entry.1 ∈ fired.map (run.base + ·) := indices ▸ List.mem_map_of_mem member
    obtain ⟨i, _, position⟩ := List.mem_map.mp index
    refine ⟨by omega, ?_⟩
    rw [← built]
    exact kept.log entry (logged ▸ List.mem_append_right _ member)
  · intro index beyond below
    rw [listed index beyond]
    by_cases expired : index - run.base ∈ fired
    · obtain ⟨start, again, before, after, gap, low, high⟩ := fires.overdue _ expired
      exact ⟨start, again, before, after, fun _ => ⟨gap, low, high⟩,
        fun other => absurd expired other⟩
    · obtain ⟨start, before, recent⟩ := fires.recent _ (Nat.zero_le _) (by omega) expired
      exact ⟨start, start, before, (fires.kept _ expired).trans before,
        fun other => absurd other expired, fun _ => ⟨rfl, recent⟩⟩

/-- A scan six seconds after a packet was sent: it is sent again. -/
theorem scan_resends_overdue_letter : ∃ (run next : SendRun) (sent : List (Nat × List Byte)),
    sent ≠ [] ∧ next.log = run.log ++ sent ∧ (sent.map Prod.fst).Pairwise (· < ·) := by
  obtain ⟨first, next, datagram, reached, _, running, scans, resent⟩ := expired_run
  obtain ⟨sent, logged, ascending, _⟩ :=
    scan_resends_overdue zlibHost first next reached sixSeconds running scans
  rw [logged, List.drop_left] at resent
  exact ⟨first, next, sent, List.ne_nil_of_mem resent, logged, ascending⟩

end SelectiveRepeat
