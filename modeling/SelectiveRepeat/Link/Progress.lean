import SelectiveRepeat.Link.Invariant

/-!
# What the loops can still do without losses

From a state where the sender runs, steps that lose, cut and corrupt nothing lead on:
pending events can be performed, expired timers resend the window, the next packet can
be delivered, answers can be read, and the input can be read when the window allows.
Each lemma is a short run with its effect.
-/

namespace SelectiveRepeat

open Transition Reassembly

/-- Labels of steps without loss and damage. -/
def Lossless : LinkLabel → Prop
  | .loseDatagram _ => False
  | .loseAnswer _ => False
  | .arrive _ _ .intact => True
  | .arrive _ _ _ => False
  | _ => True

/-- What the bookkeeping between the interesting steps leaves alone. -/
structure Unmoved (link next : Link) : Prop where
  built : next.sender.built = link.sender.built
  base : next.sender.base = link.sender.base
  limited : next.sender.state.limitedWindowSize = link.sender.state.limitedWindowSize
  finish : next.sender.state.finish = link.sender.state.finish
  exited : next.sender.exited = link.sender.exited
  inFlight : inFlight next = inFlight link
  deliveries : deliveries next = deliveries link

/-- Nothing is moved where nothing happens. -/
theorem unmoved_refl (link : Link) : Unmoved link link := ⟨rfl, rfl, rfl, rfl, rfl, rfl, rfl⟩

/-- Two runs that move nothing make one. -/
theorem unmoved_trans {first second third : Link} (front : Unmoved first second)
    (back : Unmoved second third) : Unmoved first third :=
  ⟨back.built.trans front.built, back.base.trans front.base, back.limited.trans front.limited,
    back.finish.trans front.finish, back.exited.trans front.exited,
    back.inFlight.trans front.inFlight, back.deliveries.trans front.deliveries⟩

/-- Time passes quickly: six seconds before each reading of the clock. -/
def slowAmbient : Ambient := ⟨fun _ => blankPkt, fun _ _ => 0, fun _ => 6, 0⟩

variable {host : Host} {input : Input}

/-- A run without losses, with one more step that loses nothing. -/
theorem leads_step {link middle next : Link} {label : LinkLabel}
    (leads : (linkSystem host input).Leads Lossless link middle)
    (step : LinkStep host input middle label next) (permitted : Lossless label) :
    (linkSystem host input).Leads Lossless link next :=
  System.leads_trans leads (System.leads_single label permitted step)

/-- Performing an event only moves it from what is pending to the outside. -/
theorem play_unmoved (link : Link) (event : Event Pkt) (rest : List (Event Pkt))
    (pending : link.pending = event :: rest) :
    Unmoved link (playEvent { link with pending := rest } event) := by
  obtain ⟨flight, delivered⟩ := play_inFlight link event rest pending
  cases event <;> exact ⟨rfl, rfl, rfl, rfl, rfl, flight, delivered⟩

/-- The receiver can finish its pass. -/
theorem playOut {link : Link} (inv : LinkInv host input link) :
    ∃ next, (linkSystem host input).Leads Lossless link next ∧ LinkInv host input next ∧
      Unmoved link next ∧ next.pending = [] ∧ next.scanned = link.scanned := by
  induction pending : link.pending generalizing link with
  | nil => exact ⟨link, System.leads_refl _ link, inv, unmoved_refl link, pending, rfl⟩
  | cons event rest inductionHypothesis =>
    have step : LinkStep host input link .play (playEvent { link with pending := rest } event) :=
      .play link event rest pending
    have shorter : (playEvent { link with pending := rest } event).pending = rest ∧
        (playEvent { link with pending := rest } event).scanned = link.scanned := by
      cases event <;> exact ⟨rfl, rfl⟩
    obtain ⟨next, leads, kept, unmoved, done, scanned⟩ :=
      inductionHypothesis (play_keeps inv event rest pending) shorter.1
    have first := leads_step (System.leads_refl Lossless link) step trivial
    exact ⟨next, System.leads_trans first leads, kept,
      unmoved_trans (play_unmoved link event rest pending) unmoved, done, scanned.trans shorter.2⟩

/-- Both programs can come to the head of their loops. -/
theorem settle {link : Link} (inv : LinkInv host input link)
    (running : link.sender.exited = false) :
    ∃ next, (linkSystem host input).Leads Lossless link next ∧ LinkInv host input next ∧
      Unmoved link next ∧ next.pending = [] ∧ next.scanned = false := by
  obtain ⟨next, leads, kept, unmoved, done, scanned⟩ := playOut inv
  cases waiting : next.scanned with
  | false => exact ⟨next, leads, kept, unmoved, done, waiting⟩
  | true =>
    -- `select` times out
    have step : LinkStep host input next (.select quietAmbient false false) _ :=
      .select next quietAmbient false false next.sender next.sender (unmoved.exited.trans running)
        waiting (by simp) rfl rfl
    refine ⟨_, leads_step leads step trivial, linkStep_keeps kept step,
      unmoved_trans unmoved ?_, done, rfl⟩
    exact ⟨rfl, rfl, rfl, rfl, rfl, rfl, rfl⟩

/-- The sender can come to its `select`, with every packet of the window on its way. -/
theorem resend {link : Link} (inv : LinkInv host input link)
    (running : link.sender.exited = false) :
    ∃ next, (linkSystem host input).Leads Lossless link next ∧ LinkInv host input next ∧
      Unmoved link next ∧ next.pending = [] ∧ next.scanned = true ∧
      ∀ index, next.sender.base ≤ index → index < next.sender.built.length →
        ∃ datagram, (index, datagram) ∈ next.forward := by
  obtain ⟨front, leads, kept, unmoved, done, waiting⟩ := settle inv running
  obtain ⟨sender, scans, after, ⟨base, built, exited, window, clock, same⟩, resends⟩ :=
    scan_keeps kept slowAmbient
  have step : LinkStep host input front (.scan slowAmbient) _ :=
    .scan front slowAmbient sender (unmoved.exited.trans running) waiting scans
  refine ⟨_, leads_step leads step trivial, after, unmoved_trans unmoved ?_, done, rfl, ?_⟩
  · exact ⟨built, base, by rw [same], by rw [same], exited, rfl, rfl⟩
  · intro index beyond inside
    simp only [base, built] at beyond inside
    obtain ⟨datagram, listed⟩ := resends (fun _ => rfl) index beyond inside
    exact ⟨datagram, List.mem_append_right _ listed⟩

/-- An acknowledgement at the end of a pass is about everything delivered in it. -/
theorem answersOf_closing (arrived before : Nat) (front : List (Event Pkt)) (datagram : List Byte)
    (slots : List (Option Pkt)) :
    answersOf arrived before (front ++ [.sendAck datagram slots]) =
      answersOf arrived before front ++ [⟨before + (payloads front).length, true, datagram⟩] := by
  induction front generalizing before with
  | nil => simp [answersOf, payloads]
  | cons event rest inductionHypothesis =>
    cases event with
    | writePayload payload =>
      simp only [List.cons_append, answersOf, inductionHypothesis, payloads, List.filterMap_cons,
        List.length_cons, Nat.add_assoc, Nat.add_comm 1]
    | sendAck other slots =>
      simp only [List.cons_append, answersOf, inductionHypothesis, payloads, List.filterMap_cons]
    | sendNack other slots =>
      simp only [List.cons_append, answersOf, inductionHypothesis, payloads, List.filterMap_cons]
    | pktDel pkt =>
      simp only [List.cons_append, answersOf, inductionHypothesis, payloads, List.filterMap_cons]
    | free pkt =>
      simp only [List.cons_append, answersOf, inductionHypothesis, payloads, List.filterMap_cons]

/-- Everything delivered is acknowledged by an answer in flight. -/
def Confirmed (link : Link) : Prop :=
  ∃ answer ∈ inFlight link, answer.positive = true ∧ answer.about = (deliveries link).length

/-- The next packet can be delivered, and is acknowledged. -/
theorem deliverNext {link : Link} (inv : LinkInv host input link)
    (running : link.sender.exited = false)
    (missing : (deliveries link).length < link.sender.built.length) :
    ∃ next, (linkSystem host input).Leads Lossless link next ∧ LinkInv host input next ∧
      next.sender.exited = false ∧ next.sender.built = link.sender.built ∧
      next.sender.state.finish = link.sender.state.finish ∧
      (deliveries link).length < (deliveries next).length ∧ Confirmed next := by
  obtain ⟨front, leads, kept, unmoved, done, _, resent⟩ := resend inv running
  have written : deliveries front = front.written := by simp [deliveries, done, payloads]
  have count : (deliveries link).length = front.written.length := by
    rw [← unmoved.deliveries, written]
  obtain ⟨datagram, listed⟩ := resent front.written.length kept.heard (by rw [unmoved.built]; omega)
  obtain ⟨position, inside, found⟩ := List.getElem_of_mem listed
  have foundNext : front.forward[position]? = some (front.written.length, datagram) :=
    List.getElem?_eq_some_iff.mpr ⟨inside, found⟩
  obtain ⟨receiver, events, handles, _, closing, delivers, _⟩ := arrive_keeps kept done
    (kept.forward _ listed) (Nat.le_add_right _ _) .intact trivial id quietAmbient
  have delivery := delivers rfl rfl
  obtain ⟨before, last, slots, closes⟩ := closing delivery
  have step : LinkStep host input front (.arrive quietAmbient position .intact) _ :=
    .arrive front quietAmbient position .intact front.written.length datagram receiver events done
      foundNext (Nat.le_add_right _ _) trivial handles
  refine ⟨_, leads_step leads step trivial, linkStep_keeps kept step, unmoved.exited.trans running,
    unmoved.built, unmoved.finish, ?_, ?_⟩
  · have more := List.length_pos_of_ne_nil delivery
    simp only [deliveries, List.length_append] at more ⊢
    simp only [deliveries, List.length_append] at count
    omega
  · refine ⟨⟨front.written.length + (payloads before).length, true, last⟩, ?_, rfl, ?_⟩
    · simp only [inFlight, closes, answersOf_closing]
      exact List.mem_append_right _ (List.mem_append_right _ (List.mem_singleton.mpr rfl))
    · simp [deliveries, closes, payloads]

/-- Everything that was built can be delivered, and is acknowledged. -/
theorem catchUp {link : Link} (inv : LinkInv host input link)
    (running : link.sender.exited = false)
    (missing : (deliveries link).length < link.sender.built.length) :
    ∃ next, (linkSystem host input).Leads Lossless link next ∧
      LinkInv host input next ∧ next.sender.exited = false ∧
      next.sender.built = link.sender.built ∧
      next.sender.state.finish = link.sender.state.finish ∧
      (deliveries next).length = next.sender.built.length ∧ Confirmed next := by
  induction lag : link.sender.built.length - (deliveries link).length using Nat.strongRecOn
    generalizing link with
  | ind lag inductionHypothesis =>
    obtain ⟨next, leads, after, still, same, ended, more, confirmed⟩ :=
      deliverNext inv running missing
    have bounded := after.delivered.2
    by_cases all : (deliveries next).length = next.sender.built.length
    · exact ⟨next, leads, after, still, same, ended, all, confirmed⟩
    · have short : (deliveries next).length < next.sender.built.length := by omega
      obtain ⟨last, rest, kept, runs, built, finish, reached⟩ := inductionHypothesis
        (next.sender.built.length - (deliveries next).length) (by rw [same]; omega) after
          still short rfl
      exact ⟨last, System.leads_trans leads rest, kept, runs, built.trans same, finish.trans ended,
        reached⟩

/-- The first answer in flight can be read. -/
theorem readAnswer {link : Link} (inv : LinkInv host input link)
    (running : link.sender.exited = false) {answer : Answer} {rest : List Answer}
    (first : inFlight link = answer :: rest) :
    ∃ next, (linkSystem host input).Leads Lossless link next ∧ LinkInv host input next ∧
      next.sender.built = link.sender.built ∧
      next.sender.base = answer.baseAfter link.sender.base ∧
      next.sender.state.limitedWindowSize = answer.window host ∧
      next.sender.state.finish = link.sender.state.finish ∧ inFlight next = rest ∧
      deliveries next = deliveries link ∧
      (next.sender.exited = true ↔ answer.positive = true ∧
        answer.about = link.sender.built.length ∧ link.sender.state.finish = 1) := by
  obtain ⟨front, leads, kept, unmoved, done, waiting, _⟩ := resend inv running
  have backward : front.backward = answer :: rest := by
    have flight := unmoved.inFlight.trans first
    simpa [inFlight, done, answersOf] using flight
  have runs := unmoved.exited.trans running
  obtain ⟨last, serves, after, _, built, base, limited, finish, exits⟩ :=
    socketPart_keeps kept runs quietAmbient backward
  have step : LinkStep host input front (.select quietAmbient false true) _ :=
    .select front quietAmbient false true front.sender last runs waiting (by simp) rfl
      (by rw [if_pos rfl, backward]; exact serves)
  refine ⟨_, leads_step leads step trivial, linkStep_keeps kept step, built.trans unmoved.built,
    by simp only [base, unmoved.base], limited, finish.trans unmoved.finish, ?_,
    unmoved.deliveries, by simp only [exits, unmoved.built, unmoved.finish]⟩
  simp [inFlight, backward, done, answersOf]

/-- The input can be read when the window allows it. -/
theorem readMore {link : Link} (inv : LinkInv host input link)
    (running : link.sender.exited = false) (unfinished : link.sender.state.finish = 0)
    (room : ((link.sender.built.length - link.sender.base : Nat) : Int) <
      link.sender.state.limitedWindowSize) :
    ∃ next, (linkSystem host input).Leads Lossless link next ∧ LinkInv host input next ∧
      next.sender.exited = false ∧ next.sender.built.length = link.sender.built.length + 1 ∧
      deliveries next = deliveries link ∧ inFlight next = inFlight link := by
  obtain ⟨front, leads, kept, unmoved, done, waiting, _⟩ := resend inv running
  have runs := unmoved.exited.trans running
  have canRead : CanRead front.sender.state := by
    refine .inl ⟨?_, unmoved.finish.trans unfinished⟩
    rw [kept.sender.index.1, unmoved.built, unmoved.base, unmoved.limited]
    exact room
  obtain ⟨sender, inputs, _, _, _, exited, longer⟩ :=
    inputPart_keeps kept quietAmbient true (fun _ => canRead)
  have step : LinkStep host input front (.select quietAmbient true false) _ :=
    .select front quietAmbient true false sender sender runs waiting (fun _ => canRead) inputs rfl
  refine ⟨_, leads_step leads step trivial, linkStep_keeps kept step, exited.trans runs, ?_,
    unmoved.deliveries, unmoved.inFlight⟩
  rw [longer, unmoved.built]
  rfl

end SelectiveRepeat
