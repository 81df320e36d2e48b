import WebRtcDemo.WebView.Receiver

namespace WebRtcDemo.WebView

/-! What becomes of the offers that the signaling client passes to `on_offer_`. -/

/-- `页面: 已收到 Offer 并下发` -/
def statusOffer : String := "页面: 已收到 Offer 并下发"

/-- An offer is passed to `on_offer_`; the bridge emits it, to a page or to
nobody; the status says that it was handed to the page. -/
inductive Handoff
  | received (session : Nat) (sdp : String)
  | emitted (session : Nat) (sdp : String) (toPage : Bool)
  | claimed (session : Nat) (sdp : String)
  deriving DecidableEq, Repr

/-- What a step from `s` to `t` does with an offer. The page gets it if the
signal is put on its way to the page. -/
def handoff (s t : State) : Event → List Handoff
  | .readerOffer sdp => s.signaling.toList.map fun session => .received session sdp
  | .runQueued =>
    match s.queue with
    | .offer session sdp :: _ =>
      .emitted session sdp (t.toPage = s.toPage ++ [.offerReceived session sdp]) ::
        if t.status = statusOffer then [.claimed session sdp] else []
    | _ => []
  | _ => []

/-- The receiver, watched for its offers. -/
def offerReceiver : Machine State Event Handoff where
  init := initial
  step s e := (step s e).map fun (t, _) => (t, handoff s t e)

def Handoff.received? : Handoff → Option (Nat × String)
  | .received session sdp => some (session, sdp)
  | _ => none

def Handoff.handed? : Handoff → Option (Nat × String)
  | .emitted session sdp true => some (session, sdp)
  | _ => none

def Handoff.lost? : Handoff → Option (Nat × String)
  | .emitted session sdp false => some (session, sdp)
  | _ => none

def Handoff.emitted? : Handoff → Option (Nat × String)
  | .emitted session sdp _ => some (session, sdp)
  | _ => none

def Queued.offer? : Queued → Option (Nat × String)
  | .offer session sdp => some (session, sdp)
  | _ => none

def receivedOffers (log : List Handoff) : List (Nat × String) := log.filterMap Handoff.received?

def handedOffers (log : List Handoff) : List (Nat × String) := log.filterMap Handoff.handed?

def lostOffers (log : List Handoff) : List (Nat × String) := log.filterMap Handoff.lost?

def emittedOffers (log : List Handoff) : List (Nat × String) := log.filterMap Handoff.emitted?

def State.waitingOffers (s : State) : List (Nat × String) := s.queue.filterMap Queued.offer?

/-- The status speaks of an offer that has just been handed to the page. -/
def ClaimTrue (past : List Handoff) : Handoff → Prop
  | .claimed session sdp => past.getLast? = some (.emitted session sdp true)
  | _ => True

/-- Every offer passed to `on_offer_` was emitted to a page or still waits in
the event queue, and the status claims nothing else. -/
structure OffersReachPage (s : State) (log : List Handoff) : Prop where
  complete : receivedOffers log = handedOffers log ++ s.waitingOffers
  claims : Machine.Throughout ClaimTrue [] log

/-- A queued offer is emitted while a page client is connected. -/
def PagePresent (s : State) : Event → Prop
  | .runQueued => ∀ call ∈ s.queue.head?, call.offer?.isSome = true → s.attached = true
  | _ => True

instance (s : State) : DecidablePred (PagePresent s)
  | .runQueued => inferInstanceAs (Decidable (∀ call ∈ s.queue.head?, call.offer?.isSome = true → s.attached = true))
  | .requestPermissionAndConnect _ _ | .disconnect | .readerOffer _ | .readerIce _ _ _ | .clientAttached
  | .clientDetached | .pageReceives _ | .pageTask _ | .bridgeReceives => isTrue trivial

variable {s t : State} {e : Event}

theorem emit_queue (s : State) (message : PageMessage) : (emit s message).queue = s.queue := by
  unfold emit
  split <;> rfl

/-- Nothing that runs on the event loop posts to it at once. -/
theorem runCall_queue (s : State) (call : Queued) : (runCall s call).1.queue = s.queue := by
  cases call with
  | offer session sdp => exact emit_queue s (.offerReceived session sdp)
  | ice session mid mlineIndex candidate => exact emit_queue s (.iceCandidateReceived session mid mlineIndex candidate)
  | error err => rfl
  | bridge call =>
    cases call with
    | sendAnswer origin sdp =>
      simp only [runCall, onBridgeAnswer]
      split
      · rfl
      · split <;> rfl
    | sendIceCandidate origin init =>
      simp only [runCall, onBridgeIce]
      split
      · rfl
      · split <;> rfl
    | notifyPeerState state =>
      simp only [runCall, onBridgePeerState]
      split
      · rfl
      · split <;> rfl

/-- The offer function hands its offer to the page exactly if a page client is
connected, and says that it did in either case. -/
theorem handoff_offer {session : Nat} {sdp : String} {rest : List Queued} (queued : s.queue = .offer session sdp :: rest) :
    handoff s (runCall { s with queue := rest } (.offer session sdp)).1 .runQueued =
      [.emitted session sdp s.attached, .claimed session sdp] := by
  have posted : (emit { s with queue := rest } (.offerReceived session sdp)).toPage =
      s.toPage ++ [.offerReceived session sdp] ↔ s.attached = true := by
    cases s.attached <;> simp [emit]
  simp [handoff, queued, runCall, posted, statusOffer]

theorem waitingOffers_append (call : Queued) (queue : t.queue = s.queue ++ [call]) (other : call.offer? = none) :
    t.waitingOffers = s.waitingOffers := by
  unfold State.waitingOffers
  rw [queue, List.filterMap_append]
  simp [other]

theorem disconnect_queue (s : State) : (disconnect s).queue = s.queue := emit_queue s .signalingClosed

theorem connect_waitingOffers (s : State) (started : Bool) (err : String) :
    (requestPermissionAndConnect s started err).waitingOffers = s.waitingOffers := by
  cases started with
  | true => exact congrArg (List.filterMap Queued.offer?) (disconnect_queue s)
  | false =>
    refine waitingOffers_append (.error err) ?_ rfl
    exact congrArg (· ++ [Queued.error err]) (disconnect_queue s)

/-- What a step from `s` to `t` does with the offers: one that arrives joins
those that wait, the one that is emitted was the first of them, and it is lost
exactly if there was no page to get it. -/
structure Passes (s : State) (e : Event) (t : State) : Prop where
  inOrder : s.waitingOffers ++ receivedOffers (handoff s t e) = emittedOffers (handoff s t e) ++ t.waitingOffers
  lost : lostOffers (handoff s t e) = [] ↔ PagePresent s e
  claims : PagePresent s e → ∀ past, Machine.Throughout ClaimTrue past (handoff s t e)

/-- Steps that have nothing to do with offers. -/
theorem Passes.quiet (nothing : handoff s t e = []) (present : PagePresent s e) (same : t.waitingOffers = s.waitingOffers) :
    Passes s e t where
  inOrder := by
    rw [nothing, same]
    exact List.append_nil _
  lost := by
    rw [nothing]
    exact ⟨fun _ => present, fun _ => rfl⟩
  claims _ _ := by
    rw [nothing]
    trivial

theorem Passes.runQueued {call : Queued} {rest : List Queued} (queued : s.queue = call :: rest) :
    Passes s .runQueued (runCall { s with queue := rest } call).1 := by
  have left : (runCall { s with queue := rest } call).1.waitingOffers = rest.filterMap Queued.offer? :=
    congrArg (List.filterMap Queued.offer?) (runCall_queue { s with queue := rest } call)
  have first : s.waitingOffers = (call :: rest).filterMap Queued.offer? := congrArg (List.filterMap Queued.offer?) queued
  cases call with
  | offer session sdp =>
    have present : PagePresent s .runQueued ↔ s.attached = true := by
      simp [PagePresent, queued, Queued.offer?]
    refine ⟨?_, ?_, ?_⟩
    · rw [handoff_offer queued, left, first]
      exact List.append_nil _
    · rw [handoff_offer queued, present]
      cases s.attached <;> simp [lostOffers, Handoff.lost?]
    · intro attached past
      rw [handoff_offer queued, present.mp attached]
      simp [Machine.Throughout, ClaimTrue]
  | ice | error | bridge =>
    refine Passes.quiet ?_ ?_ ?_
    · simp [handoff, queued]
    · simp [PagePresent, queued, Queued.offer?]
    · rw [left, first]
      rfl

theorem step_passes {actions : List Action} (run : step s e = some (t, actions)) : Passes s e t := by
  cases receiverMove_of_step run with
  | connects started err => exact Passes.quiet rfl trivial (connect_waitingOffers s started err)
  | disconnects => exact Passes.quiet rfl trivial (congrArg (List.filterMap Queued.offer?) (disconnect_queue s))
  | receivesOffer sdp opened =>
    refine ⟨?_, ?_, fun _ _ => ?_⟩
    · simp [handoff, opened, receivedOffers, emittedOffers, State.waitingOffers, Handoff.received?, Handoff.emitted?,
        Queued.offer?]
    · simp [handoff, opened, lostOffers, Handoff.lost?, PagePresent]
    · simp [handoff, opened, Machine.Throughout, ClaimTrue]
  | receivesIce mid mlineIndex candidate => exact Passes.quiet rfl trivial (waitingOffers_append (.ice ..) rfl rfl)
  | runs queued => exact Passes.runQueued queued
  | attaches | detaches | works => exact Passes.quiet rfl trivial rfl
  | @hears constructed message rest => cases message <;> exact Passes.quiet rfl trivial rfl
  | bridges => exact Passes.quiet rfl trivial (waitingOffers_append (.bridge _) rfl rfl)

theorem offerReceiver_passes {out : List Handoff} (run : offerReceiver.step s e = some (t, out)) :
    out = handoff s t e ∧ Passes s e t := by
  obtain ⟨⟨u, actions⟩, stepped, same⟩ := Option.map_eq_some_iff.mp run
  obtain ⟨rfl, rfl⟩ := Prod.mk.inj same
  exact ⟨rfl, step_passes stepped⟩

variable {log : List Handoff} {events : List Event}

/-- Along a run the offers are emitted in the order they were received. -/
theorem exec_inOrder (run : offerReceiver.exec s events = some (t, log)) :
    s.waitingOffers ++ receivedOffers log = emittedOffers log ++ t.waitingOffers := by
  induction events generalizing s log with
  | nil =>
    cases run
    exact List.append_nil _
  | cons e events ih =>
    obtain ⟨middle, out, rest, first, later, rfl⟩ := Machine.exec_cons run
    obtain ⟨rfl, passes⟩ := offerReceiver_passes first
    calc s.waitingOffers ++ receivedOffers (handoff s middle e ++ rest)
        = (s.waitingOffers ++ receivedOffers (handoff s middle e)) ++ receivedOffers rest := by
          rw [receivedOffers, List.filterMap_append, List.append_assoc]
          rfl
      _ = emittedOffers (handoff s middle e) ++ (middle.waitingOffers ++ receivedOffers rest) := by
          rw [passes.inOrder, List.append_assoc]
      _ = emittedOffers (handoff s middle e) ++ (emittedOffers rest ++ t.waitingOffers) := by rw [ih later]
      _ = emittedOffers (handoff s middle e ++ rest) ++ t.waitingOffers := by
          rw [emittedOffers, emittedOffers, emittedOffers, List.filterMap_append, List.append_assoc]

theorem exec_lost (run : offerReceiver.exec s events = some (t, log)) :
    lostOffers log = [] ↔ offerReceiver.Meets PagePresent s events := by
  induction events generalizing s log with
  | nil =>
    cases run
    exact ⟨fun _ => trivial, fun _ => rfl⟩
  | cons e events ih =>
    obtain ⟨middle, out, rest, first, later, rfl⟩ := Machine.exec_cons run
    obtain ⟨rfl, passes⟩ := offerReceiver_passes first
    rw [Machine.Meets.cons first, ← passes.lost, ← ih later]
    unfold lostOffers
    rw [List.filterMap_append, List.append_eq_nil_iff]

theorem exec_claims (run : offerReceiver.exec s events = some (t, log)) (present : offerReceiver.Meets PagePresent s events)
    (past : List Handoff) : Machine.Throughout ClaimTrue past log := by
  induction events generalizing s log past with
  | nil =>
    cases run
    trivial
  | cons e events ih =>
    obtain ⟨middle, out, rest, first, later, rfl⟩ := Machine.exec_cons run
    obtain ⟨rfl, passes⟩ := offerReceiver_passes first
    obtain ⟨here, there⟩ := (Machine.Meets.cons first).mp present
    exact Machine.throughout_append.mpr ⟨passes.claims here past, ih later there _⟩

theorem emittedOffers_length (log : List Handoff) :
    (emittedOffers log).length = (handedOffers log).length + (lostOffers log).length := by
  induction log with
  | nil => rfl
  | cons a log ih =>
    unfold emittedOffers handedOffers lostOffers at *
    match a with
    | .received _ _ | .claimed _ _ => exact ih
    | .emitted session sdp true =>
      simp only [List.filterMap_cons, Handoff.emitted?, Handoff.handed?, Handoff.lost?, List.length_cons, ih]
      omega
    | .emitted session sdp false =>
      simp only [List.filterMap_cons, Handoff.emitted?, Handoff.handed?, Handoff.lost?, List.length_cons, ih]
      omega

theorem handedOffers_eq (none : lostOffers log = []) : handedOffers log = emittedOffers log := by
  induction log with
  | nil => rfl
  | cons a log ih =>
    unfold emittedOffers handedOffers lostOffers at *
    match a with
    | .received _ _ | .claimed _ _ => exact ih none
    | .emitted session sdp true => exact congrArg ((session, sdp) :: ·) (ih none)
    | .emitted session sdp false => simp [Handoff.lost?] at none

/-- In every order of connections, disconnections and offers, every offer gets
to a page and every status that speaks of one is true exactly if the event loop
never runs an offer function while no page client is connected. -/
theorem offersReachPage_iff (run : offerReceiver.exec initial events = some (s, log)) :
    OffersReachPage s log ↔ offerReceiver.Meets PagePresent initial events := by
  have inOrder : receivedOffers log = emittedOffers log ++ s.waitingOffers := exec_inOrder run
  rw [← exec_lost run]
  constructor
  · intro reaches
    have counted := congrArg List.length (inOrder.symm.trans reaches.complete)
    rw [List.length_append, List.length_append, emittedOffers_length] at counted
    exact List.length_eq_zero_iff.mp (by omega)
  · intro none
    refine ⟨?_, exec_claims run ((exec_lost run).mp none) []⟩
    rw [inOrder, handedOffers_eq none]

/-- Two pages, each with an offer, and one that waits. -/
theorem offersReachPage_iff_two_pages :
    ∃ events s log, offerReceiver.exec initial events = some (s, log) ∧ handedOffers log = [(1, "o1"), (1, "o2")] ∧
      s.waitingOffers = [(1, "o3")] ∧ OffersReachPage s log := by
  have run : offerReceiver.exec initial [.clientAttached, .requestPermissionAndConnect true "", .readerOffer "o1",
    .runQueued, .clientDetached, .readerOffer "o2", .clientAttached, .runQueued, .readerOffer "o3"] = some (_, _) := rfl
  exact ⟨_, _, _, run, by decide, rfl, (offersReachPage_iff run).mpr (by decide)⟩

/-- The offer arrives before the page has a channel. It is emitted to nobody,
the page that connects then does not get it either, and the status says that it
was handed on. -/
theorem not_offersReachPage :
    ¬∀ events s log, offerReceiver.exec initial events = some (s, log) → OffersReachPage s log := by
  intro all
  have reaches := all [.requestPermissionAndConnect true "", .readerOffer "o1", .runQueued, .clientAttached] _ _ rfl
  have lost := reaches.complete
  revert lost
  decide

end WebRtcDemo.WebView
