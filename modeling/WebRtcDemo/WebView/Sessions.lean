import WebRtcDemo.WebView.Receiver

namespace WebRtcDemo.WebView

/-- What the user last asked for, by the history. -/
def phaseOf (log : List Action) : Phase :=
  log.foldl (fun phase a => match a with
    | .connected n => .connected n
    | .disconnected => .disconnected
    | _ => phase) .new

/-- An offer or candidate is emitted while the session it was received on is
the current one; what is written to a socket was made for an offer of its session. -/
def Isolated (past : List Action) : Action → Prop
  | .emitted m => phaseOf past = .connected m
  | .wrote n origin => origin.session = n
  | _ => True

instance (past : List Action) : ∀ a, Decidable (Isolated past a)
  | .emitted m => inferInstanceAs (Decidable (phaseOf past = .connected m))
  | .wrote n origin => inferInstanceAs (Decidable (origin.session = n))
  | .connected _ | .disconnected => isTrue trivial

/-- The queued call does not come too late: what a reader posted runs before
its session is disconnected or replaced; errors and peer states are not shown
after a disconnect; and what the page sends while a session is open, it sent
after it had handled every `signalingClosed`. -/
def InTime (s : State) : Queued → Prop
  | .offer session _ => s.phase = .connected session
  | .ice session _ _ _ => s.phase = .connected session
  | .error _ => s.phase ≠ .disconnected
  | .bridge (.sendAnswer origin sdp) => s.signaling = none ∨ sdp = "" ∨ origin.closes = s.closes
  | .bridge (.sendIceCandidate origin init) => s.signaling = none ∨ init.candidate = "" ∨ origin.closes = s.closes
  | .bridge (.notifyPeerState state) => s.phase ≠ .disconnected ∨ state ≠ "connected" ∧ interrupts state = false

instance (s : State) : ∀ call, Decidable (InTime s call)
  | .offer session _ => inferInstanceAs (Decidable (s.phase = .connected session))
  | .ice session _ _ _ => inferInstanceAs (Decidable (s.phase = .connected session))
  | .error _ => inferInstanceAs (Decidable (s.phase ≠ .disconnected))
  | .bridge (.sendAnswer _ _) => inferInstanceAs (Decidable (_ ∨ _ ∨ _))
  | .bridge (.sendIceCandidate _ _) => inferInstanceAs (Decidable (_ ∨ _ ∨ _))
  | .bridge (.notifyPeerState _) => inferInstanceAs (Decidable (_ ∨ _ ∧ _))

def CallsInTime (s : State) : Event → Prop
  | .runQueued => ∀ call ∈ s.queue.head?, InTime s call
  | _ => True

instance (s : State) : ∀ e, Decidable (CallsInTime s e)
  | .runQueued => inferInstanceAs (Decidable (∀ call ∈ s.queue.head?, InTime s call))
  | .requestPermissionAndConnect _ _ | .disconnect | .readerOffer _ | .readerIce _ _ _ | .clientAttached
  | .clientDetached | .pageReceives _ | .pageTask _ | .bridgeReceives => isTrue trivial

/-! Between two `signalingClosed` there is at most one session. `opened` says
which one it is. -/

/-- The messages on their way to a page that has handled `seen` closes, when
`emitted` were emitted: every offer belongs to the session of its place. -/
def InOrder (opened : Nat → Nat) : Nat → List PageMessage → Nat → Prop
  | seen, [], emitted => seen = emitted
  | seen, .signalingClosed :: rest, emitted => InOrder opened (seen + 1) rest emitted
  | seen, .offerReceived session _ :: rest, emitted => session = opened seen ∧ InOrder opened seen rest emitted
  | seen, .iceCandidateReceived _ _ _ _ :: rest, emitted => InOrder opened seen rest emitted

variable {opened later : Nat → Nat} {s t : State} {log : List Action}

theorem InOrder.le {seen emitted : Nat} {messages : List PageMessage} (order : InOrder opened seen messages emitted) :
    seen ≤ emitted := by
  induction messages generalizing seen with
  | nil => exact Nat.le_of_eq order
  | cons message rest ih =>
    cases message with
    | signalingClosed => exact Nat.le_of_succ_le (ih order)
    | offerReceived => exact ih order.2
    | iceCandidateReceived => exact ih order

theorem InOrder.append {seen middle emitted : Nat} {messages more : List PageMessage}
    (order : InOrder opened seen messages middle) (next : InOrder opened middle more emitted) :
    InOrder opened seen (messages ++ more) emitted := by
  induction messages generalizing seen with
  | nil =>
    cases order
    exact next
  | cons message rest ih =>
    cases message with
    | signalingClosed => exact ih order
    | offerReceived => exact ⟨order.1, ih order.2⟩
    | iceCandidateReceived => exact ih order

/-- Sessions opened later do not matter. -/
theorem InOrder.congr {seen emitted : Nat} {messages : List PageMessage}
    (order : InOrder opened seen messages emitted) (same : ∀ c ≤ emitted, later c = opened c) :
    InOrder later seen messages emitted := by
  induction messages generalizing seen with
  | nil => exact order
  | cons message rest ih =>
    cases message with
    | signalingClosed => exact ih order
    | offerReceived session sdp => exact ⟨order.1.trans (same seen order.2.le).symm, ih order.2⟩
    | iceCandidateReceived => exact ih order

/-- A call of the page was made for an offer of the session that was open. -/
def Origin.Own (opened : Nat → Nat) (closes : Nat) (origin : Origin) : Prop :=
  origin.closes ≤ closes ∧ origin.session = opened origin.closes

/-- The origin of an answer or candidate. -/
def BridgeCall.origin : BridgeCall → Option Origin
  | .sendAnswer origin _ => some origin
  | .sendIceCandidate origin _ => some origin
  | .notifyPeerState _ => none

def BridgeCall.Own (opened : Nat → Nat) (closes : Nat) (call : BridgeCall) : Prop :=
  ∀ origin ∈ call.origin, origin.Own opened closes

theorem BridgeCall.Own.congr {call : BridgeCall} {closes more : Nat} (own : call.Own opened closes)
    (longer : closes ≤ more) (same : ∀ c ≤ closes, later c = opened c) : call.Own later more := by
  intro origin mine
  obtain ⟨past, session⟩ := own origin mine
  exact ⟨past.trans longer, session.trans (same _ past).symm⟩

/-- The connections of the page that are still open were made for offers of
the session that was open when the page last handled a close. -/
structure PageOwn (opened : Nat → Nat) (s : State) : Prop where
  negotiating : ∃ pageLog, Page.Negotiating s.page pageLog
  unclosed : ∀ i < s.page.created, (s.page.conns i).isClosed = false →
    s.offerSession (s.page.conns i).offer = opened s.pageCloses
  order : InOrder opened s.pageCloses s.toPage s.closes

/-- Only these fields matter. -/
theorem PageOwn.of (own : PageOwn opened s)
    (same : (t.page, t.offerSession, t.pageCloses, t.toPage, t.closes) =
      (s.page, s.offerSession, s.pageCloses, s.toPage, s.closes)) : PageOwn opened t := by
  simp only [Prod.mk.injEq] at same
  obtain ⟨page, offerSession, pageCloses, toPage, closes⟩ := same
  refine ⟨page ▸ own.negotiating, ?_, ?_⟩
  · rw [page, offerSession, pageCloses]
    exact own.unclosed
  · rw [pageCloses, toPage, closes]
    exact own.order

structure Consistent (opened : Nat → Nat) (s : State) (log : List Action) : Prop where
  phase : phaseOf log = s.phase
  current : ∀ n, s.phase = .connected n → opened s.closes = n
  signaling : ∀ n, s.signaling = some n → s.phase = .connected n
  status : s.phase = .disconnected → s.status = statusDisconnected
  page : s.attached = true → PageOwn opened s
  toCpp : ∀ call ∈ s.toCpp, call.Own opened s.closes
  queue : ∀ call, .bridge call ∈ s.queue → call.Own opened s.closes
  isolated : Machine.Throughout Isolated [] log

/-! The page. -/

/-- The tasks of the browser open and close no connection. -/
theorem task_sameConns {p q : Page.State} {pageLog out : List Page.Action} {task : Page.Event}
    (inv : Page.Negotiating p pageLog) (own : ownTask task = true) (run : Page.step p task = some (q, out)) :
    Page.SameConns p q := by
  cases task with
  | offerReceived | iceCandidateReceived | signalingClosed => cases own
  | fulfil k value =>
    obtain ⟨c, _, _, _, outcome⟩ := inv.fulfil_cases run
    rcases outcome with ⟨sdp, _, rfl, _⟩ | ⟨_, rfl, _⟩ | ⟨answer, _, rfl, _⟩
    · have same := Page.SameConns.setConn (s := p) (i := c)
        (c := { p.conns c with remoteDescription := some sdp }) rfl rfl
      exact ⟨same.pc, same.created, same.offers, same.isClosed, same.offer⟩
    · exact ⟨rfl, rfl, rfl, fun _ => rfl, fun _ => rfl⟩
    · have same := Page.SameConns.setConn (s := p) (i := c)
        (c := { p.conns c with localDescription := some answer }) rfl rfl
      exact ⟨same.pc, same.created, same.offers, same.isClosed, same.offer⟩
  | reject k =>
    obtain ⟨rfl, _⟩ := Page.reject_spec run
    exact ⟨rfl, rfl, rfl, fun _ => rfl, fun _ => rfl⟩
  | localCandidate i candidate =>
    obtain ⟨_, rfl, _⟩ := Page.localCandidate_spec run
    exact ⟨rfl, rfl, rfl, fun _ => rfl, fun _ => rfl⟩
  | connectionStateChange i state =>
    obtain ⟨rfl, _⟩ := Page.connectionStateChange_spec run
    exact .setConn rfl rfl

/-- Candidates are sent for connections that are open. -/
theorem task_candidate {p q : Page.State} {pageLog out : List Page.Action} {task : Page.Event} {i : Nat}
    {init : Page.IceInit} (inv : Page.Negotiating p pageLog) (own : ownTask task = true)
    (run : Page.step p task = some (q, out)) (member : .sendIceCandidate i init ∈ out) :
    i < p.created ∧ (p.conns i).isClosed = false := by
  cases task with
  | offerReceived | iceCandidateReceived | signalingClosed => cases own
  | fulfil k value =>
    obtain ⟨c, _, _, _, outcome⟩ := inv.fulfil_cases run
    rcases outcome with ⟨_, _, _, rfl⟩ | ⟨_, _, rfl⟩ | ⟨_, _, _, rfl⟩ <;> simp at member
  | reject k =>
    obtain ⟨_, rfl⟩ := Page.reject_spec run
    cases member
  | localCandidate j candidate =>
    obtain ⟨there, _, rfl⟩ := Page.localCandidate_spec run
    cases candidate with
    | none => cases member
    | some sent =>
      cases List.mem_singleton.mp member
      exact there
  | connectionStateChange j state =>
    obtain ⟨_, rfl⟩ := Page.connectionStateChange_spec run
    cases atPc : p.pc <;> simp [atPc] at member

/-- The calls a task makes belong to the session of the open connection. -/
theorem PageOwn.pageTask {task : Page.Event} {page : Page.State} {actions : List Page.Action}
    (own : PageOwn opened s) (mine : ownTask task = true) (run : Page.step s.page task = some (page, actions)) :
    PageOwn opened { s with page := page, toCpp := s.toCpp ++ bridgeCalls s actions } ∧
      ∀ call ∈ bridgeCalls s actions, call.Own opened s.closes := by
  obtain ⟨pageLog, negotiating⟩ := own.negotiating
  have same := task_sameConns negotiating mine run
  refine ⟨⟨⟨_, negotiating.step run⟩, fun i bound isOpen => ?_, own.order⟩, fun call member => ?_⟩
  · simp only [same.created, same.isClosed, same.offer] at bound isOpen ⊢
    exact own.unclosed i bound isOpen
  · obtain ⟨a, performed, called⟩ := List.mem_filterMap.mp member
    cases a with
    | offered | closed | received | addIceCandidate => cases called
    | notifyPeerState conn state =>
      cases called
      intro origin none
      cases none
    | sendAnswer k sdp =>
      cases called
      intro origin sent
      cases sent
      obtain ⟨i, atPc, rfl, _⟩ := negotiating.sendAnswer_mem run performed
      obtain ⟨bound, isOpen, _⟩ := negotiating.current i atPc
      exact ⟨own.order.le, own.unclosed i bound isOpen⟩
    | sendIceCandidate i init =>
      cases called
      intro origin sent
      cases sent
      obtain ⟨bound, isOpen⟩ := task_candidate negotiating mine run performed
      exact ⟨own.order.le, own.unclosed i bound isOpen⟩

theorem offerReceived_offers (p : Page.State) (sdp : String) (constructed : Bool) :
    (Page.offerReceived p sdp constructed).offers = p.offers + 1 := by
  unfold Page.offerReceived
  cases constructed <;> rfl

theorem iceCandidateReceived_conns (p : Page.State) (init : Page.IceInit) :
    (Page.iceCandidateReceived p init).1.conns = p.conns ∧ (Page.iceCandidateReceived p init).1.created = p.created := by
  unfold Page.iceCandidateReceived
  split
  · exact ⟨rfl, rfl⟩
  split
  · exact ⟨rfl, rfl⟩
  split <;> exact ⟨rfl, rfl⟩

/-- An offer brings its own session to the page, and a close ends what is open. -/
theorem PageOwn.pageReceives {message : PageMessage} {rest : List PageMessage} (own : PageOwn opened s)
    (next : s.toPage = message :: rest) (constructed : Bool) :
    PageOwn opened (pageReceives { s with toPage := rest } constructed message) := by
  obtain ⟨pageLog, negotiating⟩ := own.negotiating
  have order := own.order
  rw [next] at order
  cases message with
  | offerReceived session sdp =>
    have offered := negotiating.offerReceived sdp constructed
    refine ⟨⟨_, offered⟩, fun i bound isOpen => ?_, order.2⟩
    have latest := (offered.current i (offered.openIsCurrent i bound isOpen)).2.2.1
    rw [offerReceived_offers] at latest
    simp only [WebView.pageReceives, latest, Function.update_self]
    exact order.1
  | iceCandidateReceived session mid mlineIndex candidate =>
    obtain ⟨conns, created⟩ := iceCandidateReceived_conns s.page ⟨candidate, mid, mlineIndex⟩
    refine ⟨⟨_, negotiating.iceCandidateReceived _⟩, fun i bound isOpen => ?_, order⟩
    simp only [WebView.pageReceives, conns, created] at bound isOpen ⊢
    exact own.unclosed i bound isOpen
  | signalingClosed =>
    have closed := negotiating.signalingClosed
    refine ⟨⟨_, closed⟩, fun i bound isOpen => ?_, order⟩
    have atPc := closed.openIsCurrent i bound isOpen
    have none : (Page.signalingClosed s.page).pc = none := Page.closePc_pc s.page
    rw [none] at atPc
    cases atPc

/-! Steps of the receiver. -/

theorem emit_toPage (attached : s.attached = true) (message : PageMessage) :
    emit s message = { s with toPage := s.toPage ++ [message] } := by
  unfold emit
  rw [if_pos attached]

theorem emit_rest (s : State) (message : PageMessage) : emit s message = { s with toPage := (emit s message).toPage } := by
  unfold emit
  split <;> rfl

theorem emit_status (s : State) (message : PageMessage) : { emit s message with status := s.status } = emit s message := by
  unfold emit
  split <;> rfl

theorem PageOwn.emit (own : PageOwn opened s) (attached : s.attached = true) (message : PageMessage) (emitted : Nat)
    (fits : InOrder opened s.closes [message] emitted) : PageOwn opened { emit s message with closes := emitted } := by
  rw [emit_toPage attached]
  exact ⟨own.negotiating, own.unclosed, own.order.append fits⟩

/-- Sessions opened later do not matter to the page. -/
theorem PageOwn.congr (own : PageOwn opened s) (same : ∀ c ≤ s.closes, later c = opened c) : PageOwn later s :=
  ⟨own.negotiating, fun i bound isOpen => (own.unclosed i bound isOpen).trans (same _ own.order.le).symm,
    own.order.congr same⟩

theorem PageOwn.disconnect (own : PageOwn opened s) (attached : s.attached = true) : PageOwn opened (disconnect s) := by
  exact (own.emit attached .signalingClosed (s.closes + 1) rfl).of rfl

/-- Steps that put nothing out and change neither the sessions nor the status. -/
theorem Consistent.quiet (ok : Consistent opened s log) (phase : t.phase = s.phase) (closes : t.closes = s.closes)
    (signaling : t.signaling = s.signaling) (status : t.status = s.status)
    (page : t.attached = true → PageOwn opened t) (toCpp : ∀ call ∈ t.toCpp, call.Own opened s.closes)
    (queue : ∀ call, .bridge call ∈ t.queue → call.Own opened s.closes) : Consistent opened t (log ++ []) := by
  rw [List.append_nil]
  refine ⟨ok.phase.trans phase.symm, ?_, ?_, ?_, page, ?_, ?_, ok.isolated⟩
  · rw [phase, closes]
    exact ok.current
  · rw [phase, signaling]
    exact ok.signaling
  · rw [phase, status]
    exact ok.status
  · rw [closes]
    exact toCpp
  · rw [closes]
    exact queue

theorem disconnect_rest (s : State) :
    (disconnect s).queue = s.queue ∧ (disconnect s).toCpp = s.toCpp ∧ (disconnect s).attached = s.attached ∧
      (disconnect s).sessions = s.sessions := by
  unfold disconnect emit
  split <;> exact ⟨rfl, rfl, rfl, rfl⟩

theorem Consistent.disconnect (ok : Consistent opened s log) :
    Consistent opened { disconnect s with phase := .disconnected } (log ++ [.disconnected]) := by
  obtain ⟨queue, toCpp, attached, _⟩ := disconnect_rest s
  have longer : s.closes ≤ s.closes + 1 := Nat.le_succ _
  refine ⟨by simp [phaseOf], nofun, nofun, fun _ => rfl, fun there => ?_, ?_, ?_, ?_⟩
  · simp only [attached] at there
    exact ((ok.page there).disconnect there).of rfl
  · simp only [toCpp]
    exact fun call member => (ok.toCpp call member).congr longer fun _ _ => rfl
  · simp only [queue]
    exact fun call member => (ok.queue call member).congr longer fun _ _ => rfl
  · exact Machine.throughout_append.mpr ⟨ok.isolated, trivial, trivial⟩

/-- The new session is the one of the new close. -/
theorem Consistent.connect (ok : Consistent opened s log) (started : Bool) (err : String) :
    Consistent (Function.update opened (s.closes + 1) (s.sessions + 1)) (requestPermissionAndConnect s started err)
      (log ++ [.connected (s.sessions + 1)]) := by
  obtain ⟨queue, toCpp, attached, sessions⟩ := disconnect_rest s
  have longer : s.closes ≤ s.closes + 1 := Nat.le_succ _
  have same (c : Nat) (past : c ≤ s.closes) :
      Function.update opened (s.closes + 1) (s.sessions + 1) c = opened c := Function.update_of_ne (by omega) ..
  have current : Function.update opened (s.closes + 1) (s.sessions + 1) (s.closes + 1) = s.sessions + 1 :=
    Function.update_self ..
  have page (there : s.attached = true) := ((ok.page there).congr same).disconnect there
  have isolated : Machine.Throughout Isolated [] (log ++ [.connected (s.sessions + 1)]) :=
    Machine.throughout_append.mpr ⟨ok.isolated, trivial, trivial⟩
  have inCpp (call : BridgeCall) (member : call ∈ s.toCpp) := (ok.toCpp call member).congr longer same
  have queued (call : BridgeCall) (member : .bridge call ∈ s.queue) := (ok.queue call member).congr longer same
  unfold requestPermissionAndConnect
  simp only [sessions]
  cases started with
  | true =>
    refine ⟨by simp [phaseOf], ?_, ?_, nofun, fun there => ?_, ?_, ?_, isolated⟩
    · intro n now
      cases now
      exact current
    · intro n now
      cases now
      rfl
    · exact (page (by simpa [attached] using there)).of rfl
    · simp only [if_true, toCpp]
      exact inCpp
    · simp only [if_true, queue]
      exact queued
  | false =>
    refine ⟨by simp [phaseOf], ?_, nofun, nofun, fun there => ?_, ?_, ?_, isolated⟩
    · intro n now
      cases now
      exact current
    · exact (page (by simpa [attached] using there)).of rfl
    · simp only [Bool.false_eq_true, if_false, toCpp]
      exact inCpp
    · simp only [Bool.false_eq_true, if_false, queue]
      intro call member
      rcases List.mem_append.mp member with earlier | now
      · exact queued call earlier
      · cases List.mem_singleton.mp now

/-- A signal with an offer or candidate of the current session. -/
theorem Consistent.emit {m : Nat} {message : PageMessage} (ok : Consistent opened s log) (current : s.phase = .connected m)
    (fits : InOrder opened s.closes [message] s.closes) (status : String) :
    Consistent opened { emit s message with status := status } (log ++ [.emitted m]) := by
  have page (there : s.attached = true) := (ok.page there).emit there message s.closes fits
  rw [emit_rest] at page ⊢
  refine ⟨?_, ok.current, ok.signaling, fun now => ?_, fun there => ?_, ok.toCpp, ok.queue, ?_⟩
  · rw [phaseOf, List.foldl_append]
    exact ok.phase
  · cases current.symm.trans now
  · exact (page there).of rfl
  · exact Machine.throughout_append.mpr ⟨ok.isolated, ok.phase.trans current, trivial⟩

/-- An answer or candidate that the page made for the current session. -/
theorem Consistent.write {n : Nat} {origin : Origin} (ok : Consistent opened s log) (now : s.signaling = some n)
    (own : origin.Own opened s.closes) (recent : origin.closes = s.closes) (status : String) :
    Consistent opened { s with status := status } (log ++ [.wrote n origin]) := by
  have current := ok.signaling n now
  refine ⟨?_, ok.current, ok.signaling, fun gone => ?_, fun there => (ok.page there).of rfl, ok.toCpp,
    ok.queue, ?_⟩
  · rw [phaseOf, List.foldl_append]
    exact ok.phase
  · cases current.symm.trans gone
  · refine Machine.throughout_append.mpr ⟨ok.isolated, ?_, trivial⟩
    have session := own.2
    rw [recent, ok.current n current] at session
    exact session

theorem Consistent.showStatus (ok : Consistent opened s log) (kept : s.phase ≠ .disconnected) (status : String) :
    Consistent opened { s with status := status } (log ++ []) := by
  rw [List.append_nil]
  exact ⟨ok.phase, ok.current, ok.signaling, fun gone => absurd gone kept, fun there => (ok.page there).of rfl, ok.toCpp,
    ok.queue, ok.isolated⟩

theorem Consistent.same (ok : Consistent opened s log) : Consistent opened s (log ++ []) := by
  rw [List.append_nil]
  exact ok

theorem recent_of_inTime {n : Nat} {origin : Origin} {text : String}
    (inTime : s.signaling = none ∨ text = "" ∨ origin.closes = s.closes) (now : s.signaling = some n)
    (nonempty : text ≠ "") : origin.closes = s.closes := by
  rcases inTime with gone | empty | recent
  · rw [now] at gone
    cases gone
  · exact absurd empty nonempty
  · exact recent

theorem Consistent.runCall {call : Queued} (ok : Consistent opened s log) (inTime : InTime s call)
    (own : ∀ bridged, call = .bridge bridged → bridged.Own opened s.closes) :
    Consistent opened (runCall s call).1 (log ++ (runCall s call).2) := by
  cases call with
  | offer m sdp =>
    have fits : InOrder opened s.closes [.offerReceived m sdp] s.closes := ⟨(ok.current m inTime).symm, rfl⟩
    exact ok.emit inTime fits _
  | ice m mid mlineIndex candidate =>
    have fits : InOrder opened s.closes [.iceCandidateReceived m mid mlineIndex candidate] s.closes := rfl
    have emitted := ok.emit inTime fits s.status
    rw [emit_status] at emitted
    exact emitted
  | error err => exact ok.showStatus inTime _
  | bridge bridged =>
    have own := own bridged rfl
    cases bridged with
    | sendAnswer origin sdp =>
      simp only [WebView.runCall, onBridgeAnswer]
      split
      · exact ok.same
      · rename_i n now
        split
        · exact ok.same
        · rename_i nonempty
          exact ok.write now (own origin rfl) (recent_of_inTime inTime now nonempty) _
    | sendIceCandidate origin init =>
      simp only [WebView.runCall, onBridgeIce]
      split
      · exact ok.same
      · rename_i n now
        split
        · exact ok.same
        · rename_i nonempty
          exact ok.write now (own origin rfl) (recent_of_inTime inTime now nonempty) s.status
    | notifyPeerState state =>
      simp only [WebView.runCall, onBridgePeerState]
      split
      · rename_i isConnected
        exact ok.showStatus (inTime.resolve_right fun other => other.1 isConnected) _
      · split
        · rename_i interrupted
          refine ok.showStatus (inTime.resolve_right fun other => ?_) _
          rw [other.2] at interrupted
          cases interrupted
        · exact ok.same

theorem Consistent.step {e : Event} {out : List Action} (ok : Consistent opened s log) (inTime : CallsInTime s e)
    (run : step s e = some (t, out)) : ∃ later, Consistent later t (log ++ out) := by
  cases receiverMove_of_step run with
  | connects started err => exact ⟨_, ok.connect started err⟩
  | disconnects => exact ⟨opened, ok.disconnect⟩
  | receivesOffer | receivesIce =>
    refine ⟨opened, ok.quiet rfl rfl rfl rfl (fun there => (ok.page there).of rfl) ok.toCpp fun call member => ?_⟩
    exact ok.queue call (by simpa using member)
  | @runs call rest queued =>
    have due := inTime call (by rw [queued]; rfl)
    have popped : Consistent opened { s with queue := rest } (log ++ []) := by
      refine ok.quiet rfl rfl rfl rfl (fun there => (ok.page there).of rfl) ok.toCpp fun call member => ?_
      exact ok.queue call (by rw [queued]; exact List.mem_cons_of_mem _ member)
    rw [List.append_nil] at popped
    exact ⟨opened, popped.runCall due fun bridged same => ok.queue bridged (by rw [queued, same]; simp)⟩
  | attaches =>
    have fresh : PageOwn opened (clientAttached s) :=
      ⟨⟨[], Page.negotiating_initial⟩, fun i bound => absurd bound (Nat.not_lt_zero i), rfl⟩
    exact ⟨opened, ok.quiet rfl rfl rfl rfl (fun _ => fresh) (by simp [clientAttached]) ok.queue⟩
  | detaches => exact ⟨opened, ok.quiet rfl rfl rfl rfl nofun (by simp [clientDetached]) ok.queue⟩
  | @hears constructed message rest waiting =>
    have page (there : s.attached = true) := (ok.page there).pageReceives waiting constructed
    cases message with
    | offerReceived | iceCandidateReceived | signalingClosed =>
      exact ⟨opened, ok.quiet rfl rfl rfl rfl page ok.toCpp ok.queue⟩
  | works active ran =>
    obtain ⟨own, calls⟩ := (ok.page active.1).pageTask active.2 ran
    refine ⟨opened, ok.quiet rfl rfl rfl rfl (fun _ => own) (fun call member => ?_) ok.queue⟩
    rcases List.mem_append.mp member with earlier | now
    · exact ok.toCpp call earlier
    · exact calls call now
  | @bridges call rest waiting =>
    have own (other : BridgeCall) (member : other ∈ call :: rest) := ok.toCpp other (waiting ▸ member)
    refine ⟨opened, ok.quiet rfl rfl rfl rfl (fun there => (ok.page there).of rfl)
      (fun other member => own other (List.mem_cons_of_mem _ member)) fun other member => ?_⟩
    rcases List.mem_append.mp member with earlier | now
    · exact ok.queue other earlier
    · cases List.mem_singleton.mp now
      exact own call List.mem_cons_self

theorem reach_consistent (reach : receiver.Reach CallsInTime s log) : ∃ opened, Consistent opened s log := by
  refine reach.invariant (P := fun s log => ∃ opened, Consistent opened s log) ?_ ?_
  · refine ⟨fun _ => 0, rfl, nofun, nofun, nofun, nofun, ?_, ?_, trivial⟩
    · exact fun call member => absurd member List.not_mem_nil
    · exact fun call member => absurd member List.not_mem_nil
  · rintro s log e t out ⟨opened, ok⟩ inTime run
    exact ok.step inTime run

/-- Offers and candidates are emitted in the session they were received on,
answers and candidates go to the session of their offer, and after a disconnect
nothing is emitted and the status stays. -/
theorem sessions_isolated (reach : receiver.Reach CallsInTime s log) :
    Machine.Throughout Isolated [] log ∧ (phaseOf log = .disconnected → s.status = statusDisconnected) := by
  obtain ⟨opened, ok⟩ := reach_consistent reach
  refine ⟨ok.isolated, fun gone => ok.status ?_⟩
  rw [← ok.phase]
  exact gone

/-- Two sessions one after the other, each with its offer and its answer. -/
theorem sessions_isolated_twice :
    ∃ s, receiver.Reach CallsInTime s [.connected 1, .emitted 1, .wrote 1 ⟨1, 1⟩, .disconnected, .connected 2,
        .emitted 2, .wrote 2 ⟨2, 3⟩, .disconnected] ∧ s.status = statusDisconnected ∧
      Machine.Throughout Isolated [] [.connected 1, .emitted 1, .wrote 1 ⟨1, 1⟩, .disconnected, .connected 2,
        .emitted 2, .wrote 2 ⟨2, 3⟩, .disconnected] := by
  have reach : ∃ s, receiver.Reach CallsInTime s [.connected 1, .emitted 1, .wrote 1 ⟨1, 1⟩, .disconnected,
      .connected 2, .emitted 2, .wrote 2 ⟨2, 3⟩, .disconnected] :=
    ⟨_, Machine.Reach.ofExec (M := receiver) CallsInTime [.clientAttached, .requestPermissionAndConnect true "",
      .readerOffer "o1", .runQueued, .pageReceives true, .pageReceives true, .pageTask (.fulfil 1 ""),
      .pageTask (.fulfil 1 "a1"), .pageTask (.fulfil 1 ""), .bridgeReceives, .runQueued, .disconnect,
      .pageReceives true, .requestPermissionAndConnect true "", .pageReceives true, .readerOffer "o2", .runQueued,
      .pageReceives true, .pageTask (.fulfil 2 ""), .pageTask (.fulfil 2 "a2"), .pageTask (.fulfil 2 ""),
      .bridgeReceives, .runQueued, .disconnect] rfl (by decide)⟩
  obtain ⟨s, reach⟩ := reach
  exact ⟨s, reach, (sessions_isolated reach).2 rfl, (sessions_isolated reach).1⟩

/-- An offer that was posted before a disconnect is emitted after it. -/
theorem sessions_not_isolated_after_disconnect :
    ¬ ∀ s log, receiver.Reach Machine.Always s log →
      Machine.Throughout Isolated [] log ∧ (phaseOf log = .disconnected → s.status = statusDisconnected) := by
  intro claim
  have reach := Machine.Reach.ofExec (M := receiver) Machine.Always
    [.requestPermissionAndConnect true "", .readerOffer "o1", .disconnect, .runQueued] rfl (Machine.meets_always ..)
  have isolated : Machine.Throughout Isolated [] [.connected 1, .disconnected, .emitted 1] := (claim _ _ reach).1
  exact absurd isolated (by decide)

end WebRtcDemo.WebView
