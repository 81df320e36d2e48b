import WebRtcDemo.Lib.Machine

/-! The sockets of the page's clients, and which of them has the channel. -/

namespace WebRtcDemo.WebView

/-- A `QWebSocket` of the server: whether its `disconnected` may still be
emitted, whether that signal calls `closeWebClient`, and whether `deleteLater`
was called. -/
structure ClientSocket where
  connected : Bool := false
  wired : Bool := false
  deferred : Bool := false
  deriving DecidableEq, Repr

def ClientSocket.unwire (socket : ClientSocket) : ClientSocket := { socket with wired := false }

def ClientSocket.wire (socket : ClientSocket) : ClientSocket := { socket with wired := true }

def ClientSocket.drop (socket : ClientSocket) : ClientSocket := { socket with connected := false }

def ClientSocket.deleteLater (socket : ClientSocket) : ClientSocket := { socket with deferred := true }

/-- The pointers of the receiver. A channel is given by the socket of the
transport that it is connected to. The sockets that were accepted are numbered
from one, and `accepted` is the last of them. -/
structure Clients where
  m_wsServer : Bool
  m_channel : Option Nat := none
  m_clientSocket : Option Nat := none
  sockets : Nat → ClientSocket := fun _ => {}
  accepted : Nat := 0

def Clients.change (s : Clients) (sock : Nat) (f : ClientSocket → ClientSocket) : Clients :=
  { s with sockets := Function.update s.sockets sock (f (s.sockets sock)) }

/-- `disconnected` is emitted. The slot is called in the emission, for it lives in the same thread. -/
def emitDisconnected (slot : Clients → Clients) (s : Clients) (sock : Nat) : Clients :=
  let s := s.change sock .drop
  if (s.sockets sock).wired then slot s else s

/-- Aborting a connected socket emits `disconnected`, at once or later on. -/
def abort (slot : Clients → Clients) (immediate : Bool) (s : Clients) (sock : Nat) : Clients :=
  if (s.sockets sock).connected ∧ immediate then emitDisconnected slot s sock else s

/-- The second half of `closeWebClient`: the signals are disconnected, the socket aborted and its deletion put off. -/
def releaseSocket (slot : Clients → Clients) (immediate : Bool) (s : Clients) (sock : Nat) : Clients :=
  let s := abort slot immediate (s.change sock .unwire) sock
  { s.change sock .deleteLater with m_clientSocket := none }

/-- The body of `closeWebClient`, with the slot that the signal calls. -/
def closeWebClientWith (slot : Clients → Clients) (immediate : Bool) (s : Clients) : Clients :=
  match s.m_clientSocket with
  | none => { s with m_channel := none }
  | some sock => releaseSocket slot immediate { s with m_channel := none } sock

/-- The signal that `abort` emits does not come back to the slot, see `closeWebClient_eq`. -/
def closeWebClient (immediate : Bool) (s : Clients) : Clients := closeWebClientWith id immediate s

/-- The second half of `onWebSocketClient`. -/
def attach (s : Clients) (sock : Nat) : Clients :=
  { s.change sock .wire with m_clientSocket := some sock, m_channel := some sock }

/-- The next pending connection, which becomes the socket accepted last. -/
def nextPendingConnection (s : Clients) (connected : Bool) : Clients :=
  { s with accepted := s.accepted + 1 }.change (s.accepted + 1) fun _ => { connected }

/-- `pending` says whether there is a pending connection, and in which state. -/
def onWebSocketClient (s : Clients) (pending : Option Bool) (immediate : Bool) : Clients :=
  if s.m_wsServer = false then s
  else
    match pending with
    | none => s
    | some connected => attach (closeWebClient immediate (nextPendingConnection s connected)) (s.accepted + 1)

/-- A connection is announced, a socket is disconnected, or the event loop
deletes one. -/
inductive ClientEvent
  | newConnection (pending : Option Bool) (immediate : Bool)
  | disconnected (sock : Nat) (immediate : Bool)
  | deleted (sock : Nat)
  deriving DecidableEq, Repr

def clientsStep (s : Clients) : ClientEvent → Option (Clients × List Unit)
  | .newConnection pending immediate => some (onWebSocketClient s pending immediate, [])
  | .disconnected sock immediate =>
    if (s.sockets sock).connected then some (emitDisconnected (closeWebClient immediate) s sock, []) else none
  | .deleted sock =>
    if (s.sockets sock).deferred then
      some (s.change sock fun socket => socket.drop.unwire, [])
    else none

def clients (server : Bool) : Machine Clients ClientEvent Unit := ⟨{ m_wsServer := server }, clientsStep⟩

/-- The channel is there exactly if a client is, only that client has it and
can close it, and it is the one accepted last unless that one has disconnected. -/
structure OneClient (s : Clients) : Prop where
  channel : s.m_channel ≠ none ↔ s.m_clientSocket ≠ none
  only : ∀ sock, s.m_channel = some sock ∨ (s.sockets sock).wired = true → s.m_clientSocket = some sock
  latest : ∀ sock, s.m_clientSocket = some sock → sock = s.accepted
  stays : (s.sockets s.accepted).connected = true → s.m_clientSocket = some s.accepted

/-- The disconnection of a client that is not attached changes neither
pointer, and a client that is accepted gets the channel, whatever the socket
before it does when it is aborted. -/
def SuccessorKept (s : Clients) (e : ClientEvent) : Prop :=
  ∀ t out, clientsStep s e = some (t, out) →
    match e with
    | .disconnected sock _ =>
      s.m_clientSocket ≠ some sock → t.m_channel = s.m_channel ∧ t.m_clientSocket = s.m_clientSocket
    | .newConnection pending _ =>
      s.m_wsServer = true → pending.isSome = true →
        t.m_channel = some (s.accepted + 1) ∧ t.m_clientSocket = some (s.accepted + 1)
    | .deleted _ => t.m_channel = s.m_channel ∧ t.m_clientSocket = s.m_clientSocket

/-! What closing does. -/

variable {s t : Clients} {e : ClientEvent} {out : List Unit} {sock : Nat}

@[simp] theorem change_same (s : Clients) (sock : Nat) (f : ClientSocket → ClientSocket) :
    (s.change sock f).sockets sock = f (s.sockets sock) := by
  simp [Clients.change]

theorem change_ne {other : Nat} (different : other ≠ sock) (s : Clients) (f : ClientSocket → ClientSocket) :
    (s.change sock f).sockets other = s.sockets other := by
  simp [Clients.change, different]

/-- A socket whose signal is not connected is aborted without a call of the slot. -/
theorem abort_unwired (slot : Clients → Clients) (immediate : Bool) (unwired : (s.sockets sock).wired = false) :
    abort slot immediate s sock = abort id immediate s sock := by
  unfold abort emitDisconnected
  split
  · simp [unwired, ClientSocket.drop]
  · rfl

theorem releaseSocket_eq (slot : Clients → Clients) (immediate : Bool) (s : Clients) (sock : Nat) :
    releaseSocket slot immediate s sock = releaseSocket id immediate s sock := by
  have unwired : ((s.change sock .unwire).sockets sock).wired = false := by
    rw [change_same]
    rfl
  simp only [releaseSocket, abort_unwired slot immediate unwired]

theorem closeWebClientWith_eq (slot : Clients → Clients) (immediate : Bool) (s : Clients) :
    closeWebClientWith slot immediate s = closeWebClient immediate s := by
  unfold closeWebClient closeWebClientWith
  cases s.m_clientSocket with
  | none => rfl
  | some sock => exact releaseSocket_eq slot immediate _ sock

/-- `disconnect(this)` comes before `abort`, so the slot is not entered again while it runs. -/
theorem closeWebClient_eq (immediate : Bool) (s : Clients) :
    closeWebClient immediate s = closeWebClientWith (closeWebClient immediate) immediate s :=
  (closeWebClientWith_eq _ immediate s).symm

/-- What `closeWebClient` leaves. -/
structure Closed (s t : Clients) : Prop where
  channel : t.m_channel = none
  client : t.m_clientSocket = none
  accepted : t.accepted = s.accepted
  others : ∀ sock, s.m_clientSocket ≠ some sock → t.sockets sock = s.sockets sock
  unwired : ∀ sock, s.m_clientSocket = some sock → (t.sockets sock).wired = false
  gone : ∀ sock, s.m_clientSocket = some sock → (s.sockets sock).connected = false → (t.sockets sock).connected = false

theorem abort_wired (immediate : Bool) (s : Clients) (sock : Nat) :
    ((abort id immediate s sock).sockets sock).wired = (s.sockets sock).wired := by
  unfold abort emitDisconnected
  split
  · simp [ClientSocket.drop]
  · rfl

theorem abort_gone (immediate : Bool) (gone : (s.sockets sock).connected = false) : abort id immediate s sock = s := by
  simp [abort, gone]

theorem abort_others {other : Nat} (different : other ≠ sock) (immediate : Bool) (s : Clients) :
    (abort id immediate s sock).sockets other = s.sockets other := by
  unfold abort emitDisconnected
  split
  · simp [change_ne different]
  · rfl

theorem abort_pointers (immediate : Bool) (s : Clients) (sock : Nat) :
    (abort id immediate s sock).m_channel = s.m_channel ∧ (abort id immediate s sock).accepted = s.accepted := by
  unfold abort emitDisconnected
  split
  · simp [Clients.change]
  · exact ⟨rfl, rfl⟩

theorem releaseSocket_closed (immediate : Bool) (attached : s.m_clientSocket = some sock) :
    Closed s (releaseSocket id immediate { s with m_channel := none } sock) := by
  refine ⟨(abort_pointers _ _ _).1, rfl, (abort_pointers _ _ _).2, fun other different => ?_, fun same client => ?_,
    fun same client gone => ?_⟩
  · have apart : other ≠ sock := fun same => different (by rw [attached, same])
    simp only [releaseSocket, change_ne apart, abort_others apart]
  · obtain rfl : sock = same := Option.some.inj (attached.symm.trans client)
    simp only [releaseSocket, change_same, ClientSocket.deleteLater, abort_wired]
    rfl
  · obtain rfl : sock = same := Option.some.inj (attached.symm.trans client)
    have unwired : (({ s with m_channel := none }.change sock .unwire).sockets sock).connected = false := by
      rw [change_same]
      exact gone
    simp only [releaseSocket, change_same, ClientSocket.deleteLater, abort_gone immediate unwired]
    exact gone

theorem closeWebClient_closed (immediate : Bool) (s : Clients) : Closed s (closeWebClient immediate s) := by
  unfold closeWebClient closeWebClientWith
  split
  · rename_i absent
    have none (sock : Nat) : s.m_clientSocket ≠ some sock := by
      rw [absent]
      exact Option.some_ne_none sock |>.symm
    exact ⟨rfl, absent, rfl, fun _ _ => rfl, fun sock client => absurd client (none sock),
      fun sock client => absurd client (none sock)⟩
  · rename_i sock attached
    exact releaseSocket_closed immediate attached

/-! The invariant. -/

/-- The channel is the client's, exactly its signal closes it, and it is the
socket accepted last unless that one has disconnected. -/
structure Wired (s : Clients) : Prop where
  channel : s.m_channel = s.m_clientSocket
  wired : ∀ sock, (s.sockets sock).wired = true → s.m_clientSocket = some sock
  latest : ∀ sock, s.m_clientSocket = some sock → sock = s.accepted
  stays : (s.sockets s.accepted).connected = true → (s.sockets s.accepted).wired = true

theorem Wired.oneClient (holds : Wired s) : OneClient s where
  channel := by rw [holds.channel]
  only sock := by
    rintro (has | wired)
    · rw [← holds.channel, has]
    · exact holds.wired sock wired
  latest := holds.latest
  stays connected := holds.wired s.accepted (holds.stays connected)

theorem Wired.unwired (holds : Wired s) (closed : Closed s t) (sock : Nat) : (t.sockets sock).wired = false := by
  by_cases attached : s.m_clientSocket = some sock
  · exact closed.unwired sock attached
  · rw [closed.others sock attached]
    exact Bool.eq_false_iff.mpr fun wired => attached (holds.wired sock wired)

theorem Wired.closed (holds : Wired s) (closed : Closed s t) (gone : (s.sockets s.accepted).connected = false) :
    Wired t where
  channel := by rw [closed.channel, closed.client]
  wired sock wired := by
    rw [holds.unwired closed sock] at wired
    cases wired
  latest sock client := by
    rw [closed.client] at client
    cases client
  stays connected := by
    rw [closed.accepted] at connected
    by_cases attached : s.m_clientSocket = some s.accepted
    · rw [closed.gone _ attached gone] at connected
      cases connected
    · rw [closed.others _ attached, gone] at connected
      cases connected

/-- A socket that is disconnected, and perhaps gone. -/
theorem Wired.change (holds : Wired s) (sock : Nat) {f : ClientSocket → ClientSocket}
    (drops : ∀ socket, (f socket).connected = false) (narrows : ∀ socket, (f socket).wired = true → socket.wired = true) :
    Wired (s.change sock f) where
  channel := holds.channel
  wired other wired := by
    by_cases same : other = sock
    · subst same
      rw [change_same] at wired
      exact holds.wired other (narrows _ wired)
    · rw [change_ne same] at wired
      exact holds.wired other wired
  latest := holds.latest
  stays connected := by
    change ((s.change sock f).sockets s.accepted).connected = true at connected
    change ((s.change sock f).sockets s.accepted).wired = true
    by_cases same : s.accepted = sock
    · rw [same, change_same, drops] at connected
      cases connected
    · rw [change_ne same] at connected ⊢
      exact holds.stays connected

/-- The signal of the client closes it, and that of any other socket does nothing. -/
theorem Wired.disconnected (holds : Wired s) (immediate : Bool) (sock : Nat) :
    Wired (emitDisconnected (closeWebClient immediate) s sock) := by
  have dropped : Wired (s.change sock .drop) := holds.change sock (fun _ => rfl) fun _ wired => wired
  unfold emitDisconnected
  simp only []
  split
  · rename_i wired
    refine dropped.closed (closeWebClient_closed immediate _) ?_
    have last := dropped.latest sock (dropped.wired sock wired)
    rw [← last, change_same]
    rfl
  · exact dropped

theorem Wired.attach (unwired : ∀ sock, sock ≠ s.accepted → (s.sockets sock).wired = false) :
    Wired (attach s s.accepted) where
  channel := rfl
  wired sock wired := by
    by_cases same : sock = s.accepted
    · rw [same]
      rfl
    · have other : (s.sockets sock).wired = true := by
        rwa [← change_ne same s .wire]
      rw [unwired sock same] at other
      cases other
  latest sock client := (Option.some.inj client).symm
  stays _ := by
    change ((s.change s.accepted .wire).sockets s.accepted).wired = true
    rw [change_same]
    rfl

/-- A new client takes the place of the one before. -/
theorem Wired.accept (holds : Wired s) (pending : Option Bool) (immediate : Bool) :
    Wired (onWebSocketClient s pending immediate) := by
  unfold onWebSocketClient
  split
  · exact holds
  cases pending with
  | none => exact holds
  | some connected =>
    have closed := closeWebClient_closed immediate (nextPendingConnection s connected)
    have last : (closeWebClient immediate (nextPendingConnection s connected)).accepted = s.accepted + 1 :=
      closed.accepted
    simp only [← last]
    refine .attach fun sock other => ?_
    rw [last] at other
    by_cases attached : s.m_clientSocket = some sock
    · exact closed.unwired sock attached
    · rw [closed.others sock attached, nextPendingConnection, change_ne other]
      exact Bool.eq_false_iff.mpr fun wired => attached (holds.wired sock wired)

theorem Wired.step (holds : Wired s) (run : clientsStep s e = some (t, out)) : Wired t := by
  cases e with
  | newConnection pending immediate =>
    cases run
    exact holds.accept pending immediate
  | disconnected sock immediate =>
    simp only [clientsStep, Option.ite_none_right_eq_some, Option.some.injEq, Prod.mk.injEq] at run
    obtain ⟨_, rfl, _⟩ := run
    exact holds.disconnected immediate sock
  | deleted sock =>
    simp only [clientsStep, Option.ite_none_right_eq_some, Option.some.injEq, Prod.mk.injEq] at run
    obtain ⟨_, rfl, _⟩ := run
    exact holds.change sock (fun _ => rfl) fun _ wired => by cases wired

theorem Wired.successorKept (holds : Wired s) (e : ClientEvent) : SuccessorKept s e := by
  intro t out run
  cases e with
  | newConnection pending immediate =>
    cases run
    intro server some
    obtain ⟨connected, rfl⟩ := Option.isSome_iff_exists.mp some
    simp [onWebSocketClient, server, WebView.attach]
  | disconnected sock immediate =>
    simp only [clientsStep, Option.ite_none_right_eq_some, Option.some.injEq, Prod.mk.injEq] at run
    obtain ⟨_, rfl, _⟩ := run
    intro other
    have unwired : ((s.change sock .drop).sockets sock).wired = false := by
      rw [change_same]
      exact Bool.eq_false_iff.mpr fun wired => other (holds.wired sock wired)
    simp only [emitDisconnected, unwired]
    exact ⟨rfl, rfl⟩
  | deleted sock =>
    simp only [clientsStep, Option.ite_none_right_eq_some, Option.some.injEq, Prod.mk.injEq] at run
    obtain ⟨_, rfl, _⟩ := run
    exact ⟨rfl, rfl⟩

theorem Wired.initial (server : Bool) : Wired (clients server).init where
  channel := rfl
  wired _ wired := by cases wired
  latest _ client := by cases client
  stays connected := by cases connected

/-- Over any clients that come and go, the channel belongs to the one accepted
last, and no client that was replaced closes it. -/
theorem client_replacement (server : Bool) (es : List ClientEvent) :
    (clients server).Along OneClient (clients server).init es ∧
      (clients server).Meets SuccessorKept (clients server).init es := by
  have kept : ∀ s e t out, Wired s → Machine.Always s e → (clients server).step s e = some (t, out) → Wired t :=
    fun s e t out holds _ run => holds.step run
  have all := Machine.meets_always (M := clients server) (clients server).init es
  constructor
  · exact (Machine.along_iff_meets (I := Wired) (fun s holds => holds.oneClient) kept (fun _ _ _ _ _ _ _ => trivial)
      (fun _ _ _ _ => trivial) (.initial server) es).mpr all
  · exact Machine.Meets.of_invariant (I := Wired) (fun s e holds => holds.successorKept e) kept (.initial server) all

/-- A page is reloaded before the socket of the old page is closed: the old
socket is aborted, its late `disconnected` does nothing, and the new one has the channel. -/
example : ((clients true).exec (clients true).init
    [.newConnection (some true) false, .newConnection (some true) false, .disconnected 1 false]).map
      (fun r => (r.1.m_channel, r.1.m_clientSocket)) = some (some 2, some 2) := by
  decide

end WebRtcDemo.WebView
