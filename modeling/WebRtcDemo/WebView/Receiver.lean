import WebRtcDemo.Page.Negotiation

namespace WebRtcDemo.WebView

/-- Where a call of the page comes from: the session on which the offer was
received that the page made it for, and how many `signalingClosed` the page had
handled by then. The program has neither. -/
structure Origin where
  session : Nat
  closes : Nat
  deriving DecidableEq, Repr

/-- A call of a slot of `WebViewSignalingBridge`, on its way from the page. -/
inductive BridgeCall
  | sendAnswer (origin : Origin) (sdp : String)
  | sendIceCandidate (origin : Origin) (init : Page.IceInit)
  | notifyPeerState (state : String)
  deriving DecidableEq, Repr

/-- A signal of the bridge, on its way to the page. The session is the one it
was received on. -/
inductive PageMessage
  | offerReceived (session : Nat) (sdp : String)
  | iceCandidateReceived (session : Nat) (mid : String) (mlineIndex : Int) (candidate : String)
  | signalingClosed
  deriving DecidableEq, Repr

/-- The calls that wait in the event loop: the functions that the reader
thread posts, with the session of the reader, and the slots of the receiver. -/
inductive Queued
  | offer (session : Nat) (sdp : String)
  | ice (session : Nat) (mid : String) (mlineIndex : Int) (candidate : String)
  | error (err : String)
  | bridge (call : BridgeCall)
  deriving DecidableEq, Repr

/-- What the user last asked for. -/
inductive Phase
  | new
  | connected (session : Nat)
  | disconnected
  deriving DecidableEq, Repr

/-- `WebRtcWebViewReceiver` with the two queues around it and its page.
`signaling` is the session of `m_signaling`, `attached` says whether the page
has a channel. The fields after `toCpp` are history: the number of sessions and
the phase, the `signalingClosed` that were emitted and that the page has
handled, and the session of each offer that the page was given. -/
structure State where
  signaling : Option Nat
  status : String
  queue : List Queued
  attached : Bool
  toPage : List PageMessage
  page : Page.State
  toCpp : List BridgeCall
  sessions : Nat
  phase : Phase
  closes : Nat
  pageCloses : Nat
  offerSession : Nat → Nat

/-- The user's calls, the reader thread, the event loop, the page and its two
directions of the local socket. `started` is what `Start` returns and `err`
what it reports when it fails. -/
inductive Event
  | requestPermissionAndConnect (started : Bool) (err : String)
  | disconnect
  | readerOffer (sdp : String)
  | readerIce (mid : String) (mlineIndex : Int) (candidate : String)
  | runQueued
  | clientAttached
  | clientDetached
  | pageReceives (constructed : Bool)
  | pageTask (task : Page.Event)
  | bridgeReceives
  deriving DecidableEq, Repr

/-- What can be observed: the user's calls, the offers and candidates that are
emitted, and the answers and candidates that are written to a session's socket. -/
inductive Action
  | connected (session : Nat)
  | disconnected
  | emitted (session : Nat)
  | wrote (session : Nat) (origin : Origin)
  deriving DecidableEq, Repr

def initial : State where
  signaling := none
  status := ""
  queue := []
  attached := false
  toPage := []
  page := Page.initial
  toCpp := []
  sessions := 0
  phase := .new
  closes := 0
  pageCloses := 0
  offerSession := fun _ => 0

/-- `未连接` -/
def statusDisconnected : String := "未连接"

/-- A signal reaches the page when it has a channel. -/
def emit (s : State) (message : PageMessage) : State :=
  if s.attached then { s with toPage := s.toPage ++ [message] } else s

/-- `Stop` waits for the reader thread. -/
def disconnect (s : State) : State :=
  { emit s .signalingClosed with signaling := none, status := statusDisconnected, closes := s.closes + 1 }

/-- `on_error_` is called while `Start` fails, so that its text is shown after
the status set here. -/
def requestPermissionAndConnect (s : State) (started : Bool) (err : String) : State :=
  let s := disconnect s
  let n := s.sessions + 1
  let s := { s with sessions := n, phase := .connected n }
  if started then { s with signaling := some n, status := "信令已连接 (subscriber)，等待 Offer…" }
  else { s with queue := s.queue ++ [.error err], status := "连接信令失败" }

def onBridgeAnswer (s : State) (origin : Origin) (sdp : String) : State × List Action :=
  match s.signaling with
  | none => (s, [])
  | some n =>
    if sdp = "" then (s, [])
    else ({ s with status := "页面: Answer 已发出，ICE 交换中…" }, [.wrote n origin])

def onBridgeIce (s : State) (origin : Origin) (init : Page.IceInit) : State × List Action :=
  match s.signaling with
  | none => (s, [])
  | some n => if init.candidate = "" then (s, []) else (s, [.wrote n origin])

/-- The states that change the status. -/
def interrupts (state : String) : Bool := state == "failed" || state == "disconnected"

def onBridgePeerState (s : State) (state : String) : State :=
  if state = "connected" then { s with status := "页面: 已连接（系统 WebView / Chromium 解码）" }
  else if interrupts state then { s with status := "页面: 连接中断 (" ++ state ++ ")" }
  else s

/-- The functions that `wireSignalingCallbacks` posts, and the slots. -/
def runCall (s : State) : Queued → State × List Action
  | .offer session sdp =>
    ({ emit s (.offerReceived session sdp) with status := "页面: 已收到 Offer 并下发" }, [.emitted session])
  | .ice session mid mlineIndex candidate =>
    (emit s (.iceCandidateReceived session mid mlineIndex candidate), [.emitted session])
  | .error err => ({ s with status := "信令错误: " ++ err }, [])
  | .bridge (.sendAnswer origin sdp) => onBridgeAnswer s origin sdp
  | .bridge (.sendIceCandidate origin init) => onBridgeIce s origin init
  | .bridge (.notifyPeerState state) => (onBridgePeerState s state, [])

/-- A new page takes the place of the one before. What was on its way to or
from that one is lost. -/
def clientAttached (s : State) : State :=
  { s with attached := true, toPage := [], toCpp := [], page := Page.initial, pageCloses := s.closes }

def clientDetached (s : State) : State := { s with attached := false, toPage := [], toCpp := [] }

/-- The page handles a signal; none of its handlers calls the bridge at once. -/
def pageReceives (s : State) (constructed : Bool) : PageMessage → State
  | .offerReceived session sdp =>
    { s with
      page := Page.offerReceived s.page sdp constructed
      offerSession := Function.update s.offerSession (s.page.offers + 1) session }
  | .iceCandidateReceived _ mid mlineIndex candidate =>
    { s with page := (Page.iceCandidateReceived s.page ⟨candidate, mid, mlineIndex⟩).1 }
  | .signalingClosed => { s with page := Page.signalingClosed s.page, pageCloses := s.pageCloses + 1 }

/-- The tasks that the browser starts, not the channel. -/
def ownTask : Page.Event → Bool
  | .offerReceived _ _ => false
  | .iceCandidateReceived _ _ _ => false
  | .signalingClosed => false
  | _ => true

/-- The calls of the bridge among the actions of the page. -/
def bridgeCalls (s : State) (actions : List Page.Action) : List BridgeCall :=
  actions.filterMap fun a => match a with
    | .sendAnswer k sdp => some (.sendAnswer ⟨s.offerSession k, s.pageCloses⟩ sdp)
    | .sendIceCandidate i init =>
      some (.sendIceCandidate ⟨s.offerSession (s.page.conns i).offer, s.pageCloses⟩ init)
    | .notifyPeerState _ state => some (.notifyPeerState state)
    | _ => none

def pageTask (s : State) (task : Page.Event) : Option State :=
  if s.attached ∧ ownTask task then
    (Page.step s.page task).map fun (page, actions) =>
      { s with page := page, toCpp := s.toCpp ++ bridgeCalls s actions }
  else none

def step (s : State) : Event → Option (State × List Action)
  | .requestPermissionAndConnect started err =>
    some (requestPermissionAndConnect s started err, [.connected (s.sessions + 1)])
  | .disconnect => some ({ disconnect s with phase := .disconnected }, [.disconnected])
  | .readerOffer sdp => s.signaling.map fun n => ({ s with queue := s.queue ++ [.offer n sdp] }, [])
  | .readerIce mid mlineIndex candidate =>
    s.signaling.map fun n => ({ s with queue := s.queue ++ [.ice n mid mlineIndex candidate] }, [])
  | .runQueued =>
    match s.queue with
    | [] => none
    | call :: rest => some (runCall { s with queue := rest } call)
  | .clientAttached => some (clientAttached s, [])
  | .clientDetached => some (clientDetached s, [])
  | .pageReceives constructed =>
    match s.toPage with
    | [] => none
    | message :: rest => some (pageReceives { s with toPage := rest } constructed message, [])
  | .pageTask task => (pageTask s task).map fun t => (t, [])
  | .bridgeReceives =>
    match s.toCpp with
    | [] => none
    | call :: rest => some ({ s with toCpp := rest, queue := s.queue ++ [.bridge call] }, [])

def receiver : Machine State Event Action := ⟨initial, step⟩

/-- Everything a step of the receiver can be. -/
inductive ReceiverMove (s : State) : Event → State → List Action → Prop
  | connects (started err) :
    ReceiverMove s (.requestPermissionAndConnect started err) (requestPermissionAndConnect s started err)
      [.connected (s.sessions + 1)]
  | disconnects : ReceiverMove s .disconnect { disconnect s with phase := .disconnected } [.disconnected]
  | receivesOffer (sdp) {session} (opened : s.signaling = some session) :
    ReceiverMove s (.readerOffer sdp) { s with queue := s.queue ++ [.offer session sdp] } []
  | receivesIce (mid mlineIndex candidate) {session} (opened : s.signaling = some session) :
    ReceiverMove s (.readerIce mid mlineIndex candidate)
      { s with queue := s.queue ++ [.ice session mid mlineIndex candidate] } []
  | runs {call rest} (queued : s.queue = call :: rest) :
    ReceiverMove s .runQueued (runCall { s with queue := rest } call).1 (runCall { s with queue := rest } call).2
  | attaches : ReceiverMove s .clientAttached (clientAttached s) []
  | detaches : ReceiverMove s .clientDetached (clientDetached s) []
  | hears (constructed) {message rest} (waiting : s.toPage = message :: rest) :
    ReceiverMove s (.pageReceives constructed) (pageReceives { s with toPage := rest } constructed message) []
  | works {task page actions} (active : s.attached = true ∧ ownTask task = true)
    (ran : Page.step s.page task = some (page, actions)) :
    ReceiverMove s (.pageTask task) { s with page := page, toCpp := s.toCpp ++ bridgeCalls s actions } []
  | bridges {call rest} (waiting : s.toCpp = call :: rest) :
    ReceiverMove s .bridgeReceives { s with toCpp := rest, queue := s.queue ++ [.bridge call] } []

theorem receiverMove_of_step {s t : State} {e : Event} {out : List Action} (run : step s e = some (t, out)) :
    ReceiverMove s e t out := by
  cases e with
  | requestPermissionAndConnect started err =>
    cases run
    exact .connects started err
  | disconnect =>
    cases run
    exact .disconnects
  | readerOffer sdp =>
    obtain ⟨session, opened, posted⟩ := Option.map_eq_some_iff.mp run
    cases posted
    exact .receivesOffer sdp opened
  | readerIce mid mlineIndex candidate =>
    obtain ⟨session, opened, posted⟩ := Option.map_eq_some_iff.mp run
    cases posted
    exact .receivesIce mid mlineIndex candidate opened
  | runQueued =>
    simp only [step] at run
    split at run
    · cases run
    · rename_i queued
      have move := ReceiverMove.runs queued
      rw [Option.some.inj run] at move
      exact move
  | clientAttached =>
    cases run
    exact .attaches
  | clientDetached =>
    cases run
    exact .detaches
  | pageReceives constructed =>
    simp only [step] at run
    split at run
    · cases run
    · rename_i waiting
      cases run
      exact .hears constructed waiting
  | pageTask task =>
    obtain ⟨next, made, same⟩ := Option.map_eq_some_iff.mp run
    cases same
    unfold pageTask at made
    split at made
    · rename_i active
      obtain ⟨⟨page, actions⟩, ran, rfl⟩ := Option.map_eq_some_iff.mp made
      exact .works active ran
    · cases made
  | bridgeReceives =>
    simp only [step] at run
    split at run
    · cases run
    · rename_i waiting
      cases run
      exact .bridges waiting

end WebRtcDemo.WebView
