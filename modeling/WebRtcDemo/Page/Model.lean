import WebRtcDemo.Lib.Machine

namespace WebRtcDemo.Page

/-- The argument of `addIceCandidate`. -/
structure IceInit where
  candidate : String
  sdpMid : String
  sdpMLineIndex : Int
  deriving DecidableEq, Repr

/-- What the script can see of one `RTCPeerConnection`, and the number of the
offer whose handler created it. -/
structure PeerConnection where
  offer : Nat
  isClosed : Bool
  remoteDescription : Option String
  localDescription : Option String
  connectionState : String
  deriving DecidableEq, Repr

/-- The promise a chain waits for. -/
inductive Waiting
  | setRemoteDescription (sdp : String)
  | createAnswer
  | setLocalDescription (answer : String)
  deriving DecidableEq, Repr

/-- The chain started by one offer: the connection whose promise it waits
for, which is the global `pc` of the moment the call was made. -/
structure Chain where
  conn : Nat
  waiting : Waiting
  deriving DecidableEq, Repr

/-- The globals of the page script, all connections ever created, and for
each offer its promise chain while that is not settled. -/
structure State where
  conns : Nat → PeerConnection
  created : Nat
  pc : Option Nat
  pending : List IceInit
  offers : Nat
  chain : Nat → Option Chain

/-- Tasks of the page. The browser decides whether a constructor call
succeeds, which promise settles and how, and what a connection reports. -/
inductive Event
  | offerReceived (sdp : String) (constructed : Bool)
  | iceCandidateReceived (mid : String) (idx : Int) (cand : String)
  | signalingClosed
  | fulfil (offer : Nat) (value : String)
  | reject (offer : Nat)
  | localCandidate (conn : Nat) (candidate : Option IceInit)
  | connectionStateChange (conn : Nat) (state : String)
  deriving DecidableEq, Repr

/-- What a task does outside the script's own variables. The first three
record what the page was told, the others what it calls. -/
inductive Action
  | offered (offer : Nat)
  | closed
  | received (conn : Nat) (init : IceInit)
  | addIceCandidate (conn : Nat) (init : IceInit)
  | sendAnswer (offer : Nat) (sdp : String)
  | sendIceCandidate (conn : Nat) (init : IceInit)
  | notifyPeerState (conn : Nat) (state : String)
  deriving DecidableEq, Repr

def freshConnection (offer : Nat) : PeerConnection where
  offer := offer
  isClosed := false
  remoteDescription := none
  localDescription := none
  connectionState := "new"

def initial : State where
  conns := fun _ => freshConnection 0
  created := 0
  pc := none
  pending := []
  offers := 0
  chain := fun _ => none

def State.setConn (s : State) (i : Nat) (c : PeerConnection) : State :=
  { s with conns := Function.update s.conns i c }

def State.setChain (s : State) (k : Nat) (c : Option Chain) : State :=
  { s with chain := Function.update s.chain k c }

/-- `if (pc) { try { pc.close(); } catch (e) {} pc = null; }` -/
def closePc (s : State) : State :=
  match s.pc with
  | none => s
  | some i => { s.setConn i { s.conns i with isClosed := true } with pc := none }

/-- When the constructor throws, the handler ends there. -/
def offerReceived (s : State) (sdp : String) (constructed : Bool) : State :=
  let s := { closePc s with offers := s.offers + 1, pending := [] }
  if constructed then
    let i := s.created
    ({ s.setConn i (freshConnection s.offers) with created := i + 1, pc := some i }).setChain s.offers
      (some ⟨i, .setRemoteDescription sdp⟩)
  else s

def signalingClosed (s : State) : State := { closePc s with pending := [] }

def iceCandidateReceived (s : State) (init : IceInit) : State × List Action :=
  match s.pc with
  | none => (s, [])
  | some i =>
    if init.candidate = "" then (s, [])
    else if (s.conns i).remoteDescription.isNone then
      ({ s with pending := s.pending ++ [init] }, [.received i init])
    else (s, [.received i init, .addIceCandidate i init])

def flushPending (s : State) : State × List Action :=
  match s.pc with
  | none => (s, [])
  | some i => ({ s with pending := [] }, s.pending.map (.addIceCandidate i))

/-- First callback: `flushPending(); return pc.createAnswer();`. With no `pc`
the call throws and the chain ends in its `catch`. -/
def remoteDescriptionSet (s : State) (k : Nat) : State × List Action :=
  let (s, actions) := flushPending s
  (s.setChain k (s.pc.map fun i => ⟨i, .createAnswer⟩), actions)

/-- Second callback: `return pc.setLocalDescription(answer);` -/
def answerCreated (s : State) (k : Nat) (answer : String) : State :=
  s.setChain k (s.pc.map fun i => ⟨i, .setLocalDescription answer⟩)

/-- Third callback: `if (bridge && pc && pc.localDescription) bridge.sendAnswer(...)`. -/
def localDescriptionSet (s : State) (k : Nat) : State × List Action :=
  (s.setChain k none,
    match s.pc with
    | none => []
    | some i =>
      match (s.conns i).localDescription with
      | none => []
      | some sdp => [.sendAnswer k sdp])

/-- A promise fulfils: its effect on the connection and its callback are one
task. Nothing fulfils on a connection that was closed. -/
def fulfil (s : State) (k : Nat) (value : String) : Option (State × List Action) :=
  match s.chain k with
  | none => none
  | some ⟨c, waiting⟩ =>
    if (s.conns c).isClosed then none
    else match waiting with
      | .setRemoteDescription sdp =>
        some (remoteDescriptionSet (s.setConn c { s.conns c with remoteDescription := some sdp }) k)
      | .createAnswer => some (answerCreated s k value, [])
      | .setLocalDescription answer =>
        some (localDescriptionSet (s.setConn c { s.conns c with localDescription := some answer }) k)

/-- A rejection goes to the `catch` at the end, which only reports it. -/
def reject (s : State) (k : Nat) : Option (State × List Action) :=
  match s.chain k with
  | none => none
  | some _ => some (s.setChain k none, [])

/-- `onicecandidate`, called for connections that exist and are not closed. -/
def localCandidate (s : State) (i : Nat) (candidate : Option IceInit) : Option (State × List Action) :=
  if i < s.created ∧ (s.conns i).isClosed = false then
    some (s, (candidate.map (Action.sendIceCandidate i)).toList)
  else none

/-- `onconnectionstatechange` reports the state of the global `pc`. -/
def connectionStateChange (s : State) (i : Nat) (state : String) : Option (State × List Action) :=
  if i < s.created ∧ (s.conns i).isClosed = false then
    let s := s.setConn i { s.conns i with connectionState := state }
    some (s, (s.pc.map fun j => Action.notifyPeerState j (s.conns j).connectionState).toList)
  else none

def step (s : State) : Event → Option (State × List Action)
  | .offerReceived sdp constructed => some (offerReceived s sdp constructed, [.offered (s.offers + 1)])
  | .iceCandidateReceived mid idx cand => some (iceCandidateReceived s ⟨cand, mid, idx⟩)
  | .signalingClosed => some (signalingClosed s, [.closed])
  | .fulfil k value => fulfil s k value
  | .reject k => reject s k
  | .localCandidate i candidate => localCandidate s i candidate
  | .connectionStateChange i state => connectionStateChange s i state

def page : Machine State Event Action := ⟨initial, step⟩

/-! What the handlers do to each variable. -/

section Fields
variable (s : State) (i k : Nat)

@[simp] theorem setConn_conns (c : PeerConnection) : (s.setConn i c).conns = Function.update s.conns i c := rfl
@[simp] theorem setConn_created (c : PeerConnection) : (s.setConn i c).created = s.created := rfl
@[simp] theorem setConn_pc (c : PeerConnection) : (s.setConn i c).pc = s.pc := rfl
@[simp] theorem setConn_pending (c : PeerConnection) : (s.setConn i c).pending = s.pending := rfl
@[simp] theorem setConn_offers (c : PeerConnection) : (s.setConn i c).offers = s.offers := rfl
@[simp] theorem setConn_chain (c : PeerConnection) : (s.setConn i c).chain = s.chain := rfl
@[simp] theorem setChain_conns (c : Option Chain) : (s.setChain k c).conns = s.conns := rfl
@[simp] theorem setChain_created (c : Option Chain) : (s.setChain k c).created = s.created := rfl
@[simp] theorem setChain_pc (c : Option Chain) : (s.setChain k c).pc = s.pc := rfl
@[simp] theorem setChain_pending (c : Option Chain) : (s.setChain k c).pending = s.pending := rfl
@[simp] theorem setChain_offers (c : Option Chain) : (s.setChain k c).offers = s.offers := rfl
@[simp] theorem setChain_chain (c : Option Chain) : (s.setChain k c).chain = Function.update s.chain k c := rfl

end Fields

section Specs
variable {s t : State} {i k : Nat} {out : List Action}

/-- A connection that is written back with other fields changed keeps this one. -/
theorem setConn_keeps {β : Type} (field : PeerConnection → β) {c : PeerConnection} (same : field c = field (s.conns i))
    (j : Nat) : field ((s.setConn i c).conns j) = field (s.conns j) := by
  rw [setConn_conns]
  by_cases here : j = i
  · rw [here, Function.update_self, same]
  · rw [Function.update_of_ne here]

/-- When a chain ends the others stay as they are. -/
theorem chain_of_setChain_none {l : Nat} {c : Chain} (atL : (s.setChain k none).chain l = some c) :
    s.chain l = some c := by
  rw [setChain_chain] at atL
  by_cases here : l = k
  · rw [here, Function.update_self] at atL
    cases atL
  · rwa [Function.update_of_ne here] at atL

theorem reject_spec (run : reject s k = some (t, out)) : t = s.setChain k none ∧ out = [] := by
  unfold reject at run
  split at run
  · cases run
  · cases run
    exact ⟨rfl, rfl⟩

theorem localCandidate_spec {candidate : Option IceInit} (run : localCandidate s i candidate = some (t, out)) :
    (i < s.created ∧ (s.conns i).isClosed = false) ∧ t = s ∧ out = (candidate.map (Action.sendIceCandidate i)).toList := by
  unfold localCandidate at run
  split at run
  · rename_i there
    cases run
    exact ⟨there, rfl, rfl⟩
  · cases run

theorem connectionStateChange_spec {state : String} (run : connectionStateChange s i state = some (t, out)) :
    t = s.setConn i { s.conns i with connectionState := state } ∧
      out = (s.pc.map fun j => Action.notifyPeerState j (t.conns j).connectionState).toList := by
  unfold connectionStateChange at run
  split at run
  · cases run
    exact ⟨rfl, rfl⟩
  · cases run

end Specs

end WebRtcDemo.Page
