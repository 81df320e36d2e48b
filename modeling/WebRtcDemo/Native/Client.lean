import WebRtcDemo.Lib.Machine

namespace WebRtcDemo.Native

structure PendingRemoteIce where
  mid : String
  mlineIndex : Int
  candidate : String
  deriving DecidableEq, Repr

/-- A handled candidate with its arrival number, which tells equal candidates
apart and is not in the code. -/
structure Arrival where
  number : Nat
  ice : PendingRemoteIce
  deriving DecidableEq, Repr

inductive SdpType
  | offer
  | prAnswer
  | answer
  | rollback
  deriving DecidableEq, Repr

def sdpTypeFromString (t : String) : Option SdpType :=
  if t = "offer" then some .offer
  else if t = "pranswer" then some .prAnswer
  else if t = "answer" then some .answer
  else if t = "rollback" then some .rollback
  else none

def sdpTypeFromOfferAnswerString (t : String) : SdpType :=
  match sdpTypeFromString t with
  | some type => type
  | none =>
    if t = "offer" then .offer
    else if t = "answer" then .answer
    else if t = "pranswer" then .prAnswer
    else .offer

/-- A description returned by `CreateAnswer`, with the connection that made it. -/
structure Answer where
  conn : Nat
  sdp : String
  deriving DecidableEq, Repr

/-- Members of `WebRTCReceiverClient`, and the calls whose completion is still
to come. A connection is named by the number of the `handleOffer` call that
created it. `posted` are the queued calls of `doCreateAnswerAfterSetRemote`,
each with the connection whose completion posted it. -/
structure State where
  offers : Nat
  arrivals : Nat
  factory : Bool
  peerConnection : Option Nat
  pendingRemoteIce : List Arrival
  remoteDescriptionApplied : Bool
  signaling : Bool
  settingRemote : List Nat
  posted : List Nat
  creating : List Nat
  settingLocal : List Answer
  crashed : Bool
  deriving DecidableEq, Repr

/-- What WebRTC answers to the calls made by `handleOffer`. -/
structure OfferOutcome where
  factoryCreated : Bool
  connectionError : Option String
  parseError : Option String
  deriving DecidableEq, Repr

inductive CreateAnswerResult
  | failure (message : String)
  | noDescription
  | notPrintable
  | success (sdp : String)
  deriving DecidableEq, Repr

inductive Event
  | connectToSignaling (started : Bool)
  | signalingError (message : String)
  | disconnect
  | handleOffer (type sdp : String) (outcome : OfferOutcome)
  | handleRemoteIceCandidate (ice : PendingRemoteIce)
  | setRemoteDescriptionComplete (conn : Nat) (error : Option String)
  | doCreateAnswerAfterSetRemote
  | createAnswerComplete (conn : Nat) (result : CreateAnswerResult)
  | setLocalDescriptionComplete (answer : Answer) (error : Option String)
  deriving DecidableEq, Repr

/-- What is done outside the members. `offered`, `arrived` and
`remoteDescriptionSet` record what happened to the client. A call through
`m_peerConnection` names the connection it is made on. -/
inductive Action
  | offered
  | arrived (arrival : Arrival)
  | remoteDescriptionSet (conn : Nat)
  | statusChanged (status : String)
  | close (conn : Nat)
  | setRemoteDescription (conn : Nat) (type : SdpType) (sdp : String)
  | createAnswer (conn : Nat)
  | setLocalDescription (conn : Option Nat) (answer : Answer)
  | sendAnswer (answer : Answer)
  | addRemoteIceCandidateNow (conn : Option Nat) (arrival : Arrival)
  deriving DecidableEq, Repr

def initial : State where
  offers := 0
  arrivals := 0
  factory := false
  peerConnection := none
  pendingRemoteIce := []
  remoteDescriptionApplied := false
  signaling := false
  settingRemote := []
  posted := []
  creating := []
  settingLocal := []
  crashed := false

def connectToSignaling (s : State) (started : Bool) : State × List Action :=
  ({ s with signaling := started },
    [.statusChanged "正在连接信令服务器...",
      .statusChanged (if started then "已连接信令服务器 (role=receiver)，等待 Offer..." else "连接信令服务器失败")])

def disconnect (s : State) : State × List Action :=
  ({ s with pendingRemoteIce := [], remoteDescriptionApplied := false, signaling := false, peerConnection := none },
    (s.peerConnection.map Action.close).toList)

def initWebRTC (s : State) (factoryCreated : Bool) : State × List Action :=
  if s.factory then (s, [])
  else if factoryCreated then ({ s with factory := true }, [])
  else (s, [.statusChanged "创建 PeerConnectionFactory 失败"])

/-- The new connection is the one of the offer that is being handled. -/
def createPeerConnection (s : State) (outcome : OfferOutcome) : State × List Action :=
  let (s, out) := initWebRTC s outcome.factoryCreated
  if s.factory then
    let out := out ++ (s.peerConnection.map Action.close).toList
    match outcome.connectionError with
    | some message =>
      ({ s with peerConnection := none }, out ++ [.statusChanged ("CreatePeerConnection 失败: " ++ message)])
    | none => ({ s with peerConnection := some s.offers }, out)
  else (s, out)

def handleOffer (s : State) (type sdp : String) (outcome : OfferOutcome) : State × List Action :=
  let s := { s with offers := s.offers + 1, pendingRemoteIce := [], remoteDescriptionApplied := false }
  let (s, created) := createPeerConnection s outcome
  let out := [.offered, .statusChanged "收到 Offer，正在创建 Answer..."] ++ created
  match s.peerConnection with
  | none => (s, out)
  | some c =>
    match outcome.parseError with
    | some description => (s, out ++ [.statusChanged ("解析远端 SDP 失败: " ++ description)])
    | none =>
      ({ s with settingRemote := s.settingRemote ++ [c] },
        out ++ [.setRemoteDescription c (sdpTypeFromOfferAnswerString type) sdp])

/-- With no connection the call returns at once; what WebRTC makes of the
candidate is only logged. -/
def addRemoteIceCandidateNow (s : State) (arrival : Arrival) : Action :=
  .addRemoteIceCandidateNow s.peerConnection arrival

def flushPendingRemoteIceCandidates (s : State) : State × List Action :=
  ({ s with pendingRemoteIce := [] }, s.pendingRemoteIce.map (addRemoteIceCandidateNow s))

def handleRemoteIceCandidate (s : State) (ice : PendingRemoteIce) : State × List Action :=
  let arrival : Arrival := ⟨s.arrivals, ice⟩
  let s := { s with arrivals := s.arrivals + 1 }
  if s.peerConnection.isNone then
    ({ s with pendingRemoteIce := s.pendingRemoteIce ++ [arrival] }, [.arrived arrival])
  else if s.remoteDescriptionApplied = false then
    ({ s with pendingRemoteIce := s.pendingRemoteIce ++ [arrival] }, [.arrived arrival])
  else (s, [.arrived arrival, addRemoteIceCandidateNow s arrival])

/-- The lambda of `SetRemoteDescObserver`. -/
def setRemoteDescriptionComplete (s : State) (conn : Nat) (error : Option String) : State × List Action :=
  match error with
  | some message =>
    ({ s with remoteDescriptionApplied := false, pendingRemoteIce := [] },
      [.statusChanged ("SetRemoteDescription 失败: " ++ message)])
  | none =>
    let (s, flushed) := flushPendingRemoteIceCandidates { s with remoteDescriptionApplied := true }
    ({ s with posted := s.posted ++ [conn] }, .remoteDescriptionSet conn :: flushed)

def doCreateAnswerAfterSetRemote (s : State) : State × List Action :=
  match s.peerConnection with
  | none => (s, [])
  | some c => ({ s with creating := s.creating ++ [c] }, [.createAnswer c])

/-- The lambdas of `CreateAnswerObserver`. `SetLocalDescription` is called
through `m_peerConnection` with no check. -/
def createAnswerComplete (s : State) (conn : Nat) (result : CreateAnswerResult) : State × List Action :=
  match result with
  | .failure message => (s, [.statusChanged ("CreateAnswer 失败: " ++ message)])
  | .noDescription => (s, [.statusChanged "CreateAnswer 成功但未返回 SDP 对象"])
  | .notPrintable => (s, [.statusChanged "CreateAnswer SDP ToString 失败或为空"])
  | .success sdp =>
    if sdp = "" then (s, [.statusChanged "CreateAnswer SDP ToString 失败或为空"])
    else
      match s.peerConnection with
      | none => ({ s with crashed := true }, [.setLocalDescription none ⟨conn, sdp⟩])
      | some c =>
        ({ s with settingLocal := s.settingLocal ++ [⟨conn, sdp⟩] }, [.setLocalDescription (some c) ⟨conn, sdp⟩])

/-- The lambdas of `SetLocalDescObserver`. -/
def setLocalDescriptionComplete (s : State) (answer : Answer) (error : Option String) : List Action :=
  match error with
  | some message => [.statusChanged ("SetLocalDescription 失败: " ++ message)]
  | none =>
    if s.signaling then [.sendAnswer answer, .statusChanged "Answer 已发送，ICE 候选交换中..."]
    else [.statusChanged "SetLocal OK 但信令已断开，Answer 未发出"]

/-- WebRTC delivers each completion at most once, in any order. Calls posted to
the Qt thread run in the order they were posted. -/
def step (s : State) (e : Event) : Option (State × List Action) :=
  if s.crashed then none
  else match e with
    | .connectToSignaling started => some (connectToSignaling s started)
    | .signalingError message => some (s, [.statusChanged ("信令错误: " ++ message)])
    | .disconnect => some (disconnect s)
    | .handleOffer type sdp outcome => some (handleOffer s type sdp outcome)
    | .handleRemoteIceCandidate ice => some (handleRemoteIceCandidate s ice)
    | .setRemoteDescriptionComplete conn error =>
      if conn ∈ s.settingRemote then
        some (setRemoteDescriptionComplete { s with settingRemote := s.settingRemote.erase conn } conn error)
      else none
    | .doCreateAnswerAfterSetRemote =>
      match s.posted with
      | [] => none
      | _ :: rest => some (doCreateAnswerAfterSetRemote { s with posted := rest })
    | .createAnswerComplete conn result =>
      if conn ∈ s.creating then
        some (createAnswerComplete { s with creating := s.creating.erase conn } conn result)
      else none
    | .setLocalDescriptionComplete answer error =>
      if answer ∈ s.settingLocal then
        some ({ s with settingLocal := s.settingLocal.erase answer }, setLocalDescriptionComplete s answer error)
      else none

def client : Machine State Event Action := ⟨initial, step⟩

/-- The event could happen, and its handler computed the next state. -/
theorem step_spec {s t : State} {e : Event} {out : List Action} (run : step s e = some (t, out)) :
    match e with
    | .connectToSignaling started => connectToSignaling s started = (t, out)
    | .signalingError message => (s, [.statusChanged ("信令错误: " ++ message)]) = (t, out)
    | .disconnect => disconnect s = (t, out)
    | .handleOffer type sdp outcome => handleOffer s type sdp outcome = (t, out)
    | .handleRemoteIceCandidate ice => handleRemoteIceCandidate s ice = (t, out)
    | .setRemoteDescriptionComplete conn error => conn ∈ s.settingRemote ∧
      setRemoteDescriptionComplete { s with settingRemote := s.settingRemote.erase conn } conn error = (t, out)
    | .doCreateAnswerAfterSetRemote => ∃ conn rest, s.posted = conn :: rest ∧
      doCreateAnswerAfterSetRemote { s with posted := rest } = (t, out)
    | .createAnswerComplete conn result => conn ∈ s.creating ∧
      createAnswerComplete { s with creating := s.creating.erase conn } conn result = (t, out)
    | .setLocalDescriptionComplete answer error => answer ∈ s.settingLocal ∧
      ({ s with settingLocal := s.settingLocal.erase answer }, setLocalDescriptionComplete s answer error) =
        (t, out) := by
  unfold step at run
  split at run
  · cases run
  cases e with
  | connectToSignaling | signalingError | disconnect | handleOffer | handleRemoteIceCandidate =>
    exact Option.some.inj run
  | setRemoteDescriptionComplete | createAnswerComplete | setLocalDescriptionComplete =>
    simp only at run
    split at run
    · rename_i pending
      exact ⟨pending, Option.some.inj run⟩
    · cases run
  | doCreateAnswerAfterSetRemote =>
    simp only at run
    split at run
    · cases run
    · rename_i conn rest atPosted
      exact ⟨conn, rest, atPosted, Option.some.inj run⟩

/-- A candidate waits unless there is a connection and the flag is set. -/
theorem handleRemoteIceCandidate_cases (s : State) (ice : PendingRemoteIce) :
    (s.peerConnection = none ∨ s.remoteDescriptionApplied = false) ∧
        handleRemoteIceCandidate s ice =
          ({ s with arrivals := s.arrivals + 1, pendingRemoteIce := s.pendingRemoteIce ++ [⟨s.arrivals, ice⟩] },
            [.arrived ⟨s.arrivals, ice⟩]) ∨
      (∃ c, s.peerConnection = some c) ∧ s.remoteDescriptionApplied = true ∧
        handleRemoteIceCandidate s ice =
          ({ s with arrivals := s.arrivals + 1 },
            [.arrived ⟨s.arrivals, ice⟩, .addRemoteIceCandidateNow s.peerConnection ⟨s.arrivals, ice⟩]) := by
  cases atPc : s.peerConnection with
  | none => exact .inl ⟨.inl rfl, by simp [handleRemoteIceCandidate, atPc]⟩
  | some c =>
    cases applied : s.remoteDescriptionApplied with
    | false => exact .inl ⟨.inr rfl, by simp [handleRemoteIceCandidate, atPc, applied]⟩
    | true =>
      refine .inr ⟨⟨c, rfl⟩, rfl, ?_⟩
      simp [handleRemoteIceCandidate, addRemoteIceCandidateNow, atPc, applied]

end WebRtcDemo.Native
