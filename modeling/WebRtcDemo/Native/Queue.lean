import WebRtcDemo.Native.Client

namespace WebRtcDemo.Native

/-! The client behind the event queue of its Qt thread. -/

/-- A call posted with `Qt::QueuedConnection`. Offers and candidates carry the
number of the signaling client that received them. -/
inductive Posted
  | offer (client : Nat) (type sdp : String)
  | ice (client : Nat) (ice : PendingRemoteIce)
  | sendIceCandidate (ice : PendingRemoteIce)
  | createAnswer
  | signalingError (message : String)
  deriving DecidableEq, Repr

/-- `client` is the signaling client that `m_signaling` points to; `clients`
counts the calls of `connectToSignaling`. -/
structure Session where
  base : State
  queue : List Posted
  client : Option Nat
  clients : Nat
  deriving DecidableEq, Repr

/-- `failure` is the text with which `Connect` reports an error. The reader
events happen on the reader thread, the completions on a thread of WebRTC. -/
inductive QtEvent
  | connectToSignaling (failure : Option String)
  | disconnect
  | readerOffer (type sdp : String)
  | readerIce (ice : PendingRemoteIce)
  | onIceCandidate (ice : PendingRemoteIce)
  | setRemoteDescriptionComplete (conn : Nat) (error : Option String)
  | createAnswerComplete (conn : Nat) (result : CreateAnswerResult)
  | setLocalDescriptionComplete (answer : Answer) (error : Option String)
  | runNext (outcome : OfferOutcome)
  deriving DecidableEq, Repr

inductive QtAction
  | connectCalled (client : Nat)
  | disconnected
  | handled (client : Nat)
  | created (conn : Nat)
  | sentIceCandidate (ice : PendingRemoteIce)
  | done (action : Action)
  deriving DecidableEq, Repr

/-- A handler of the client ran. -/
def Session.apply (s : Session) (e : Event) (queue : List Posted) (first : List QtAction) :
    Option (Session × List QtAction) :=
  (step s.base e).map fun (base, out) => ({ s with base := base, queue := queue }, first ++ out.map .done)

/-- The posted call at the head of the queue runs. -/
def runNext (s : Session) (outcome : OfferOutcome) : Option (Session × List QtAction) :=
  match s.queue with
  | [] => none
  | .offer client type sdp :: rest =>
    (step s.base (.handleOffer type sdp outcome)).map fun (base, out) =>
      ({ s with base := base, queue := rest },
        .handled client :: (base.peerConnection.map QtAction.created).toList ++ out.map .done)
  | .ice client ice :: rest => s.apply (.handleRemoteIceCandidate ice) rest [.handled client]
  | .sendIceCandidate ice :: rest =>
    some ({ s with queue := rest }, if s.base.signaling then [.sentIceCandidate ice] else [])
  | .createAnswer :: rest => s.apply .doCreateAnswerAfterSetRemote rest []
  | .signalingError message :: rest => s.apply (.signalingError message) rest []

/-- `connectToSignaling` stops an old client, and its reader thread, first.
A failure is reported through the queue. -/
def Session.connectToSignaling (s : Session) (failure : Option String) : Option (Session × List QtAction) :=
  (step s.base (.connectToSignaling failure.isNone)).map fun (base, out) =>
    ({ s with
        base := base
        queue := s.queue ++ failure.toList.map .signalingError
        client := if failure.isNone then some s.clients else none
        clients := s.clients + 1 },
      .connectCalled s.clients :: out.map .done)

def Session.disconnect (s : Session) : Option (Session × List QtAction) :=
  (step s.base .disconnect).map fun (base, out) =>
    ({ s with base := base, client := none }, out.map .done ++ [.disconnected])

def qtStep (s : Session) : QtEvent → Option (Session × List QtAction)
  | .connectToSignaling failure => s.connectToSignaling failure
  | .disconnect => s.disconnect
  | .readerOffer type sdp => s.client.map fun client => ({ s with queue := s.queue ++ [.offer client type sdp] }, [])
  | .readerIce ice => s.client.map fun client => ({ s with queue := s.queue ++ [.ice client ice] }, [])
  | .onIceCandidate ice =>
    some ({ s with queue := if s.base.signaling then s.queue ++ [.sendIceCandidate ice] else s.queue }, [])
  | .setRemoteDescriptionComplete conn error =>
    s.apply (.setRemoteDescriptionComplete conn error)
      (if error.isNone then s.queue ++ [.createAnswer] else s.queue) []
  | .createAnswerComplete conn result => s.apply (.createAnswerComplete conn result) s.queue []
  | .setLocalDescriptionComplete answer error => s.apply (.setLocalDescriptionComplete answer error) s.queue []
  | .runNext outcome => runNext s outcome

def queuedClient : Machine Session QtEvent QtAction := ⟨⟨initial, [], none, 0⟩, qtStep⟩

/-- Everything a step of the client and its queue can be. -/
inductive QtMove (s : Session) : QtEvent → Session → List QtAction → Prop
  | connects (failure) {base made} (stepped : step s.base (.connectToSignaling failure.isNone) = some (base, made)) :
    QtMove s (.connectToSignaling failure)
      { s with
        base := base, queue := s.queue ++ failure.toList.map .signalingError,
        client := if failure.isNone then some s.clients else none, clients := s.clients + 1 }
      (.connectCalled s.clients :: made.map .done)
  | disconnects {base made} (stepped : step s.base .disconnect = some (base, made)) :
    QtMove s .disconnect { s with base := base, client := none } (made.map .done ++ [.disconnected])
  | receivesOffer (type sdp) {client} (atClient : s.client = some client) :
    QtMove s (.readerOffer type sdp) { s with queue := s.queue ++ [.offer client type sdp] } []
  | receivesIce (ice) {client} (atClient : s.client = some client) :
    QtMove s (.readerIce ice) { s with queue := s.queue ++ [.ice client ice] } []
  | findsIce (ice) :
    QtMove s (.onIceCandidate ice)
      { s with queue := if s.base.signaling then s.queue ++ [.sendIceCandidate ice] else s.queue } []
  | remoteSet (conn error) {base made}
    (stepped : step s.base (.setRemoteDescriptionComplete conn error) = some (base, made)) :
    QtMove s (.setRemoteDescriptionComplete conn error)
      { s with base := base, queue := if error.isNone then s.queue ++ [.createAnswer] else s.queue } (made.map .done)
  | answerCreated (conn result) {base made}
    (stepped : step s.base (.createAnswerComplete conn result) = some (base, made)) :
    QtMove s (.createAnswerComplete conn result) { s with base := base } (made.map .done)
  | localSet (answer error) {base made}
    (stepped : step s.base (.setLocalDescriptionComplete answer error) = some (base, made)) :
    QtMove s (.setLocalDescriptionComplete answer error) { s with base := base } (made.map .done)
  | handlesOffer (outcome) {client type sdp rest base made} (atQueue : s.queue = .offer client type sdp :: rest)
    (stepped : step s.base (.handleOffer type sdp outcome) = some (base, made)) :
    QtMove s (.runNext outcome) { s with base := base, queue := rest }
      (.handled client :: (base.peerConnection.map QtAction.created).toList ++ made.map .done)
  | handlesIce (outcome) {client ice rest base made} (atQueue : s.queue = .ice client ice :: rest)
    (stepped : step s.base (.handleRemoteIceCandidate ice) = some (base, made)) :
    QtMove s (.runNext outcome) { s with base := base, queue := rest } (.handled client :: made.map .done)
  | sendsIce (outcome) {ice rest} (atQueue : s.queue = .sendIceCandidate ice :: rest) :
    QtMove s (.runNext outcome) { s with queue := rest } (if s.base.signaling then [.sentIceCandidate ice] else [])
  | createsAnswer (outcome) {rest base made} (atQueue : s.queue = .createAnswer :: rest)
    (stepped : step s.base .doCreateAnswerAfterSetRemote = some (base, made)) :
    QtMove s (.runNext outcome) { s with base := base, queue := rest } (made.map .done)
  | reportsError (outcome) {message rest base made} (atQueue : s.queue = .signalingError message :: rest)
    (stepped : step s.base (.signalingError message) = some (base, made)) :
    QtMove s (.runNext outcome) { s with base := base, queue := rest } (made.map .done)

theorem qtMove_of_runNext {s t : Session} {outcome : OfferOutcome} {out : List QtAction}
    (run : runNext s outcome = some (t, out)) : QtMove s (.runNext outcome) t out := by
  unfold runNext at run
  split at run
  case h_1 => cases run
  case h_4 atQueue =>
    cases run
    exact .sendsIce outcome atQueue
  all_goals
    rename_i atQueue
    obtain ⟨⟨base, made⟩, stepped, result⟩ := Option.map_eq_some_iff.mp run
    cases result
  · exact .handlesOffer outcome atQueue stepped
  · exact .handlesIce outcome atQueue stepped
  · exact .createsAnswer outcome atQueue stepped
  · exact .reportsError outcome atQueue stepped

theorem qtMove_of_step {s t : Session} {e : QtEvent} {out : List QtAction} (run : qtStep s e = some (t, out)) :
    QtMove s e t out := by
  cases e with
  | runNext outcome => exact qtMove_of_runNext run
  | onIceCandidate ice =>
    cases run
    exact .findsIce ice
  | readerOffer type sdp =>
    obtain ⟨client, atClient, result⟩ := Option.map_eq_some_iff.mp run
    cases result
    exact .receivesOffer type sdp atClient
  | readerIce ice =>
    obtain ⟨client, atClient, result⟩ := Option.map_eq_some_iff.mp run
    cases result
    exact .receivesIce ice atClient
  | connectToSignaling failure =>
    obtain ⟨⟨base, made⟩, stepped, result⟩ := Option.map_eq_some_iff.mp run
    cases result
    exact .connects failure stepped
  | disconnect =>
    obtain ⟨⟨base, made⟩, stepped, result⟩ := Option.map_eq_some_iff.mp run
    cases result
    exact .disconnects stepped
  | setRemoteDescriptionComplete conn error =>
    obtain ⟨⟨base, made⟩, stepped, result⟩ := Option.map_eq_some_iff.mp run
    cases result
    exact .remoteSet conn error stepped
  | createAnswerComplete conn result =>
    obtain ⟨⟨base, made⟩, stepped, same⟩ := Option.map_eq_some_iff.mp run
    cases same
    exact .answerCreated conn result stepped
  | setLocalDescriptionComplete answer error =>
    obtain ⟨⟨base, made⟩, stepped, result⟩ := Option.map_eq_some_iff.mp run
    cases result
    exact .localSet answer error stepped

theorem createPeerConnection_posted (s : State) (outcome : OfferOutcome) :
    (createPeerConnection s outcome).1.posted = s.posted := by
  have factory : (initWebRTC s outcome.factoryCreated).1.posted = s.posted := by
    unfold initWebRTC
    split
    · rfl
    · split <;> rfl
  unfold createPeerConnection
  dsimp only
  split
  · split <;> exact factory
  · exact factory

theorem handleOffer_posted (s : State) (type sdp : String) (outcome : OfferOutcome) :
    (handleOffer s type sdp outcome).1.posted = s.posted := by
  have created := createPeerConnection_posted
    { s with offers := s.offers + 1, pendingRemoteIce := [], remoteDescriptionApplied := false } outcome
  unfold handleOffer
  dsimp only
  split
  · exact created
  · split <;> exact created

/-- Which calls are posted by a step of the client. -/
theorem step_posted {s t : State} {e : Event} {out : List Action} (run : step s e = some (t, out)) :
    match e with
    | .setRemoteDescriptionComplete conn none => t.posted = s.posted ++ [conn]
    | .doCreateAnswerAfterSetRemote => ∃ conn, s.posted = conn :: t.posted
    | _ => t.posted = s.posted := by
  have spec := step_spec run
  cases e with
  | connectToSignaling | signalingError | disconnect =>
    cases spec
    rfl
  | handleOffer type sdp outcome =>
    have posted := handleOffer_posted s type sdp outcome
    rw [spec] at posted
    exact posted
  | handleRemoteIceCandidate ice =>
    rcases handleRemoteIceCandidate_cases s ice with ⟨_, result⟩ | ⟨_, _, result⟩
    all_goals
      cases result.symm.trans spec
      rfl
  | setRemoteDescriptionComplete conn error =>
    cases error <;> cases spec.2 <;> rfl
  | doCreateAnswerAfterSetRemote =>
    obtain ⟨conn, rest, posted, result⟩ := spec
    refine ⟨conn, ?_⟩
    unfold doCreateAnswerAfterSetRemote at result
    split at result <;> cases result <;> exact posted
  | createAnswerComplete conn result =>
    obtain ⟨_, handled⟩ := spec
    unfold createAnswerComplete at handled
    repeat' split at handled
    all_goals
      cases handled
      rfl
  | setLocalDescriptionComplete answer error =>
    cases spec.2
    rfl

def Posted.isCreateAnswer : Posted → Bool
  | .createAnswer => true
  | _ => false

/-- The queue and the client agree on the answers that are still to be
created, so the queue never gets stuck at one. -/
theorem queuedClient_posted {s : Session} {log : List QtAction} (reach : queuedClient.Reach Machine.Always s log) :
    s.queue.countP Posted.isCreateAnswer = s.base.posted.length := by
  refine reach.invariant (P := fun s _ => s.queue.countP Posted.isCreateAnswer = s.base.posted.length) rfl ?_
  intro s log e t out agree _ run
  have unposted {base : State} (posted : base.posted = s.base.posted) :
      s.queue.countP Posted.isCreateAnswer = base.posted.length := agree.trans (congrArg List.length posted).symm
  cases qtMove_of_step run with
  | connects failure stepped =>
    have errors : (failure.toList.map Posted.signalingError).countP Posted.isCreateAnswer = 0 := by
      cases failure <;> rfl
    rw [List.countP_append, errors, Nat.add_zero]
    exact unposted (step_posted stepped)
  | disconnects stepped => exact unposted (step_posted stepped)
  | receivesOffer | receivesIce => simpa [Posted.isCreateAnswer] using agree
  | findsIce ice =>
    dsimp only
    split
    · simpa [Posted.isCreateAnswer] using agree
    · exact agree
  | @remoteSet conn error base made stepped =>
    cases error with
    | some message => exact unposted (step_posted stepped)
    | none =>
      have posted : base.posted = s.base.posted ++ [conn] := step_posted stepped
      rw [posted]
      simpa [Posted.isCreateAnswer] using agree
  | answerCreated _ _ stepped => exact unposted (step_posted stepped)
  | localSet _ _ stepped => exact unposted (step_posted stepped)
  | handlesOffer _ atQueue stepped =>
    have kept := unposted (step_posted stepped)
    simpa [atQueue, Posted.isCreateAnswer] using kept
  | handlesIce _ atQueue stepped =>
    have kept := unposted (step_posted stepped)
    simpa [atQueue, Posted.isCreateAnswer] using kept
  | sendsIce _ atQueue => simpa [atQueue, Posted.isCreateAnswer] using agree
  | @createsAnswer _ rest base made atQueue stepped =>
    obtain ⟨conn, posted⟩ : ∃ conn, s.base.posted = conn :: base.posted := step_posted stepped
    rw [atQueue, posted, List.countP_cons_of_pos rfl, List.length_cons] at agree
    exact Nat.succ.inj agree
  | reportsError _ atQueue stepped =>
    have kept := unposted (step_posted stepped)
    simpa [atQueue, Posted.isCreateAnswer] using kept

/-! `disconnect` is final. -/

/-- Nothing is left of the session. -/
structure Disconnected (s : Session) : Prop where
  noConnection : s.base.peerConnection = none
  noCandidate : s.base.pendingRemoteIce = []
  noSignaling : s.base.signaling = false
  noClient : s.client = none

/-- No connection is created and nothing is sent. -/
def QtAction.Harmless : QtAction → Prop
  | .created _ | .sentIceCandidate _ | .done (.sendAnswer _) => False
  | _ => True

/-- A posted offer or candidate is one of the latest signaling client. -/
def FromLatest (past : List QtAction) : QtAction → Prop
  | .handled client => ∀ other, .connectCalled other ∈ past → other ≤ client
  | _ => True

/-- After `disconnect` and before the next `connectToSignaling` there is no
connection, no waiting candidate and no harm; what an earlier client posted is
not handled after a later one was created. -/
structure DisconnectFinal (s : Session) (log : List QtAction) : Prop where
  final : ∀ before after, log = before ++ .disconnected :: after → (∀ client, .connectCalled client ∉ after) →
    s.base.peerConnection = none ∧ s.base.pendingRemoteIce = [] ∧ ∀ a ∈ after, a.Harmless
  latest : Machine.Throughout FromLatest [] log

/-- A posted offer or candidate runs while its signaling client is still the current one. -/
def StillCurrent (s : Session) : QtEvent → Prop
  | .runNext _ => match s.queue with
    | .offer client _ _ :: _ | .ice client _ :: _ => s.client = some client
    | _ => True
  | _ => True

instance (s : Session) : DecidablePred (StillCurrent s)
  | .runNext _ =>
    match atQueue : s.queue with
    | .offer client _ _ :: _ => decidable_of_iff (s.client = some client) (by simp only [StillCurrent, atQueue])
    | .ice client _ :: _ => decidable_of_iff (s.client = some client) (by simp only [StillCurrent, atQueue])
    | .sendIceCandidate _ :: _ | .createAnswer :: _ | .signalingError _ :: _ | [] =>
      isTrue (by simp only [StillCurrent, atQueue])
  | .connectToSignaling _ | .disconnect | .readerOffer _ _ | .readerIce _ | .onIceCandidate _
  | .setRemoteDescriptionComplete _ _ | .createAnswerComplete _ _ | .setLocalDescriptionComplete _ _ => isTrue trivial

/-- The part of the client that `disconnect` clears. -/
structure Cleared (s : State) : Prop where
  noConnection : s.peerConnection = none
  noCandidate : s.pendingRemoteIce = []
  noSignaling : s.signaling = false

theorem Cleared.disconnect (s : State) : Cleared (disconnect s).1 := ⟨rfl, rfl, rfl⟩

/-- Events of the client other than those by which a new session begins. -/
def Event.Leftover : Event → Prop
  | .connectToSignaling _ | .handleOffer _ _ _ | .handleRemoteIceCandidate _ => False
  | _ => True

/-- Late completions find nothing to act on. -/
theorem Cleared.step {s t : State} {e : Event} {out : List Action} (cleared : Cleared s) (leftover : e.Leftover)
    (run : step s e = some (t, out)) : Cleared t ∧ ∀ answer, .sendAnswer answer ∉ out := by
  obtain ⟨noConnection, noCandidate, noSignaling⟩ := cleared
  have spec := step_spec run
  cases e with
  | connectToSignaling | handleOffer | handleRemoteIceCandidate => exact leftover.elim
  | signalingError message =>
    cases spec
    exact ⟨⟨noConnection, noCandidate, noSignaling⟩, by simp⟩
  | disconnect =>
    cases spec
    exact ⟨Cleared.disconnect s, by simp⟩
  | setRemoteDescriptionComplete conn error =>
    obtain ⟨_, result⟩ := spec
    cases error with
    | some message =>
      cases result
      exact ⟨⟨noConnection, rfl, noSignaling⟩, by simp⟩
    | none =>
      simp only [setRemoteDescriptionComplete, flushPendingRemoteIceCandidates, noCandidate, List.map_nil,
        Prod.mk.injEq] at result
      obtain ⟨rfl, rfl⟩ := result
      exact ⟨⟨noConnection, rfl, noSignaling⟩, by simp⟩
  | doCreateAnswerAfterSetRemote =>
    obtain ⟨conn, rest, _, result⟩ := spec
    simp only [doCreateAnswerAfterSetRemote, noConnection, Prod.mk.injEq] at result
    obtain ⟨rfl, rfl⟩ := result
    exact ⟨⟨rfl, noCandidate, noSignaling⟩, by simp⟩
  | createAnswerComplete conn result =>
    obtain ⟨_, handled⟩ := spec
    cases result with
    | failure message =>
      cases handled
      exact ⟨⟨noConnection, noCandidate, noSignaling⟩, by simp⟩
    | noDescription =>
      cases handled
      exact ⟨⟨noConnection, noCandidate, noSignaling⟩, by simp⟩
    | notPrintable =>
      cases handled
      exact ⟨⟨noConnection, noCandidate, noSignaling⟩, by simp⟩
    | success sdp =>
      simp only [createAnswerComplete, noConnection] at handled
      split at handled
      · cases handled
        exact ⟨⟨rfl, noCandidate, noSignaling⟩, by simp⟩
      · cases handled
        exact ⟨⟨rfl, noCandidate, noSignaling⟩, by simp⟩
  | setLocalDescriptionComplete answer error =>
    obtain ⟨_, result⟩ := spec
    simp only [setLocalDescriptionComplete, noSignaling, Prod.mk.injEq] at result
    obtain ⟨rfl, rfl⟩ := result
    refine ⟨⟨noConnection, noCandidate, rfl⟩, fun other => ?_⟩
    split <;> simp

theorem harmless_done {out : List Action} (quiet : ∀ answer, .sendAnswer answer ∉ out) :
    ∀ a ∈ out.map QtAction.done, a.Harmless := by
  intro a inside
  obtain ⟨action, member, rfl⟩ := List.mem_map.mp inside
  cases action with
  | sendAnswer answer => exact absurd member (quiet answer)
  | _ => trivial

/-- A leftover event handled in a session that is disconnected. -/
theorem Disconnected.apply {s : Session} {e : Event} {base : State} {made : List Action} (disconnected : Disconnected s)
    (leftover : e.Leftover) (stepped : step s.base e = some (base, made)) (queue : List Posted) :
    Disconnected { s with base := base, queue := queue } ∧ ∀ a ∈ made.map QtAction.done, a.Harmless := by
  obtain ⟨noConnection, noCandidate, noSignaling, noClient⟩ := disconnected
  obtain ⟨cleared, quiet⟩ := Cleared.step ⟨noConnection, noCandidate, noSignaling⟩ leftover stepped
  exact ⟨⟨cleared.noConnection, cleared.noCandidate, cleared.noSignaling, noClient⟩, harmless_done quiet⟩

theorem Disconnected.step {s t : Session} {e : QtEvent} {out : List QtAction} (disconnected : Disconnected s)
    (current : StillCurrent s e) (run : qtStep s e = some (t, out))
    (noConnect : ∀ a ∈ out, ¬∃ client, a = .connectCalled client) : Disconnected t ∧ ∀ a ∈ out, a.Harmless := by
  have ⟨noConnection, noCandidate, noSignaling, noClient⟩ := disconnected
  cases qtMove_of_step run with
  | connects => exact absurd ⟨_, rfl⟩ (noConnect _ List.mem_cons_self)
  | disconnects stepped =>
    obtain ⟨cleared, quiet⟩ := Cleared.step ⟨noConnection, noCandidate, noSignaling⟩ (by trivial) stepped
    exact ⟨⟨cleared.noConnection, cleared.noCandidate, cleared.noSignaling, rfl⟩,
      List.forall_mem_append.mpr ⟨harmless_done quiet, by simp [QtAction.Harmless]⟩⟩
  | receivesOffer _ _ atClient | receivesIce _ atClient =>
    rw [noClient] at atClient
    cases atClient
  | findsIce ice => exact ⟨⟨noConnection, noCandidate, noSignaling, noClient⟩, by simp⟩
  | remoteSet _ _ stepped => exact disconnected.apply (by trivial) stepped _
  | answerCreated _ _ stepped => exact disconnected.apply (by trivial) stepped _
  | localSet _ _ stepped => exact disconnected.apply (by trivial) stepped _
  | handlesOffer _ atQueue | handlesIce _ atQueue =>
    -- the client that received the call is gone
    simp only [StillCurrent, atQueue, noClient] at current
    cases current
  | sendsIce =>
    simp only [noSignaling, Bool.false_eq_true, if_false]
    exact ⟨⟨noConnection, noCandidate, noSignaling, noClient⟩, by simp⟩
  | createsAnswer _ _ stepped => exact disconnected.apply (by trivial) stepped _
  | reportsError _ _ stepped => exact disconnected.apply (by trivial) stepped _

/-- Entries that neither begin a session nor handle a posted call. -/
def QtAction.Plain : QtAction → Prop
  | .connectCalled _ | .handled _ => False
  | _ => True

theorem plain_done (out : List Action) : ∀ a ∈ out.map QtAction.done, a.Plain := by
  intro a inside
  obtain ⟨action, _, rfl⟩ := List.mem_map.mp inside
  trivial

/-- What a step does to the signaling client and writes about it. -/
inductive ClientMove (s t : Session) (out : List QtAction) : Prop
  | connects {rest} (entries : out = .connectCalled s.clients :: rest) (others : ∀ a ∈ rest, a.Plain)
    (count : t.clients = s.clients + 1) (client : t.client = some s.clients ∨ t.client = none)
  | handles {client rest} (latest : s.client = some client) (entries : out = .handled client :: rest)
    (others : ∀ a ∈ rest, a.Plain) (count : t.clients = s.clients) (same : t.client = s.client)
  | plain (others : ∀ a ∈ out, a.Plain) (count : t.clients = s.clients)
    (client : t.client = s.client ∨ t.client = none)

theorem clientMove_of_step {s t : Session} {e : QtEvent} {out : List QtAction} (current : StillCurrent s e)
    (run : qtStep s e = some (t, out)) : ClientMove s t out := by
  cases qtMove_of_step run with
  | @connects failure base made =>
    refine .connects rfl (plain_done made) rfl ?_
    dsimp only
    split
    · exact Or.inl rfl
    · exact Or.inr rfl
  | @disconnects base made =>
    exact .plain (List.forall_mem_append.mpr ⟨plain_done made, by simp [QtAction.Plain]⟩) rfl (Or.inr rfl)
  | receivesOffer | receivesIce | findsIce => exact .plain (by simp) rfl (Or.inl rfl)
  | remoteSet | answerCreated | localSet | createsAnswer | reportsError =>
    exact .plain (plain_done _) rfl (Or.inl rfl)
  | @handlesOffer _ client type sdp rest base made atQueue =>
    simp only [StillCurrent, atQueue] at current
    refine .handles current rfl (List.forall_mem_append.mpr ⟨?_, plain_done made⟩) rfl rfl
    cases base.peerConnection <;> simp [QtAction.Plain]
  | @handlesIce _ client ice rest base made atQueue =>
    simp only [StillCurrent, atQueue] at current
    exact .handles current rfl (plain_done made) rfl rfl
  | sendsIce =>
    refine .plain ?_ rfl (Or.inl rfl)
    split <;> simp [QtAction.Plain]

/-- What is kept while posted calls run only for the current signaling client. -/
structure Sessions (s : Session) (log : List QtAction) : Prop where
  since : Machine.Since .disconnected (fun a => ∃ client, a = .connectCalled client) Disconnected
    QtAction.Harmless s log
  latest : Machine.Throughout FromLatest [] log
  numbered : ∀ client, .connectCalled client ∈ log → client < s.clients
  current : ∀ client, s.client = some client → client + 1 = s.clients

theorem fromLatest_of_plain {a : QtAction} (plain : a.Plain) (past : List QtAction) : FromLatest past a := by
  cases a <;> trivial

theorem connectCalled_of_plain {out : List QtAction} (plain : ∀ a ∈ out, a.Plain) (client : Nat) :
    .connectCalled client ∉ out := fun inside => plain _ inside

/-- The numbers of the signaling clients. -/
theorem Sessions.clientMove {s t : Session} {log out : List QtAction} (sessions : Sessions s log)
    (move : ClientMove s t out) :
    Machine.Throughout FromLatest [] (log ++ out) ∧ (∀ client, .connectCalled client ∈ log ++ out → client < t.clients) ∧
      ∀ client, t.client = some client → client + 1 = t.clients := by
  obtain ⟨_, latest, numbered, current⟩ := sessions
  rw [Machine.throughout_append, List.nil_append]
  cases move with
  | connects entries others count client =>
    subst entries
    refine ⟨⟨latest, trivial, Machine.throughout_of_forall fun a inside => fromLatest_of_plain (others a inside)⟩, ?_, ?_⟩
    · intro other inside
      rw [count]
      rcases List.mem_append.mp inside with old | new
      · exact Nat.lt_succ_of_lt (numbered other old)
      · rcases List.mem_cons.mp new with same | late
        · cases same
          exact Nat.lt_succ_self _
        · exact absurd late (connectCalled_of_plain others other)
    · intro other atClient
      rcases client with same | none
      · rw [same, Option.some.injEq] at atClient
        rw [count, atClient]
      · rw [none] at atClient
        cases atClient
  | @handles client rest atClient entries others count same =>
    subst entries
    refine ⟨⟨latest, ?_, Machine.throughout_of_forall fun a inside => fromLatest_of_plain (others a inside)⟩, ?_, ?_⟩
    · intro other inside
      have below := numbered other inside
      have last := current client atClient
      omega
    · intro other inside
      rw [count]
      rcases List.mem_append.mp inside with old | new
      · exact numbered other old
      · rcases List.mem_cons.mp new with different | late
        · cases different
        · exact absurd late (connectCalled_of_plain others other)
    · rw [same, count]
      exact current
  | plain others count client =>
    refine ⟨⟨latest, Machine.throughout_of_forall fun a inside => fromLatest_of_plain (others a inside)⟩, ?_, ?_⟩
    · intro other inside
      rw [count]
      rcases List.mem_append.mp inside with old | new
      · exact numbered other old
      · exact absurd new (connectCalled_of_plain others other)
    · intro other atClient
      rw [count]
      rcases client with same | none
      · exact current other (same ▸ atClient)
      · rw [none] at atClient
        cases atClient

theorem disconnected_not_mem_done (out : List Action) : .disconnected ∉ out.map QtAction.done := by
  intro inside
  obtain ⟨_, _, same⟩ := List.mem_map.mp inside
  cases same

/-- Only `disconnect` itself writes its mark, and it leaves nothing behind. -/
theorem disconnected_of_step {s t : Session} {e : QtEvent} {out : List QtAction} (run : qtStep s e = some (t, out)) :
    Machine.Since .disconnected (fun a => ∃ client, a = .connectCalled client) Disconnected QtAction.Harmless t out := by
  cases qtMove_of_step run with
  | @disconnects base made stepped =>
    have result : disconnect s.base = (base, made) := step_spec stepped
    have cleared := Cleared.disconnect s.base
    rw [result] at cleared
    have empty : Disconnected { s with base := base, client := none } :=
      ⟨cleared.noConnection, cleared.noCandidate, cleared.noSignaling, rfl⟩
    exact .append (.of_not_mem (disconnected_not_mem_done made)) (.of_mark empty)
      fun held _ => ⟨held, by simp [QtAction.Harmless]⟩
  | receivesOffer | receivesIce | findsIce => exact .of_not_mem (by simp)
  | connects | handlesIce => exact .of_not_mem (by simp)
  | remoteSet | answerCreated | localSet | createsAnswer | reportsError =>
    exact .of_not_mem (disconnected_not_mem_done _)
  | @handlesOffer _ client type sdp rest base made =>
    refine .of_not_mem (List.not_mem_append ?_ (disconnected_not_mem_done made))
    cases base.peerConnection <;> simp
  | sendsIce =>
    refine .of_not_mem ?_
    split <;> simp

/-- While every posted offer or candidate runs before its signaling client is
replaced or dropped, `disconnect` is final. -/
theorem queuedClient_disconnect_final {s : Session} {log : List QtAction}
    (reach : queuedClient.Reach StillCurrent s log) : DisconnectFinal s log := by
  have sessions : Sessions s log := by
    refine reach.invariant ⟨.start _, trivial, by simp, by simp [queuedClient]⟩ ?_
    intro s log e t out held current run
    obtain ⟨latest, numbered, last⟩ := held.clientMove (clientMove_of_step current run)
    exact ⟨held.since.append (disconnected_of_step run) fun disconnected => disconnected.step current run,
      latest, numbered, last⟩
  refine ⟨fun before after split noConnect => ?_, sessions.latest⟩
  obtain ⟨empty, harmless⟩ := sessions.since before after split (by
    rintro a inside ⟨client, rfl⟩
    exact noConnect client inside)
  exact ⟨empty.noConnection, empty.noCandidate, harmless⟩

/-- A connection whose completion comes after `disconnect`, with nothing left in the queue. -/
theorem queuedClient_disconnect_final_late_completion :
    ∃ s log, DisconnectFinal s log ∧ log.getLast? = some (.done (.remoteDescriptionSet 1)) ∧ s.base.peerConnection = none :=
  ⟨_, _, queuedClient_disconnect_final (.ofExec _
    [.connectToSignaling none, .readerOffer "offer" "v=0", .runNext ⟨true, none, none⟩, .disconnect,
      .setRemoteDescriptionComplete 1 none] rfl (by decide)), by decide, rfl⟩

/-- An offer posted before `disconnect` creates a connection after it. -/
theorem not_queuedClient_disconnect_final :
    ¬∀ (s : Session) (log : List QtAction), queuedClient.Reach Machine.Always s log → DisconnectFinal s log := by
  intro final
  have reached := final _ _ (.ofExec (M := queuedClient) _
    [.connectToSignaling none, .readerOffer "offer" "v=0", .disconnect, .runNext ⟨true, none, none⟩] rfl
    (Machine.meets_always _ _))
  have claim := reached.final
    [.connectCalled 0, .done (.statusChanged "正在连接信令服务器..."),
      .done (.statusChanged "已连接信令服务器 (role=receiver)，等待 Offer...")]
    [.handled 0, .created 1, .done .offered, .done (.statusChanged "收到 Offer，正在创建 Answer..."),
      .done (.setRemoteDescription 1 .offer "v=0")] rfl (by simp)
  exact absurd claim.1 (by decide)

end WebRtcDemo.Native
