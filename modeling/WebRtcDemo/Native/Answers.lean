import WebRtcDemo.Native.Client

namespace WebRtcDemo.Native

/-- How often an answer made by connection `c` was sent. -/
def sentFor (c : Nat) (log : List Action) : Nat :=
  log.countP fun a => match a with
    | .sendAnswer answer => answer.conn == c
    | _ => false

/-- What the client may do after `past`: set a local description on the
connection that made it, ask for an answer once, after the remote description
of that very connection was set, and send the answer to the latest offer once.
Offers and their connections have the same numbers. -/
def Own (past : List Action) : Action → Prop
  | .createAnswer c => .remoteDescriptionSet c ∈ past ∧ .createAnswer c ∉ past
  | .setLocalDescription conn answer => conn = some answer.conn
  | .sendAnswer answer => answer.conn = past.count .offered ∧ sentFor answer.conn past = 0
  | _ => True

instance (past : List Action) : ∀ a, Decidable (Own past a)
  | .createAnswer c => inferInstanceAs (Decidable (.remoteDescriptionSet c ∈ past ∧ .createAnswer c ∉ past))
  | .setLocalDescription conn answer => inferInstanceAs (Decidable (conn = some answer.conn))
  | .sendAnswer answer =>
    inferInstanceAs (Decidable (answer.conn = past.count .offered ∧ sentFor answer.conn past = 0))
  | .offered | .arrived _ | .remoteDescriptionSet _ | .statusChanged _ | .close _ | .setRemoteDescription _ _ _
  | .addRemoteIceCandidateNow _ _ => isTrue trivial

/-- What arrives late still finds its own connection: a posted call runs while
the connection that posted it, or none, is the current one; an answer comes
while its connection is the current one; and it is sent before the next offer. -/
def Timely (s : State) : Event → Prop
  | .doCreateAnswerAfterSetRemote =>
    ∀ c ∈ s.posted.head?, s.peerConnection = none ∨ s.peerConnection = some c
  | .createAnswerComplete conn (.success sdp) => sdp ≠ "" → s.peerConnection = some conn
  | .setLocalDescriptionComplete answer none => s.signaling = true → answer.conn = s.offers
  | _ => True

instance (s : State) : ∀ e, Decidable (Timely s e)
  | .doCreateAnswerAfterSetRemote =>
    inferInstanceAs (Decidable (∀ c ∈ s.posted.head?, s.peerConnection = none ∨ s.peerConnection = some c))
  | .createAnswerComplete conn (.success sdp) =>
    inferInstanceAs (Decidable (sdp ≠ "" → s.peerConnection = some conn))
  | .setLocalDescriptionComplete answer none =>
    inferInstanceAs (Decidable (s.signaling = true → answer.conn = s.offers))
  | .createAnswerComplete _ (.failure _) | .createAnswerComplete _ .noDescription
  | .createAnswerComplete _ .notPrintable | .setLocalDescriptionComplete _ (some _) => isTrue trivial
  | .connectToSignaling _ | .signalingError _ | .disconnect | .handleOffer _ _ _ | .handleRemoteIceCandidate _
  | .setRemoteDescriptionComplete _ _ => isTrue trivial

/-- Nothing to do with answers. -/
def Action.quiet : Action → Bool
  | .offered | .createAnswer _ | .setLocalDescription _ _ | .sendAnswer _ => false
  | _ => true

/-- All that such a list of actions leaves unchanged. -/
structure Quiet (out : List Action) : Prop where
  offered : out.count .offered = 0
  created : ∀ c, out.count (.createAnswer c) = 0
  sent : ∀ c, sentFor c out = 0
  own : ∀ past, Machine.Throughout Own past out

theorem Quiet.of_forall {out : List Action} (quiet : ∀ a ∈ out, a.quiet = true) : Quiet out := by
  refine ⟨?_, ?_, ?_, ?_⟩
  · refine List.count_eq_zero.mpr fun member => ?_
    cases quiet _ member
  · intro c
    refine List.count_eq_zero.mpr fun member => ?_
    cases quiet _ member
  · intro c
    refine List.countP_eq_zero.mpr fun a member => ?_
    have here := quiet a member
    cases a <;> simp_all [Action.quiet]
  · intro past
    refine Machine.throughout_of_forall fun a member before => ?_
    have here := quiet a member
    cases a <;> simp_all [Action.quiet, Own]

/-- Actions that no property of the client speaks about. -/
def Action.inert : Action → Bool
  | .statusChanged _ | .close _ | .setRemoteDescription _ _ _ => true
  | _ => false

theorem Action.quiet_of_inert {a : Action} (inert : a.inert = true) : a.quiet = true := by
  cases a <;> simp_all [Action.inert, Action.quiet]

theorem initWebRTC_spec (s : State) (factoryCreated : Bool) :
    ∃ factory out, initWebRTC s factoryCreated = ({ s with factory := factory }, out) ∧
      (s.factory = true → factory = true) ∧ ∀ a ∈ out, a.inert = true := by
  unfold initWebRTC
  split
  · exact ⟨s.factory, [], rfl, id, by simp⟩
  split
  · exact ⟨true, [], rfl, fun _ => rfl, by simp⟩
  · exact ⟨s.factory, _, rfl, id, by simp [Action.inert]⟩

theorem createPeerConnection_spec {s : State} (noFactory : s.factory = false → s.peerConnection = none)
    (outcome : OfferOutcome) :
    ∃ factory conn out, createPeerConnection s outcome = ({ s with factory := factory, peerConnection := conn }, out) ∧
      (factory = false → conn = none) ∧ (conn = none ∨ conn = some s.offers) ∧ ∀ a ∈ out, a.inert = true := by
  obtain ⟨factory, started, run, kept, inert⟩ := initWebRTC_spec s outcome.factoryCreated
  have closing : ∀ a ∈ started ++ (s.peerConnection.map Action.close).toList, a.inert = true := by
    intro a member
    rcases List.mem_append.mp member with old | new
    · exact inert a old
    · obtain ⟨c, _, rfl⟩ := Option.map_eq_some_iff.mp (Option.mem_toList.mp new)
      rfl
  simp only [createPeerConnection, run]
  cases factory with
  | false =>
    have absent : s.peerConnection = none := by
      refine noFactory ?_
      cases atFactory : s.factory with
      | false => rfl
      | true => cases kept atFactory
    refine ⟨false, none, started, ?_, fun _ => rfl, .inl rfl, inert⟩
    simp [absent]
  | true =>
    cases outcome.connectionError with
    | none => exact ⟨true, some s.offers, _, rfl, by simp, .inr rfl, closing⟩
    | some message =>
      refine ⟨true, none, _, rfl, by simp, .inl rfl, ?_⟩
      intro a member
      rcases List.mem_append.mp member with old | new
      · exact closing a old
      · cases List.mem_singleton.mp new
        rfl

/-- What `handleOffer` does. Only an offer can make a connection, and it makes
the connection of its own number. -/
structure OfferHandled (s t : State) (out : List Action) : Prop where
  offers : t.offers = s.offers + 1
  noFactory : t.factory = false → t.peerConnection = none
  peerConnection : t.peerConnection = none ∨ t.peerConnection = some (s.offers + 1)
  pending : t.pendingRemoteIce = []
  notApplied : t.remoteDescriptionApplied = false
  settingRemote : t.settingRemote = s.settingRemote ∨
    t.peerConnection = some (s.offers + 1) ∧ t.settingRemote = s.settingRemote ++ [s.offers + 1]
  frame : t.arrivals = s.arrivals ∧ t.posted = s.posted ∧ t.creating = s.creating ∧
    t.settingLocal = s.settingLocal
  out : ∃ rest, out = .offered :: rest ∧ ∀ a ∈ rest, a.inert = true

theorem handleOffer_spec {s : State} (noFactory : s.factory = false → s.peerConnection = none)
    (type sdp : String) (outcome : OfferOutcome) :
    OfferHandled s (handleOffer s type sdp outcome).1 (handleOffer s type sdp outcome).2 := by
  obtain ⟨factory, conn, created, run, stillNone, numbered, inert⟩ := createPeerConnection_spec
    (s := { s with offers := s.offers + 1, pendingRemoteIce := [], remoteDescriptionApplied := false })
    noFactory outcome
  have started : ∀ a ∈ Action.statusChanged "收到 Offer，正在创建 Answer..." :: created, a.inert = true := by
    intro a member
    rcases List.mem_cons.mp member with rfl | old
    · rfl
    · exact inert a old
  simp only [handleOffer, run]
  rcases numbered with rfl | rfl
  · exact ⟨rfl, fun _ => rfl, .inl rfl, rfl, rfl, .inl rfl, ⟨rfl, rfl, rfl, rfl⟩, _, rfl, started⟩
  cases outcome.parseError with
  | some description =>
    refine ⟨rfl, stillNone, .inr rfl, rfl, rfl, .inl rfl, ⟨rfl, rfl, rfl, rfl⟩, _, rfl, ?_⟩
    intro a member
    rcases List.mem_append.mp member with old | new
    · exact started a old
    · cases List.mem_singleton.mp new
      rfl
  | none =>
    refine ⟨rfl, stillNone, .inr rfl, rfl, rfl, .inr ⟨rfl, rfl⟩, ⟨rfl, rfl, rfl, rfl⟩, _, rfl, ?_⟩
    intro a member
    rcases List.mem_append.mp member with old | new
    · exact started a old
    · cases List.mem_singleton.mp new
      rfl

/-- Each connection has at most one remote description on its way, be it
with WebRTC, in the event queue or already turned into a `CreateAnswer`; and
at most one answer for each of those. -/
structure Answering (s : State) (log : List Action) : Prop where
  offers : s.offers = log.count .offered
  noFactory : s.factory = false → s.peerConnection = none
  own : Machine.Throughout Own [] log
  postedSet : ∀ c ∈ s.posted, .remoteDescriptionSet c ∈ log
  descriptions : ∀ c, s.settingRemote.count c + s.posted.count c + log.count (.createAnswer c) ≤
    if c ≤ s.offers then 1 else 0
  answers : ∀ c, s.creating.count c + s.settingLocal.countP (·.conn == c) + sentFor c log ≤
    log.count (.createAnswer c)

theorem sentFor_append (c : Nat) (log out : List Action) :
    sentFor c (log ++ out) = sentFor c log + sentFor c out :=
  List.countP_append

theorem count_erase_add {l : List Nat} {a : Nat} (member : a ∈ l) (c : Nat) :
    (l.erase a).count c + [a].count c = l.count c := by
  have one : 1 ≤ l.count a := List.count_pos_iff.mpr member
  by_cases here : c = a
  · subst c
    rw [List.count_erase_self, List.count_singleton_self]
    omega
  · rw [List.count_erase_of_ne here, List.count_singleton, if_neg (by simpa using Ne.symm here)]
    rfl

/-- A step keeps the invariant when it makes no description except that of a
new offer, and no answer except by `CreateAnswer`. -/
theorem Answering.advance {s t : State} {log out : List Action} (inv : Answering s log)
    (offers : t.offers = s.offers + out.count .offered)
    (noFactory : t.factory = false → t.peerConnection = none)
    (own : Machine.Throughout Own log out)
    (postedSet : ∀ c ∈ t.posted, c ∈ s.posted ∨ .remoteDescriptionSet c ∈ out)
    (descriptions : ∀ c, t.settingRemote.count c + t.posted.count c + out.count (.createAnswer c) ≤
      s.settingRemote.count c + s.posted.count c + if c = t.offers ∧ s.offers < c then 1 else 0)
    (answers : ∀ c, t.creating.count c + t.settingLocal.countP (·.conn == c) + sentFor c out ≤
      s.creating.count c + s.settingLocal.countP (·.conn == c) + out.count (.createAnswer c)) :
    Answering t (log ++ out) where
  offers := by rw [List.count_append, ← inv.offers, offers]
  noFactory := noFactory
  own := Machine.throughout_append.mpr ⟨inv.own, own⟩
  postedSet := by
    intro c member
    rcases postedSet c member with old | new
    · exact List.mem_append_left _ (inv.postedSet c old)
    · exact List.mem_append_right _ new
  descriptions := by
    intro c
    have before := inv.descriptions c
    have here := descriptions c
    rw [List.count_append]
    by_cases past : c ≤ s.offers
    · rw [if_pos past] at before
      rw [if_neg (by omega)] at here
      rw [if_pos (by omega)]
      omega
    · rw [if_neg past] at before
      by_cases new : c = t.offers
      · rw [if_pos ⟨new, by omega⟩] at here
        rw [if_pos (by omega)]
        omega
      · rw [if_neg (by omega)] at here
        split <;> omega
  answers := by
    intro c
    have before := inv.answers c
    have here := answers c
    rw [List.count_append, sentFor_append]
    omega

/-- Steps that move nothing. -/
theorem Answering.aside {s t : State} {log out : List Action} (inv : Answering s log) (quiet : Quiet out)
    (offers : t.offers = s.offers) (noFactory : t.factory = false → t.peerConnection = none)
    (settingRemote : t.settingRemote = s.settingRemote) (posted : t.posted = s.posted)
    (creating : ∀ c, t.creating.count c ≤ s.creating.count c)
    (settingLocal : ∀ c, t.settingLocal.countP (·.conn == c) ≤ s.settingLocal.countP (·.conn == c)) :
    Answering t (log ++ out) := by
  refine inv.advance ?_ noFactory (quiet.own log) ?_ ?_ ?_
  · rw [quiet.offered, offers]
    rfl
  · intro c member
    rw [posted] at member
    exact .inl member
  · intro c
    rw [settingRemote, posted, quiet.created]
    omega
  · intro c
    have fewer := creating c
    have fewerLocal := settingLocal c
    rw [quiet.sent, quiet.created]
    omega

theorem Answering.still {s t : State} {log out : List Action} (inv : Answering s log)
    (quiet : ∀ a ∈ out, a.quiet = true) (offers : t.offers = s.offers)
    (noFactory : t.factory = false → t.peerConnection = none) (settingRemote : t.settingRemote = s.settingRemote)
    (posted : t.posted = s.posted) (creating : t.creating = s.creating) (settingLocal : t.settingLocal = s.settingLocal) :
    Answering t (log ++ out) := by
  refine inv.aside (.of_forall quiet) offers noFactory settingRemote posted (fun c => ?_) (fun c => ?_)
  · rw [creating]
  · rw [settingLocal]

theorem Answering.handleOffer {s : State} {log : List Action} (inv : Answering s log) (type sdp : String)
    (outcome : OfferOutcome) :
    Answering (handleOffer s type sdp outcome).1 (log ++ (handleOffer s type sdp outcome).2) := by
  obtain ⟨offers, noFactory, _, _, _, settingRemote, ⟨_, posted, creating, settingLocal⟩, rest, out, inert⟩ :=
    handleOffer_spec inv.noFactory type sdp outcome
  have quiet := Quiet.of_forall fun a member => Action.quiet_of_inert (inert a member)
  refine inv.advance ?_ noFactory ?_ ?_ ?_ ?_
  · rw [offers, out, List.count_cons, quiet.offered]
    rfl
  · rw [out]
    exact ⟨trivial, quiet.own _⟩
  · intro c member
    rw [posted] at member
    exact .inl member
  · intro c
    have none : (Action.offered :: rest).count (.createAnswer c) = 0 := by
      rw [List.count_cons, quiet.created]
      rfl
    rw [out, none, posted, offers]
    rcases settingRemote with same | ⟨_, new⟩
    · rw [same]
      omega
    · rw [new, List.count_append, List.count_singleton]
      by_cases here : c = s.offers + 1
      · subst c
        simp
        omega
      · have other : (s.offers + 1 == c) = false := by simpa using Ne.symm here
        simp only [other, Bool.false_eq_true, if_false]
        omega
  · intro c
    have none : sentFor c (.offered :: rest) = 0 := by
      have rest := quiet.sent c
      simpa [sentFor] using rest
    rw [out, none, creating, settingLocal]
    omega

/-- The description moves from WebRTC to the event queue. -/
theorem Answering.setRemoteDescriptionComplete {s : State} {log : List Action} (inv : Answering s log)
    {conn : Nat} (pending : conn ∈ s.settingRemote) (error : Option String) :
    Answering
      (setRemoteDescriptionComplete { s with settingRemote := s.settingRemote.erase conn } conn error).1
      (log ++ (setRemoteDescriptionComplete { s with settingRemote := s.settingRemote.erase conn } conn error).2) := by
  have moved := count_erase_add pending
  cases error with
  | some message =>
    have quiet : Quiet [.statusChanged ("SetRemoteDescription 失败: " ++ message)] :=
      .of_forall (by simp [Action.quiet])
    simp only [Native.setRemoteDescriptionComplete]
    refine inv.advance ?_ inv.noFactory (quiet.own log) (fun c member => .inl member) ?_ ?_
    · simp only [quiet.offered, Nat.add_zero]
    · intro c
      have fewer := moved c
      simp only [quiet.created]
      omega
    · intro c
      simp only [quiet.created, quiet.sent]
      omega
  | none =>
    have quiet (u : State) :
        Quiet (.remoteDescriptionSet conn :: s.pendingRemoteIce.map (addRemoteIceCandidateNow u)) := by
      refine .of_forall fun a member => ?_
      rcases List.mem_cons.mp member with rfl | flushed
      · rfl
      · obtain ⟨arrival, _, rfl⟩ := List.mem_map.mp flushed
        rfl
    simp only [Native.setRemoteDescriptionComplete, flushPendingRemoteIceCandidates]
    refine inv.advance ?_ inv.noFactory ((quiet _).own log) ?_ ?_ ?_
    · simp only [(quiet _).offered, Nat.add_zero]
    · intro c member
      rcases List.mem_append.mp member with old | new
      · exact .inl old
      · cases List.mem_singleton.mp new
        exact .inr List.mem_cons_self
    · intro c
      have fewer := moved c
      simp only [(quiet _).created, List.count_append]
      omega
    · intro c
      simp only [(quiet _).created, (quiet _).sent]
      omega

/-- The first posted call runs, on the connection that posted it. -/
theorem Answering.doCreateAnswerAfterSetRemote {s : State} {log : List Action} (inv : Answering s log)
    {conn : Nat} {rest : List Nat} (atPosted : s.posted = conn :: rest)
    (timely : s.peerConnection = none ∨ s.peerConnection = some conn) :
    Answering (doCreateAnswerAfterSetRemote { s with posted := rest }).1
      (log ++ (doCreateAnswerAfterSetRemote { s with posted := rest }).2) := by
  have was : conn ∈ s.posted := by simp [atPosted]
  have still : ∀ c ∈ rest, c ∈ s.posted ∨ .remoteDescriptionSet c ∈ ([] : List Action) := by
    intro c member
    exact .inl (by simp [atPosted, member])
  have count : ∀ c, s.posted.count c = rest.count c + [conn].count c := by
    intro c
    rw [atPosted, ← List.singleton_append, List.count_append]
    omega
  unfold Native.doCreateAnswerAfterSetRemote
  rcases timely with absent | current
  · simp only [absent]
    refine inv.advance rfl (fun _ => rfl) trivial still ?_ ?_
    · intro c
      have split := count c
      simp only [List.count_nil]
      omega
    · intro c
      exact Nat.le_refl _
  · simp only [current]
    have set := inv.postedSet conn was
    have fresh : .createAnswer conn ∉ log := by
      rw [← List.count_eq_zero]
      have one : 1 ≤ s.posted.count conn := List.count_pos_iff.mpr was
      have atMost := inv.descriptions conn
      split at atMost <;> omega
    refine inv.advance ?_ ?_ ⟨⟨set, fresh⟩, trivial⟩ ?_ ?_ ?_
    · simp
    · intro without
      have absent := inv.noFactory without
      rw [current] at absent
      cases absent
    · intro c member
      exact .inl (by simp [atPosted, member])
    · intro c
      have split := count c
      have same : [Action.createAnswer conn].count (.createAnswer c) = [conn].count c := by
        simp [List.count_singleton]
      simp only [same]
      omega
    · intro c
      have same : [Action.createAnswer conn].count (.createAnswer c) = [conn].count c := by
        simp [List.count_singleton]
      have none : sentFor c [.createAnswer conn] = 0 := rfl
      simp only [same, none, List.count_append]
      omega

theorem Answering.createAnswerComplete {s : State} {log : List Action} (inv : Answering s log) {conn : Nat}
    (pending : conn ∈ s.creating) {result : CreateAnswerResult}
    (timely : Timely s (.createAnswerComplete conn result)) :
    Answering (createAnswerComplete { s with creating := s.creating.erase conn } conn result).1
      (log ++ (createAnswerComplete { s with creating := s.creating.erase conn } conn result).2) := by
  have moved := count_erase_add pending
  -- every outcome but an answer ends here
  have ended (status : String) : Answering { s with creating := s.creating.erase conn }
      (log ++ [.statusChanged status]) := by
    refine inv.aside (.of_forall (by simp [Action.quiet])) rfl inv.noFactory rfl rfl ?_ (fun _ => Nat.le_refl _)
    intro c
    have fewer := moved c
    simp only
    omega
  cases result with
  | failure message => exact ended _
  | noDescription => exact ended _
  | notPrintable => exact ended _
  | success sdp =>
    unfold Native.createAnswerComplete
    by_cases empty : sdp = ""
    · simp only [empty, if_true]
      exact ended _
    · simp only [empty, if_false, timely empty]
      refine inv.advance ?_ ?_ ⟨rfl, trivial⟩ (fun c member => .inl member) ?_ ?_
      · simp
      · intro without
        have absent := inv.noFactory without
        rw [timely empty] at absent
        cases absent
      · intro c
        simp only [List.count_singleton]
        simp
      · intro c
        have fewer := moved c
        have none : sentFor c [.setLocalDescription (some conn) ⟨conn, sdp⟩] = 0 := rfl
        have other : [Action.setLocalDescription (some conn) ⟨conn, sdp⟩].count (.createAnswer c) = 0 := by
          simp
        rw [none, other, List.countP_append]
        simp only [List.countP_singleton, List.count_singleton] at fewer ⊢
        omega

/-- The answer leaves WebRTC and is sent, or dropped when nothing is connected. -/
theorem Answering.setLocalDescriptionComplete {s : State} {log : List Action} (inv : Answering s log)
    {answer : Answer} (pending : answer ∈ s.settingLocal) {error : Option String}
    (timely : Timely s (.setLocalDescriptionComplete answer error)) :
    Answering { s with settingLocal := s.settingLocal.erase answer }
      (log ++ setLocalDescriptionComplete s answer error) := by
  have split : ∀ c, s.settingLocal.countP (·.conn == c) =
      (s.settingLocal.erase answer).countP (·.conn == c) + if answer.conn == c then 1 else 0 := by
    intro c
    rw [(List.perm_cons_erase pending).countP_eq, List.countP_cons]
  have dropped (status : String) :
      Answering { s with settingLocal := s.settingLocal.erase answer } (log ++ [.statusChanged status]) := by
    refine inv.aside (.of_forall (by simp [Action.quiet])) rfl inv.noFactory rfl rfl (fun _ => Nat.le_refl _) ?_
    intro c
    have parts := split c
    simp only
    omega
  unfold Native.setLocalDescriptionComplete
  cases error with
  | some message => exact dropped _
  | none =>
    by_cases connected : s.signaling = true
    · simp only [if_pos connected]
      have latest := timely connected
      have notSent : sentFor answer.conn log = 0 := by
        have parts := split answer.conn
        have bound := inv.answers answer.conn
        have atMost := inv.descriptions answer.conn
        rw [if_pos (by simp)] at parts
        rw [if_pos (by omega)] at atMost
        omega
      refine inv.advance ?_ inv.noFactory ⟨⟨latest.trans inv.offers, notSent⟩, trivial, trivial⟩
        (fun c member => .inl member) ?_ ?_
      · simp
      · intro c
        simp
      · intro c
        have parts := split c
        have one : sentFor c [.sendAnswer answer, .statusChanged "Answer 已发送，ICE 候选交换中..."] =
            if answer.conn == c then 1 else 0 := by
          simp [sentFor, List.countP_cons]
        simp only [one, parts]
        omega
    · simp only [if_neg connected]
      exact dropped _

theorem Answering.step {s t : State} {log out : List Action} (inv : Answering s log) {e : Event}
    (timely : Timely s e) (run : step s e = some (t, out)) : Answering t (log ++ out) := by
  have spec := step_spec run
  cases e with
  | connectToSignaling started =>
    cases spec
    exact inv.still (by simp [Action.quiet]) rfl inv.noFactory rfl rfl rfl rfl
  | signalingError message =>
    cases spec
    exact inv.still (by simp [Action.quiet]) rfl inv.noFactory rfl rfl rfl rfl
  | disconnect =>
    cases spec
    refine inv.still ?_ rfl (fun _ => rfl) rfl rfl rfl rfl
    cases s.peerConnection <;> simp [Action.quiet]
  | handleOffer type sdp outcome =>
    have handled := inv.handleOffer type sdp outcome
    rwa [show Native.handleOffer s type sdp outcome = (t, out) from spec] at handled
  | handleRemoteIceCandidate ice =>
    rcases handleRemoteIceCandidate_cases s ice with ⟨_, run⟩ | ⟨_, _, run⟩
    · cases run.symm.trans spec
      exact inv.still (by simp [Action.quiet]) rfl inv.noFactory rfl rfl rfl rfl
    · cases run.symm.trans spec
      exact inv.still (by simp [Action.quiet]) rfl inv.noFactory rfl rfl rfl rfl
  | setRemoteDescriptionComplete conn error =>
    obtain ⟨pending, run⟩ := spec
    have handled := inv.setRemoteDescriptionComplete pending error
    rwa [run] at handled
  | doCreateAnswerAfterSetRemote =>
    obtain ⟨conn, rest, atPosted, run⟩ := spec
    have handled := inv.doCreateAnswerAfterSetRemote atPosted (timely conn (by simp [atPosted]))
    rwa [run] at handled
  | createAnswerComplete conn result =>
    obtain ⟨pending, run⟩ := spec
    have handled := inv.createAnswerComplete pending timely
    rwa [run] at handled
  | setLocalDescriptionComplete answer error =>
    obtain ⟨pending, run⟩ := spec
    cases run
    exact inv.setLocalDescriptionComplete pending timely

/-- In every run in which what arrives late still finds its own connection,
the client sets local descriptions only on the connection that made them, asks
each connection for at most one answer, after its own remote description was
set, and sends at most one answer for each offer, while that is the latest. -/
theorem answers_own {s : State} {log : List Action} (reach : client.Reach Timely s log) :
    Machine.Throughout Own [] log := by
  have inv : Answering s log := by
    refine reach.invariant ?_ (fun _ _ _ _ _ held timely run => held.step timely run)
    refine ⟨rfl, fun _ => rfl, trivial, ?_, ?_, ?_⟩ <;> simp [client, initial, sentFor]
  exact inv.own

/-- An offer replaced by a second one; only the second is answered. -/
theorem answers_own_two_offers :
    ∃ s log, client.Reach Timely s log ∧ .sendAnswer ⟨2, "a2"⟩ ∈ log ∧ Machine.Throughout Own [] log := by
  have reach := Machine.Reach.ofExec (M := client) Timely
    [.connectToSignaling true, .handleOffer "offer" "o1" ⟨true, none, none⟩,
      .handleOffer "offer" "o2" ⟨true, none, none⟩, .setRemoteDescriptionComplete 1 (some "closed"),
      .setRemoteDescriptionComplete 2 none, .doCreateAnswerAfterSetRemote, .createAnswerComplete 2 (.success "a2"),
      .setLocalDescriptionComplete ⟨2, "a2"⟩ none]
    rfl (by decide)
  exact ⟨_, _, reach, by decide, answers_own reach⟩

/-- The disconnect falls between `CreateAnswer` and its completion, which then
calls `SetLocalDescription` through a null pointer. -/
theorem answers_not_own_after_disconnect :
    ¬ ∀ s log, client.Reach Machine.Always s log → Machine.Throughout Own [] log := by
  intro always
  have reach := Machine.Reach.ofExec (M := client) Machine.Always
    [.handleOffer "offer" "o1" ⟨true, none, none⟩, .setRemoteDescriptionComplete 1 none,
      .doCreateAnswerAfterSetRemote, .disconnect, .createAnswerComplete 1 (.success "a1")]
    rfl (Machine.meets_always _ _)
  exact absurd (always _ _ reach) (by decide)

end WebRtcDemo.Native
