import WebRtcDemo.Page.Model

namespace WebRtcDemo.Page

/-- The most recent offer, unless the signaling was closed after it. -/
def openOffer (log : List Action) : Option Nat :=
  log.foldl (fun latest a => match a with
    | .offered k => some k
    | .closed => none
    | _ => latest) none

/-- The offers for which `sendAnswer` was called, one entry for each call. -/
def answered (log : List Action) : List Nat :=
  log.filterMap fun a => match a with
    | .sendAnswer k _ => some k
    | _ => none

/-- Neither an offer nor a close. -/
def Action.quiet : Action → Bool
  | .offered _ => false
  | .closed => false
  | _ => true

theorem openOffer_append {log out : List Action} (quiet : ∀ a ∈ out, a.quiet = true) :
    openOffer (log ++ out) = openOffer log := by
  unfold openOffer
  rw [List.foldl_append]
  generalize log.foldl _ none = latest
  induction out generalizing latest with
  | nil => rfl
  | cons a out ih =>
    have here := quiet a (by simp)
    rw [List.foldl_cons]
    cases a with
    | offered => cases here
    | closed => cases here
    | received | addIceCandidate | sendAnswer | sendIceCandidate | notifyPeerState =>
      exact ih (fun b inside => quiet b (List.mem_cons_of_mem _ inside)) _

theorem answered_append (log out : List Action) : answered (log ++ out) = answered log ++ answered out :=
  List.filterMap_append

theorem answered_map_addIceCandidate (i : Nat) (inits : List IceInit) :
    answered (inits.map (.addIceCandidate i)) = [] := by
  simp [answered]

/-- The connections that are not closed are those in `pc`; a chain waits for
the connection of its own offer; an answered offer has no chain left. -/
structure Negotiating (s : State) (log : List Action) : Prop where
  current : ∀ i, s.pc = some i → i < s.created ∧ (s.conns i).isClosed = false ∧
    (s.conns i).offer = s.offers ∧ openOffer log = some s.offers
  openIsCurrent : ∀ i < s.created, (s.conns i).isClosed = false → s.pc = some i
  chainOwn : ∀ k c, s.chain k = some c → c.conn < s.created ∧ (s.conns c.conn).offer = k
  chainPast : ∀ k, s.offers < k → s.chain k = none
  answeredDone : ∀ k ∈ answered log, k ≤ s.offers ∧ s.chain k = none
  answeredOnce : (answered log).Nodup

/-- Steps that neither create nor close a connection. -/
structure SameConns (s t : State) : Prop where
  pc : t.pc = s.pc
  created : t.created = s.created
  offers : t.offers = s.offers
  isClosed : ∀ i, (t.conns i).isClosed = (s.conns i).isClosed
  offer : ∀ i, (t.conns i).offer = (s.conns i).offer

/-- Such a step keeps the invariant when chains stay with their connection
and an answer ends the chain that sends it. -/
theorem Negotiating.keep {s t : State} {log out : List Action} (inv : Negotiating s log)
    (same : SameConns s t) (quiet : ∀ a ∈ out, a.quiet = true)
    (stays : ∀ k c, t.chain k = some c → ∃ before, s.chain k = some before ∧ before.conn = c.conn)
    (ends : ∀ k ∈ answered out, s.chain k ≠ none ∧ t.chain k = none) (once : (answered out).Nodup) :
    Negotiating t (log ++ out) where
  current := by
    intro i atPc
    rw [same.pc] at atPc
    rw [same.created, same.isClosed, same.offer, same.offers, openOffer_append quiet]
    exact inv.current i atPc
  openIsCurrent := by
    intro i bound isOpen
    rw [same.created] at bound
    rw [same.isClosed] at isOpen
    rw [same.pc]
    exact inv.openIsCurrent i bound isOpen
  chainOwn := by
    intro k c atChain
    obtain ⟨before, atBefore, conn⟩ := stays k c atChain
    rw [same.created, same.offer, ← conn]
    exact inv.chainOwn k before atBefore
  chainPast := by
    intro k future
    rw [same.offers] at future
    cases atChain : t.chain k with
    | none => rfl
    | some c =>
      obtain ⟨before, atBefore, _⟩ := stays k c atChain
      rw [inv.chainPast k future] at atBefore
      cases atBefore
  answeredDone := by
    intro k member
    rw [answered_append, List.mem_append] at member
    rw [same.offers]
    rcases member with old | new
    · refine ⟨(inv.answeredDone k old).1, ?_⟩
      cases atChain : t.chain k with
      | none => rfl
      | some c =>
        obtain ⟨before, atBefore, _⟩ := stays k c atChain
        rw [(inv.answeredDone k old).2] at atBefore
        cases atBefore
    · refine ⟨?_, (ends k new).2⟩
      by_contra future
      exact (ends k new).1 (inv.chainPast k (by omega))
  answeredOnce := by
    rw [answered_append, List.nodup_append]
    refine ⟨inv.answeredOnce, once, ?_⟩
    intro k old l new equal
    subst l
    exact (ends k new).1 (inv.answeredDone k old).2

theorem closePc_pc (s : State) : (closePc s).pc = none := by
  unfold closePc
  split
  · assumption
  · rfl

theorem closePc_frame (s : State) :
    (closePc s).created = s.created ∧ (closePc s).offers = s.offers ∧ (closePc s).chain = s.chain ∧
      (closePc s).pending = s.pending := by
  unfold closePc
  split <;> exact ⟨rfl, rfl, rfl, rfl⟩

theorem closePc_conn (s : State) (i : Nat) :
    (closePc s).conns i = { s.conns i with isClosed := (s.conns i).isClosed || s.pc == some i } := by
  unfold closePc
  split
  · rename_i atPc
    simp [atPc]
  · rename_i j atPc
    by_cases same : i = j
    · subst i
      simp [atPc]
    · have other : (some j == some i) = false := by simpa using Ne.symm same
      simp [atPc, Function.update_of_ne same, other]

/-- After `closePc` every connection is closed. -/
theorem Negotiating.closePc_isClosed {s : State} {log : List Action} (inv : Negotiating s log) {i : Nat}
    (bound : i < s.created) : ((closePc s).conns i).isClosed = true := by
  rw [closePc_conn]
  cases isOpen : (s.conns i).isClosed with
  | true => rfl
  | false => simp [inv.openIsCurrent i bound isOpen]

/-- The script has let go of its connection: nothing is open, the chains are
as before. -/
theorem Negotiating.letGo {s t : State} {log out : List Action} (inv : Negotiating s log)
    (pc : t.pc = none) (created : t.created = s.created) (conns : t.conns = (closePc s).conns)
    (chain : t.chain = s.chain) (offers : s.offers ≤ t.offers) (silent : answered out = []) :
    Negotiating t (log ++ out) := by
  have sameAnswers : answered (log ++ out) = answered log := by
    rw [answered_append, silent, List.append_nil]
  refine ⟨?_, ?_, ?_, ?_, ?_, ?_⟩
  · intro i atPc
    rw [pc] at atPc
    cases atPc
  · intro i bound isOpen
    rw [conns, inv.closePc_isClosed (by omega)] at isOpen
    cases isOpen
  · intro k c atChain
    rw [chain] at atChain
    rw [created, conns, closePc_conn]
    exact inv.chainOwn k c atChain
  · intro k future
    rw [chain]
    exact inv.chainPast k (by omega)
  · intro k member
    rw [sameAnswers] at member
    obtain ⟨bound, done⟩ := inv.answeredDone k member
    rw [chain]
    exact ⟨by omega, done⟩
  · rw [sameAnswers]
    exact inv.answeredOnce

theorem Negotiating.signalingClosed {s : State} {log : List Action} (inv : Negotiating s log) :
    Negotiating (signalingClosed s) (log ++ [.closed]) := by
  obtain ⟨created, offers, chain, _⟩ := closePc_frame s
  exact inv.letGo (closePc_pc s) created rfl chain offers.ge rfl

/-- A new connection and a new chain enter a state in which all is closed. -/
theorem Negotiating.offerReceived {s : State} {log : List Action} (inv : Negotiating s log) (sdp : String)
    (constructed : Bool) :
    Negotiating (offerReceived s sdp constructed) (log ++ [.offered (s.offers + 1)]) := by
  obtain ⟨created, _, chain, _⟩ := closePc_frame s
  have letGo : Negotiating { closePc s with offers := s.offers + 1, pending := [] }
      (log ++ [.offered (s.offers + 1)]) :=
    inv.letGo (closePc_pc s) created rfl chain (Nat.le_succ _) rfl
  have latest : openOffer (log ++ [.offered (s.offers + 1)]) = some (s.offers + 1) := by
    simp [openOffer]
  have noChain : s.chain (s.offers + 1) = none := inv.chainPast _ (Nat.lt_succ_self _)
  unfold Page.offerReceived
  cases constructed with
  | false => exact letGo
  | true =>
    simp only [if_true]
    refine ⟨?_, ?_, ?_, ?_, ?_, letGo.answeredOnce⟩
    · intro i atPc
      cases Option.some.inj atPc
      simp [freshConnection, latest]
    · intro i bound isOpen
      by_cases new : i = (closePc s).created
      · simp [new]
      · simp only [setChain_created] at bound
        simp only [setChain_conns, setConn_conns, Function.update_of_ne new] at isOpen
        rw [inv.closePc_isClosed (by omega)] at isOpen
        cases isOpen
    · intro k c atChain
      simp only [setChain_chain, setConn_chain] at atChain
      simp only [setChain_created, setChain_conns, setConn_conns]
      by_cases new : k = s.offers + 1
      · subst k
        rw [Function.update_self] at atChain
        cases Option.some.inj atChain
        simp [freshConnection]
      · rw [Function.update_of_ne new] at atChain
        obtain ⟨bound, own⟩ := letGo.chainOwn k c atChain
        change c.conn < (closePc s).created at bound
        refine ⟨by omega, ?_⟩
        rw [Function.update_of_ne (by omega)]
        exact own
    · intro k future
      simp only [setChain_offers, setConn_offers] at future
      simp only [setChain_chain, setConn_chain]
      rw [Function.update_of_ne (by omega)]
      exact letGo.chainPast k future
    · intro k member
      obtain ⟨bound, done⟩ := letGo.answeredDone k member
      simp only [setChain_offers, setConn_offers, setChain_chain, setConn_chain]
      refine ⟨bound, ?_⟩
      by_cases new : k = s.offers + 1
      · -- the offer is new, so nothing was answered under its number
        subst k
        have old : s.offers + 1 ∈ answered log := by simpa [answered] using member
        exact absurd (inv.answeredDone _ old).1 (by omega)
      · rw [Function.update_of_ne new]
        exact done

/-- A promise can only fulfil on the connection in `pc`, for the most recent
offer, and then the callbacks act on that same connection. -/
theorem Negotiating.fulfil_cases {s t : State} {log out : List Action} (inv : Negotiating s log) {k : Nat}
    {value : String} (run : fulfil s k value = some (t, out)) :
    ∃ c, s.pc = some c ∧ (s.conns c).offer = k ∧ k = s.offers ∧
      ((∃ sdp, s.chain k = some ⟨c, .setRemoteDescription sdp⟩ ∧
          t = ({ s.setConn c { s.conns c with remoteDescription := some sdp } with pending := [] }).setChain k
            (some ⟨c, .createAnswer⟩) ∧
          out = s.pending.map (.addIceCandidate c)) ∨
        (s.chain k = some ⟨c, .createAnswer⟩ ∧ t = s.setChain k (some ⟨c, .setLocalDescription value⟩) ∧
          out = []) ∨
        ∃ answer, s.chain k = some ⟨c, .setLocalDescription answer⟩ ∧
          t = (s.setConn c { s.conns c with localDescription := some answer }).setChain k none ∧
          out = [.sendAnswer k answer]) := by
  unfold fulfil at run
  split at run
  · cases run
  · rename_i c waiting atChain
    split at run
    · cases run
    · rename_i isOpen
      obtain ⟨bound, own⟩ := inv.chainOwn k _ atChain
      have atPc := inv.openIsCurrent c bound (by simpa using isOpen)
      have latest := (inv.current c atPc).2.2.1
      refine ⟨c, atPc, own, own.symm.trans latest, ?_⟩
      cases waiting with
      | setRemoteDescription sdp =>
        refine Or.inl ⟨sdp, atChain, ?_⟩
        simp only [remoteDescriptionSet, flushPending, setConn_pc, atPc] at run
        cases run
        exact ⟨by simp [State.setChain, atPc], rfl⟩
      | createAnswer =>
        refine Or.inr (Or.inl ⟨atChain, ?_⟩)
        simp only [answerCreated, atPc] at run
        cases run
        exact ⟨rfl, rfl⟩
      | setLocalDescription answer =>
        refine Or.inr (Or.inr ⟨answer, atChain, ?_⟩)
        simp only [localDescriptionSet, setConn_pc, atPc, setConn_conns, Function.update_self] at run
        cases run
        exact ⟨rfl, rfl⟩

theorem SameConns.setConn {s : State} {i : Nat} {c : PeerConnection} (isClosed : c.isClosed = (s.conns i).isClosed)
    (offer : c.offer = (s.conns i).offer) : SameConns s (s.setConn i c) :=
  ⟨rfl, rfl, rfl, setConn_keeps PeerConnection.isClosed isClosed, setConn_keeps PeerConnection.offer offer⟩

theorem Negotiating.fulfil {s t : State} {log out : List Action} (inv : Negotiating s log) {k : Nat}
    {value : String} (run : fulfil s k value = some (t, out)) : Negotiating t (log ++ out) := by
  obtain ⟨c, _, _, _, ⟨sdp, atChain, rfl, rfl⟩ | ⟨atChain, rfl, rfl⟩ | ⟨answer, atChain, rfl, rfl⟩⟩ :=
    inv.fulfil_cases run
  · have same := SameConns.setConn (s := s) (i := c)
      (c := { s.conns c with remoteDescription := some sdp }) rfl rfl
    refine inv.keep ⟨same.pc, same.created, same.offers, same.isClosed, same.offer⟩ ?_ ?_ ?_ ?_
    · intro a member
      obtain ⟨_, _, rfl⟩ := List.mem_map.mp member
      rfl
    · intro l chain atL
      by_cases here : l = k
      · subst l
        simp only [setChain_chain, Function.update_self] at atL
        cases atL
        exact ⟨_, atChain, rfl⟩
      · simp only [setChain_chain, setConn_chain, Function.update_of_ne here] at atL
        exact ⟨chain, atL, rfl⟩
    · simp [answered_map_addIceCandidate]
    · simp [answered_map_addIceCandidate]
  · refine inv.keep ⟨rfl, rfl, rfl, fun _ => rfl, fun _ => rfl⟩ (by simp) ?_ (by simp [answered]) (by simp [answered])
    intro l chain atL
    by_cases here : l = k
    · subst l
      simp only [setChain_chain, Function.update_self] at atL
      cases atL
      exact ⟨_, atChain, rfl⟩
    · simp only [setChain_chain, Function.update_of_ne here] at atL
      exact ⟨chain, atL, rfl⟩
  · have same := SameConns.setConn (s := s) (i := c)
      (c := { s.conns c with localDescription := some answer }) rfl rfl
    refine inv.keep ⟨same.pc, same.created, same.offers, same.isClosed, same.offer⟩
      (by simp [Action.quiet]) ?_ ?_ (by simp [answered])
    · exact fun l chain atL => ⟨chain, chain_of_setChain_none atL, rfl⟩
    · intro l member
      have here : l = k := by simpa [answered] using member
      subst l
      simp [atChain]

theorem Negotiating.reject {s t : State} {log out : List Action} (inv : Negotiating s log) {k : Nat}
    (run : reject s k = some (t, out)) : Negotiating t (log ++ out) := by
  obtain ⟨rfl, rfl⟩ := reject_spec run
  refine inv.keep ⟨rfl, rfl, rfl, fun _ => rfl, fun _ => rfl⟩ (by simp) ?_ (by simp [answered]) (by simp [answered])
  exact fun l chain atL => ⟨chain, chain_of_setChain_none atL, rfl⟩

/-- The tasks that leave every chain alone and send no answer. -/
theorem Negotiating.aside {s t : State} {log out : List Action} (inv : Negotiating s log)
    (same : SameConns s t) (chain : t.chain = s.chain) (quiet : ∀ a ∈ out, a.quiet = true)
    (silent : answered out = []) : Negotiating t (log ++ out) :=
  inv.keep same quiet (fun k c atChain => ⟨c, chain ▸ atChain, rfl⟩) (by simp [silent]) (by simp [silent])

theorem Negotiating.iceCandidateReceived {s : State} {log : List Action} (inv : Negotiating s log)
    (init : IceInit) :
    Negotiating (iceCandidateReceived s init).1 (log ++ (iceCandidateReceived s init).2) := by
  unfold Page.iceCandidateReceived
  have same : SameConns s s := ⟨rfl, rfl, rfl, fun _ => rfl, fun _ => rfl⟩
  split
  · exact inv.aside same rfl (by simp) rfl
  split
  · exact inv.aside same rfl (by simp) rfl
  split
  · exact inv.aside ⟨rfl, rfl, rfl, fun _ => rfl, fun _ => rfl⟩ rfl (by simp [Action.quiet]) rfl
  · exact inv.aside same rfl (by simp [Action.quiet]) rfl

theorem Negotiating.localCandidate {s t : State} {log out : List Action} (inv : Negotiating s log) {i : Nat}
    {candidate : Option IceInit} (run : localCandidate s i candidate = some (t, out)) :
    Negotiating t (log ++ out) := by
  obtain ⟨_, rfl, rfl⟩ := localCandidate_spec run
  refine inv.aside ⟨rfl, rfl, rfl, fun _ => rfl, fun _ => rfl⟩ rfl ?_ ?_ <;> cases candidate <;>
    simp [Action.quiet, answered]

theorem Negotiating.connectionStateChange {s t : State} {log out : List Action} (inv : Negotiating s log)
    {i : Nat} {state : String} (run : connectionStateChange s i state = some (t, out)) :
    Negotiating t (log ++ out) := by
  obtain ⟨rfl, rfl⟩ := connectionStateChange_spec run
  refine inv.aside (.setConn rfl rfl) rfl ?_ ?_ <;> cases s.pc <;> simp [Action.quiet, answered]

theorem iceCandidateReceived_step {s t : State} {out : List Action} {mid : String} {idx : Int} {cand : String}
    (run : step s (.iceCandidateReceived mid idx cand) = some (t, out)) :
    t = (iceCandidateReceived s ⟨cand, mid, idx⟩).1 ∧ out = (iceCandidateReceived s ⟨cand, mid, idx⟩).2 := by
  have same : iceCandidateReceived s ⟨cand, mid, idx⟩ = (t, out) := Option.some.inj run
  rw [same]
  exact ⟨rfl, rfl⟩

theorem Negotiating.step {s t : State} {log out : List Action} (inv : Negotiating s log) {e : Event}
    (run : step s e = some (t, out)) : Negotiating t (log ++ out) := by
  cases e with
  | offerReceived sdp constructed =>
    cases run
    exact inv.offerReceived sdp constructed
  | iceCandidateReceived mid idx cand =>
    obtain ⟨rfl, rfl⟩ := iceCandidateReceived_step run
    exact inv.iceCandidateReceived _
  | signalingClosed =>
    cases run
    exact inv.signalingClosed
  | fulfil k value => exact inv.fulfil run
  | reject k => exact inv.reject run
  | localCandidate i candidate => exact inv.localCandidate run
  | connectionStateChange i state => exact inv.connectionStateChange run

theorem negotiating_initial : Negotiating initial [] := by
  refine ⟨?_, ?_, ?_, ?_, ?_, ?_⟩ <;> simp [initial, answered]

theorem reach_negotiating {s : State} {log : List Action} (reach : page.Reach Machine.Always s log) :
    Negotiating s log :=
  reach.invariant negotiating_initial fun _ _ _ _ _ inv _ run => inv.step run

/-- Only the last callback of a chain answers. -/
theorem Negotiating.sendAnswer_mem {s t : State} {log out : List Action} (inv : Negotiating s log) {e : Event}
    (run : Page.step s e = some (t, out)) {k : Nat} {sdp : String} (member : .sendAnswer k sdp ∈ out) :
    ∃ c, s.pc = some c ∧ (s.conns c).offer = k ∧ openOffer log = some k ∧
      (t.conns c).localDescription = some sdp := by
  cases e with
  | offerReceived => cases run; simp at member
  | iceCandidateReceived mid idx cand =>
    obtain ⟨rfl, rfl⟩ := iceCandidateReceived_step run
    unfold Page.iceCandidateReceived at member
    split at member
    · simp at member
    split at member
    · simp at member
    split at member <;> simp at member
  | signalingClosed => cases run; simp at member
  | reject k =>
    obtain ⟨_, rfl⟩ := reject_spec run
    simp at member
  | localCandidate i candidate =>
    obtain ⟨_, _, rfl⟩ := localCandidate_spec run
    cases candidate <;> simp at member
  | connectionStateChange i state =>
    obtain ⟨_, rfl⟩ := connectionStateChange_spec run
    cases atPc : s.pc <;> simp [atPc] at member
  | fulfil l value =>
    obtain ⟨c, atPc, own, latest, ⟨_, _, _, rfl⟩ | ⟨_, _, rfl⟩ | ⟨answer, _, rfl, rfl⟩⟩ := inv.fulfil_cases run
    · simp at member
    · simp at member
    · simp only [List.mem_singleton, Action.sendAnswer.injEq] at member
      obtain ⟨rfl, rfl⟩ := member
      refine ⟨c, atPc, own, ?_, by simp⟩
      rw [(inv.current c atPc).2.2.2, latest]

/-- In every interleaving of offers, closes and settlements: only the
connection in `pc` is ever open, no offer is answered twice, and an answer is
the local description of the connection created for the most recent offer,
with no close since that offer. -/
theorem negotiation_safe {s : State} {log : List Action} (reach : page.Reach Machine.Always s log) :
    (∀ i < s.created, (s.conns i).isClosed = false → s.pc = some i) ∧
      (answered log).Nodup ∧
      ∀ e t out, page.step s e = some (t, out) → ∀ k sdp, .sendAnswer k sdp ∈ out →
        openOffer log = some k ∧ ∃ c, s.pc = some c ∧ (s.conns c).offer = k ∧
          (t.conns c).localDescription = some sdp := by
  have inv := reach_negotiating reach
  refine ⟨inv.openIsCurrent, inv.answeredOnce, ?_⟩
  intro e t out run k sdp member
  obtain ⟨c, atPc, own, latest, description⟩ := inv.sendAnswer_mem run member
  exact ⟨latest, c, atPc, own, description⟩

/-- Two offers, the first replaced before its promises settle; the second is
answered. -/
theorem negotiation_safe_replaced_offer :
    ∃ s log, page.Reach Machine.Always s log ∧ answered log = [2] ∧ (answered log).Nodup := by
  have reach := Machine.Reach.ofExec (M := page) Machine.Always
    [.offerReceived "o1" true, .offerReceived "o2" true, .reject 1, .fulfil 2 "", .fulfil 2 "a2", .fulfil 2 ""]
    rfl (Machine.meets_always _ _)
  exact ⟨_, _, reach, rfl, (negotiation_safe reach).2.1⟩

end WebRtcDemo.Page
