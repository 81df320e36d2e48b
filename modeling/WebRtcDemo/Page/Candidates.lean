import WebRtcDemo.Page.Negotiation

namespace WebRtcDemo.Page

/-- The candidates that arrived while connection `i` was in `pc`. -/
def receivedFor (i : Nat) (log : List Action) : List IceInit :=
  log.filterMap fun a => match a with
    | .received j init => if j = i then some init else none
    | _ => none

/-- The candidates passed to `addIceCandidate` of connection `i`. -/
def addedTo (i : Nat) (log : List Action) : List IceInit :=
  log.filterMap fun a => match a with
    | .addIceCandidate j init => if j = i then some init else none
    | _ => none

theorem receivedFor_append (i : Nat) (log out : List Action) :
    receivedFor i (log ++ out) = receivedFor i log ++ receivedFor i out :=
  List.filterMap_append

theorem addedTo_append (i : Nat) (log out : List Action) :
    addedTo i (log ++ out) = addedTo i log ++ addedTo i out :=
  List.filterMap_append

theorem receivedFor_map_addIceCandidate (i j : Nat) (inits : List IceInit) :
    receivedFor i (inits.map (.addIceCandidate j)) = [] := by
  simp [receivedFor]

theorem addedTo_map_addIceCandidate (i j : Nat) (inits : List IceInit) :
    addedTo i (inits.map (.addIceCandidate j)) = if j = i then inits else [] := by
  by_cases same : j = i
  · simp [addedTo, same]
  · simp [addedTo, same]

/-- A connection has been given all its candidates once its remote description
is set and none before. Until then those of the connection in `pc` are in
`pending`. -/
structure Delivered (s : State) (log : List Action) : Prop where
  added : ∀ i, addedTo i log = if (s.conns i).remoteDescription.isSome then receivedFor i log else []
  waiting : ∀ i, s.pc = some i → (s.conns i).remoteDescription = none → s.pending = receivedFor i log
  notApplied : ∀ k c sdp, s.chain k = some ⟨c, .setRemoteDescription sdp⟩ →
    (s.conns c).remoteDescription = none
  unborn : ∀ i, s.created ≤ i → receivedFor i log = []
  offerPast : ∀ i < s.created, (s.conns i).offer ≤ s.offers
  ownOffer : ∀ i < s.created, ∀ j < s.created, (s.conns i).offer = (s.conns j).offer → i = j

/-- Tasks that receive and add nothing, and apply no description. -/
theorem Delivered.keep {s t : State} {log out : List Action} (inv : Delivered s log)
    (created : t.created = s.created) (offers : s.offers ≤ t.offers)
    (remote : ∀ i, (t.conns i).remoteDescription = (s.conns i).remoteDescription)
    (offer : ∀ i, (t.conns i).offer = (s.conns i).offer)
    (stays : ∀ k c sdp, t.chain k = some ⟨c, .setRemoteDescription sdp⟩ →
      s.chain k = some ⟨c, .setRemoteDescription sdp⟩)
    (queue : t.pc = none ∨ t.pc = s.pc ∧ t.pending = s.pending)
    (noneReceived : ∀ i, receivedFor i out = []) (noneAdded : ∀ i, addedTo i out = []) :
    Delivered t (log ++ out) where
  added := by
    intro i
    rw [addedTo_append, receivedFor_append, noneAdded, noneReceived, remote]
    simpa only [List.append_nil] using inv.added i
  waiting := by
    intro i atPc absent
    rw [receivedFor_append, noneReceived, List.append_nil]
    rcases queue with empty | ⟨pc, pending⟩
    · rw [empty] at atPc
      cases atPc
    · rw [pc] at atPc
      rw [remote] at absent
      rw [pending]
      exact inv.waiting i atPc absent
  notApplied := by
    intro k c sdp atChain
    rw [remote]
    exact inv.notApplied k c sdp (stays k c sdp atChain)
  unborn := by
    intro i bound
    rw [receivedFor_append, noneReceived, List.append_nil]
    exact inv.unborn i (by omega)
  offerPast := by
    intro i bound
    have past := inv.offerPast i (by omega)
    rw [offer]
    omega
  ownOffer := by
    intro i boundI j boundJ same
    rw [offer, offer] at same
    exact inv.ownOffer i (by omega) j (by omega) same

theorem Delivered.signalingClosed {s : State} {log : List Action} (inv : Delivered s log) :
    Delivered (signalingClosed s) (log ++ [.closed]) := by
  obtain ⟨created, offers, chain, _⟩ := closePc_frame s
  refine inv.keep created offers.ge ?_ ?_ ?_ (.inl (closePc_pc s)) (fun _ => rfl) (fun _ => rfl)
  · intro i
    simp only [Page.signalingClosed, closePc_conn]
  · intro i
    simp only [Page.signalingClosed, closePc_conn]
  · intro k c sdp atChain
    simpa only [Page.signalingClosed, chain] using atChain

/-- The connection that is added has a later offer than all the others. -/
theorem ownOffer_add {conns : Nat → PeerConnection} {n : Nat} {c : PeerConnection}
    (later : ∀ i < n, (conns i).offer < c.offer) (own : ∀ i < n, ∀ j < n, (conns i).offer = (conns j).offer → i = j) :
    ∀ i < n + 1, ∀ j < n + 1,
      (Function.update conns n c i).offer = (Function.update conns n c j).offer → i = j := by
  intro i boundI j boundJ same
  rcases Nat.lt_succ_iff_lt_or_eq.mp boundI with oldI | rfl <;> rcases Nat.lt_succ_iff_lt_or_eq.mp boundJ with oldJ | rfl
  · rw [Function.update_of_ne oldI.ne, Function.update_of_ne oldJ.ne] at same
    exact own i oldI j oldJ same
  · rw [Function.update_of_ne oldI.ne, Function.update_self] at same
    exact absurd same (later i oldI).ne
  · rw [Function.update_of_ne oldJ.ne, Function.update_self] at same
    exact absurd same.symm (later j oldJ).ne
  · rfl

/-- The new connection starts with nothing received and an empty `pending`. -/
theorem Delivered.offerReceived {s : State} {log : List Action} (inv : Delivered s log) (sdp : String)
    (constructed : Bool) : Delivered (offerReceived s sdp constructed) (log ++ [.offered (s.offers + 1)]) := by
  obtain ⟨created, _, chain, _⟩ := closePc_frame s
  have letGo : Delivered { closePc s with offers := s.offers + 1, pending := [] }
      (log ++ [.offered (s.offers + 1)]) := by
    refine inv.keep created (Nat.le_succ _) ?_ ?_ ?_ (.inl (closePc_pc s)) (fun _ => rfl) (fun _ => rfl)
    · intro i
      simp only [closePc_conn]
    · intro i
      simp only [closePc_conn]
    · intro k c sdp atChain
      simpa only [chain] using atChain
  unfold Page.offerReceived
  cases constructed with
  | false => exact letGo
  | true =>
    simp only [if_true]
    have nothing := letGo.unborn (closePc s).created (Nat.le_refl _)
    refine ⟨?_, ?_, ?_, ?_, ?_, ?_⟩
    · intro i
      have before := letGo.added i
      by_cases new : i = (closePc s).created
      · rw [new, nothing, ite_self] at before
        rw [new, before, nothing, ite_self]
      · simpa only [setChain_conns, setConn_conns, Function.update_of_ne new] using before
    · intro i atPc _
      cases Option.some.inj atPc
      exact nothing.symm
    · intro k c other atChain
      simp only [setChain_chain, setConn_chain] at atChain
      simp only [setChain_conns, setConn_conns]
      by_cases same : c = (closePc s).created
      · rw [same, Function.update_self]
        rfl
      · rw [Function.update_of_ne same]
        refine letGo.notApplied k c other ?_
        by_cases new : k = s.offers + 1
        · rw [new, Function.update_self] at atChain
          cases atChain
          exact absurd rfl same
        · rwa [Function.update_of_ne new] at atChain
    · intro i bound
      simp only [setChain_created] at bound
      exact letGo.unborn i (by simp only; omega)
    · intro i bound
      simp only [setChain_created] at bound
      simp only [setChain_conns, setConn_conns, setChain_offers, setConn_offers]
      by_cases new : i = (closePc s).created
      · rw [new, Function.update_self]
        exact Nat.le_refl _
      · rw [Function.update_of_ne new]
        exact letGo.offerPast i (by simp only; omega)
    · -- every earlier connection has an earlier offer
      have earlier : ∀ i < (closePc s).created, ((closePc s).conns i).offer ≤ s.offers := by
        intro i bound
        rw [closePc_conn]
        exact inv.offerPast i (by omega)
      exact ownOffer_add (fun i bound => Nat.lt_succ_of_le (earlier i bound)) letGo.ownOffer

/-- One of the two routes: into `pending` before the description is set, to
the connection after it. -/
theorem Delivered.iceCandidateReceived {s : State} {log : List Action} (negotiating : Negotiating s log)
    (inv : Delivered s log) (init : IceInit) :
    Delivered (iceCandidateReceived s init).1 (log ++ (iceCandidateReceived s init).2) := by
  unfold Page.iceCandidateReceived
  split
  · simpa only [List.append_nil] using inv
  rename_i c atPc
  split
  · simpa only [List.append_nil] using inv
  have bound := (negotiating.current c atPc).1
  have unborn (out : List Action) (others : ∀ i, c ≠ i → receivedFor i out = []) :
      ∀ i, s.created ≤ i → receivedFor i (log ++ out) = [] := by
    intro i future
    rw [receivedFor_append, inv.unborn i future, others i (by omega)]
    rfl
  split
  · rename_i absent
    rw [Option.isNone_iff_eq_none] at absent
    have queued := inv.waiting c atPc absent
    refine ⟨?_, ?_, inv.notApplied, ?_, inv.offerPast, inv.ownOffer⟩
    · intro i
      have before := inv.added i
      by_cases same : c = i
      · subst i
        simp only [absent, Option.isSome_none, Bool.false_eq_true, if_false] at before ⊢
        rw [addedTo_append, before]
        rfl
      · rw [addedTo_append, receivedFor_append, before]
        simp [receivedFor, addedTo, same]
    · intro i here _
      cases Option.some.inj (atPc.symm.trans here)
      rw [receivedFor_append, ← queued]
      simp [receivedFor]
    · exact unborn _ fun i other => by simp [receivedFor, other]
  · rename_i applied
    refine ⟨?_, ?_, inv.notApplied, ?_, inv.offerPast, inv.ownOffer⟩
    · intro i
      have before := inv.added i
      rw [addedTo_append, receivedFor_append, before]
      by_cases same : c = i
      · subst i
        have set : (s.conns c).remoteDescription.isSome := by
          simpa [Option.isNone_iff_eq_none, Option.isSome_iff_ne_none] using applied
        simp [set, receivedFor, addedTo]
      · simp [receivedFor, addedTo, same]
    · intro i here absent
      cases Option.some.inj (atPc.symm.trans here)
      rw [absent] at applied
      exact absurd rfl applied
    · exact unborn _ fun i other => by simp [receivedFor, other]

/-- `flushPending` runs in the task that sets the description, on the
connection it was set on. -/
theorem Delivered.fulfil {s t : State} {log out : List Action} (negotiating : Negotiating s log)
    (inv : Delivered s log) {k : Nat} {value : String} (run : fulfil s k value = some (t, out)) :
    Delivered t (log ++ out) := by
  obtain ⟨c, atPc, own, _, ⟨sdp, atChain, rfl, rfl⟩ | ⟨atChain, rfl, rfl⟩ | ⟨answer, atChain, rfl, rfl⟩⟩ :=
    negotiating.fulfil_cases run
  · have absent := inv.notApplied k c sdp atChain
    have queued := inv.waiting c atPc absent
    refine ⟨?_, ?_, ?_, ?_, ?_, ?_⟩
    · intro i
      have before := inv.added i
      rw [addedTo_append, receivedFor_append, receivedFor_map_addIceCandidate, addedTo_map_addIceCandidate,
        before]
      simp only [setChain_conns, setConn_conns]
      by_cases same : c = i
      · subst i
        simp [absent, queued]
      · simp [same, Function.update_of_ne (Ne.symm same)]
    · intro i here unset
      cases Option.some.inj (atPc.symm.trans here)
      simp at unset
    · intro l d other atL
      simp only [setChain_chain, setConn_chain] at atL
      simp only [setChain_conns, setConn_conns]
      by_cases here : l = k
      · rw [here, Function.update_self] at atL
        cases atL
      · rw [Function.update_of_ne here] at atL
        by_cases same : d = c
        · -- the other chain would belong to the same offer
          subst d
          exact absurd ((negotiating.chainOwn l _ atL).2.symm.trans own) here
        · rw [Function.update_of_ne same]
          exact inv.notApplied l d other atL
    · intro i future
      rw [receivedFor_append, receivedFor_map_addIceCandidate, List.append_nil]
      exact inv.unborn i future
    · intro i bound
      have past := inv.offerPast i bound
      simp only [setChain_conns, setConn_conns, setChain_offers, setConn_offers]
      by_cases same : i = c
      · subst i
        simpa using past
      · simpa only [Function.update_of_ne same] using past
    · have offer := (SameConns.setConn (s := s) (i := c)
        (c := { s.conns c with remoteDescription := some sdp }) rfl rfl).offer
      intro i boundI j boundJ same
      exact inv.ownOffer i boundI j boundJ (((offer i).symm.trans same).trans (offer j))
  · refine inv.keep rfl (Nat.le_refl _) (fun _ => rfl) (fun _ => rfl) ?_ (.inr ⟨rfl, rfl⟩) (fun _ => rfl)
      (fun _ => rfl)
    intro l d other atL
    by_cases here : l = k
    · simp only [setChain_chain, here, Function.update_self] at atL
      cases atL
    · simpa only [setChain_chain, Function.update_of_ne here] using atL
  · refine inv.keep rfl (Nat.le_refl _) ?_ ?_ ?_ (.inr ⟨rfl, rfl⟩) (fun _ => rfl) (fun _ => rfl)
    · exact setConn_keeps PeerConnection.remoteDescription rfl
    · exact setConn_keeps PeerConnection.offer rfl
    · exact fun l d sdp atL => chain_of_setChain_none atL

theorem Delivered.reject {s t : State} {log out : List Action} (inv : Delivered s log) {k : Nat}
    (run : reject s k = some (t, out)) : Delivered t (log ++ out) := by
  obtain ⟨rfl, rfl⟩ := reject_spec run
  refine inv.keep rfl (Nat.le_refl _) (fun _ => rfl) (fun _ => rfl) ?_ (.inr ⟨rfl, rfl⟩) (fun _ => rfl) (fun _ => rfl)
  exact fun l d sdp atL => chain_of_setChain_none atL

theorem Delivered.localCandidate {s t : State} {log out : List Action} (inv : Delivered s log) {i : Nat}
    {candidate : Option IceInit} (run : localCandidate s i candidate = some (t, out)) :
    Delivered t (log ++ out) := by
  obtain ⟨_, rfl, rfl⟩ := localCandidate_spec run
  refine inv.keep rfl (Nat.le_refl _) (fun _ => rfl) (fun _ => rfl) (fun _ _ _ same => same) (.inr ⟨rfl, rfl⟩)
    ?_ ?_ <;> intro j <;> cases candidate <;> rfl

theorem Delivered.connectionStateChange {s t : State} {log out : List Action} (inv : Delivered s log)
    {i : Nat} {state : String} (run : connectionStateChange s i state = some (t, out)) :
    Delivered t (log ++ out) := by
  obtain ⟨rfl, rfl⟩ := connectionStateChange_spec run
  refine inv.keep rfl (Nat.le_refl _) ?_ ?_ (fun _ _ _ same => same) (.inr ⟨rfl, rfl⟩) ?_ ?_
  · exact setConn_keeps PeerConnection.remoteDescription rfl
  · exact setConn_keeps PeerConnection.offer rfl
  · intro j
    cases s.pc <;> rfl
  · intro j
    cases s.pc <;> rfl

theorem Delivered.step {s t : State} {log out : List Action} (negotiating : Negotiating s log)
    (inv : Delivered s log) {e : Event} (run : step s e = some (t, out)) : Delivered t (log ++ out) := by
  cases e with
  | offerReceived sdp constructed =>
    cases run
    exact inv.offerReceived sdp constructed
  | iceCandidateReceived mid idx cand =>
    obtain ⟨rfl, rfl⟩ := iceCandidateReceived_step run
    exact inv.iceCandidateReceived negotiating _
  | signalingClosed =>
    cases run
    exact inv.signalingClosed
  | fulfil k value => exact inv.fulfil negotiating run
  | reject k => exact inv.reject run
  | localCandidate i candidate => exact inv.localCandidate run
  | connectionStateChange i state => exact inv.connectionStateChange run

theorem reach_delivered {s : State} {log : List Action} (reach : page.Reach Machine.Always s log) :
    Delivered s log := by
  induction reach with
  | start => refine ⟨?_, ?_, ?_, ?_, ?_, ?_⟩ <;> simp [page, initial, freshConnection, addedTo, receivedFor]
  | next before _ run ih => exact ih.step (reach_negotiating before) run

end WebRtcDemo.Page
