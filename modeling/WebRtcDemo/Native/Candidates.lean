import WebRtcDemo.Native.Answers

namespace WebRtcDemo.Native

/-- What happened after the latest offer. -/
def sinceOffer (log : List Action) : List Action :=
  (log.reverse.takeWhile (· ≠ .offered)).reverse

/-- The candidates that arrived. -/
def arrived (log : List Action) : List Arrival :=
  log.filterMap fun a => match a with
    | .arrived arrival => some arrival
    | _ => none

/-- The calls of `addRemoteIceCandidateNow`, with the connection each found. -/
def called (log : List Action) : List (Option Nat × Arrival) :=
  log.filterMap fun a => match a with
    | .addRemoteIceCandidateNow conn arrival => some (conn, arrival)
    | _ => none

/-- The flag speaks of the current connection, and the candidates since the
latest offer go to that offer's connection, in order and once its remote
description is set; while that is under way they all wait. -/
structure CandidatesOwn (s : State) (log : List Action) : Prop where
  flag : s.remoteDescriptionApplied = true → ∃ c, s.peerConnection = some c ∧ .remoteDescriptionSet c ∈ log
  calls : called (sinceOffer log) = if .remoteDescriptionSet s.offers ∈ log then
    (arrived (sinceOffer log)).map fun arrival => (some s.offers, arrival) else []
  kept : s.offers ∈ s.settingRemote → s.pendingRemoteIce = arrived (sinceOffer log)

/-- A completion that belongs to an earlier offer leaves the flag and the queue
as they are. -/
def CompletionOwn (s : State) : Event → Prop
  | .setRemoteDescriptionComplete conn error =>
    conn = s.offers ∨ s.pendingRemoteIce = [] ∧ s.remoteDescriptionApplied = error.isNone
  | _ => True

instance (s : State) : ∀ e, Decidable (CompletionOwn s e)
  | .setRemoteDescriptionComplete conn error => inferInstanceAs
    (Decidable (conn = s.offers ∨ s.pendingRemoteIce = [] ∧ s.remoteDescriptionApplied = error.isNone))
  | .connectToSignaling _ | .signalingError _ | .disconnect | .handleOffer _ _ _ | .handleRemoteIceCandidate _
  | .doCreateAnswerAfterSetRemote | .createAnswerComplete _ _ | .setLocalDescriptionComplete _ _ => isTrue trivial

/-- Nothing to do with candidates. -/
def Action.silent : Action → Bool
  | .offered | .arrived _ | .remoteDescriptionSet _ | .addRemoteIceCandidateNow _ _ => false
  | _ => true

theorem Action.silent_of_inert {a : Action} (inert : a.inert = true) : a.silent = true := by
  cases a <;> simp_all [Action.inert, Action.silent]

theorem sinceOffer_append {log out : List Action} (noOffer : .offered ∉ out) :
    sinceOffer (log ++ out) = sinceOffer log ++ out := by
  have all : ∀ a ∈ out.reverse, decide (a ≠ .offered) = true := by
    intro a member
    have different : a ≠ .offered := by
      rintro rfl
      exact noOffer (List.mem_reverse.mp member)
    simpa using different
  unfold sinceOffer
  rw [List.reverse_append, List.takeWhile_append_of_pos all, List.reverse_append, List.reverse_reverse]

theorem sinceOffer_offered {log out : List Action} (noOffer : .offered ∉ out) :
    sinceOffer (log ++ .offered :: out) = out := by
  rw [← List.singleton_append, ← List.append_assoc, sinceOffer_append noOffer]
  simp [sinceOffer]

theorem arrived_append (log out : List Action) : arrived (log ++ out) = arrived log ++ arrived out :=
  List.filterMap_append

theorem called_append (log out : List Action) : called (log ++ out) = called log ++ called out :=
  List.filterMap_append

/-- All that a silent list of actions leaves unchanged. -/
structure Silent (out : List Action) : Prop where
  offered : .offered ∉ out
  arrived : arrived out = []
  called : called out = []
  set : ∀ c, .remoteDescriptionSet c ∉ out

theorem Silent.of_forall {out : List Action} (silent : ∀ a ∈ out, a.silent = true) : Silent out := by
  refine ⟨?_, ?_, ?_, ?_⟩
  · intro member
    cases silent _ member
  · refine List.filterMap_eq_nil_iff.mpr fun a member => ?_
    have here := silent a member
    cases a <;> simp_all [Action.silent]
  · refine List.filterMap_eq_nil_iff.mpr fun a member => ?_
    have here := silent a member
    cases a <;> simp_all [Action.silent]
  · intro c member
    cases silent _ member

theorem called_map_addRemoteIceCandidateNow (s : State) (arrivals : List Arrival) :
    called (arrivals.map (addRemoteIceCandidateNow s)) = arrivals.map fun x => (s.peerConnection, x) := by
  simp [called, addRemoteIceCandidateNow, List.filterMap_map, Function.comp_def]

theorem arrived_map_addRemoteIceCandidateNow (s : State) (arrivals : List Arrival) :
    arrived (arrivals.map (addRemoteIceCandidateNow s)) = [] := by
  simp [arrived, addRemoteIceCandidateNow]

theorem doCreateAnswerAfterSetRemote_frame {s t : State} {out : List Action}
    (run : doCreateAnswerAfterSetRemote s = (t, out)) :
    ∃ creating, t = { s with creating := creating } ∧ ∀ a ∈ out, a.silent = true := by
  unfold doCreateAnswerAfterSetRemote at run
  split at run
  · cases run
    exact ⟨_, rfl, by simp⟩
  · cases run
    exact ⟨_, rfl, by simp [Action.silent]⟩

theorem createAnswerComplete_frame {s t : State} {out : List Action} {conn : Nat} {result : CreateAnswerResult}
    (run : createAnswerComplete s conn result = (t, out)) :
    ∃ creating settingLocal crashed,
      t = { s with creating := creating, settingLocal := settingLocal, crashed := crashed } ∧
        ∀ a ∈ out, a.silent = true := by
  cases result with
  | failure | noDescription | notPrintable =>
    cases run
    exact ⟨_, _, _, rfl, by simp [Action.silent]⟩
  | success sdp =>
    simp only [createAnswerComplete] at run
    split at run
    · cases run
      exact ⟨_, _, _, rfl, by simp [Action.silent]⟩
    split at run
    · cases run
      exact ⟨_, _, _, rfl, by simp [Action.silent]⟩
    · cases run
      exact ⟨_, _, _, rfl, by simp [Action.silent]⟩

theorem setLocalDescriptionComplete_silent (s : State) (answer : Answer) (error : Option String) :
    ∀ a ∈ setLocalDescriptionComplete s answer error, a.silent = true := by
  cases error with
  | some message => simp [setLocalDescriptionComplete, Action.silent]
  | none => cases connected : s.signaling <;> simp [setLocalDescriptionComplete, connected, Action.silent]

/-- The flag is exactly whether the description of the latest offer is set,
and that description is either on its way or set, never both. -/
structure Collecting (s : State) (log : List Action) : Prop where
  noFactory : s.factory = false → s.peerConnection = none
  born : ∀ c, c ∈ s.settingRemote ∨ .remoteDescriptionSet c ∈ log → c ≤ s.offers
  once : s.settingRemote.Nodup
  applied : s.remoteDescriptionApplied = true ↔ .remoteDescriptionSet s.offers ∈ log
  current : s.offers ∈ s.settingRemote ∨ .remoteDescriptionSet s.offers ∈ log → s.peerConnection = some s.offers
  exclusive : s.offers ∈ s.settingRemote → .remoteDescriptionSet s.offers ∉ log
  kept : s.offers ∈ s.settingRemote → s.pendingRemoteIce = arrived (sinceOffer log)
  calls : called (sinceOffer log) = if .remoteDescriptionSet s.offers ∈ log then
    (arrived (sinceOffer log)).map fun arrival => (some s.offers, arrival) else []

theorem Collecting.candidatesOwn {s : State} {log : List Action} (inv : Collecting s log) : CandidatesOwn s log where
  flag := by
    intro applied
    have set := inv.applied.mp applied
    exact ⟨s.offers, inv.current (.inr set), set⟩
  calls := inv.calls
  kept := inv.kept

/-- Steps that leave the flag, the queue and the latest offer alone. -/
theorem Collecting.aside {s t : State} {log out : List Action} (inv : Collecting s log)
    (noOffer : .offered ∉ out) (noneArrived : arrived out = []) (noneCalled : called out = [])
    (earlier : ∀ c, .remoteDescriptionSet c ∈ out → c < s.offers)
    (offers : t.offers = s.offers) (factory : t.factory = s.factory) (conn : t.peerConnection = s.peerConnection)
    (fewer : t.settingRemote.Sublist s.settingRemote)
    (applied : t.remoteDescriptionApplied = s.remoteDescriptionApplied)
    (pending : t.pendingRemoteIce = s.pendingRemoteIce) : Collecting t (log ++ out) := by
  have sameSet : .remoteDescriptionSet s.offers ∈ log ++ out ↔ .remoteDescriptionSet s.offers ∈ log := by
    rw [List.mem_append]
    exact ⟨fun member => member.elim id fun new => absurd (earlier _ new) (Nat.lt_irrefl _), .inl⟩
  have sameArrived : arrived (sinceOffer (log ++ out)) = arrived (sinceOffer log) := by
    rw [sinceOffer_append noOffer, arrived_append, noneArrived, List.append_nil]
  have sameCalled : called (sinceOffer (log ++ out)) = called (sinceOffer log) := by
    rw [sinceOffer_append noOffer, called_append, noneCalled, List.append_nil]
  refine ⟨?_, ?_, inv.once.sublist fewer, ?_, ?_, ?_, ?_, ?_⟩
  · rw [factory, conn]
    exact inv.noFactory
  · intro c member
    rw [offers]
    rcases member with onItsWay | set
    · exact inv.born c (.inl (fewer.subset onItsWay))
    · rcases List.mem_append.mp set with old | new
      · exact inv.born c (.inr old)
      · exact (earlier c new).le
  · rw [applied, offers, sameSet]
    exact inv.applied
  · rw [offers, sameSet, conn]
    exact fun member => inv.current (member.imp (fun onItsWay => fewer.subset onItsWay) id)
  · rw [offers, sameSet]
    exact fun onItsWay => inv.exclusive (fewer.subset onItsWay)
  · rw [offers, pending, sameArrived]
    exact fun onItsWay => inv.kept (fewer.subset onItsWay)
  · simp only [offers, sameSet, sameArrived, sameCalled]
    exact inv.calls

theorem Collecting.silently {s t : State} {log out : List Action} (inv : Collecting s log) (silent : Silent out)
    (offers : t.offers = s.offers) (factory : t.factory = s.factory) (conn : t.peerConnection = s.peerConnection)
    (settingRemote : t.settingRemote = s.settingRemote)
    (applied : t.remoteDescriptionApplied = s.remoteDescriptionApplied)
    (pending : t.pendingRemoteIce = s.pendingRemoteIce) : Collecting t (log ++ out) :=
  inv.aside silent.offered silent.arrived silent.called (fun c set => absurd set (silent.set c)) offers factory conn
    (settingRemote ▸ List.Sublist.refl _) applied pending

theorem Collecting.handleOffer {s t : State} {log out : List Action} (inv : Collecting s log)
    (handled : OfferHandled s t out) : Collecting t (log ++ out) := by
  obtain ⟨offers, noFactory, conn, pending, notApplied, settingRemote, _, rest, rfl, inert⟩ := handled
  have silent := Silent.of_forall fun a member => Action.silent_of_inert (inert a member)
  have sameSet : ∀ c, .remoteDescriptionSet c ∈ log ++ .offered :: rest ↔ .remoteDescriptionSet c ∈ log := by
    intro c
    simp [silent.set c]
  have notSet : .remoteDescriptionSet t.offers ∉ log ++ .offered :: rest := by
    rw [sameSet]
    intro member
    have bound := inv.born _ (.inr member)
    omega
  have absent : s.offers + 1 ∉ s.settingRemote := by
    intro member
    have bound := inv.born _ (.inl member)
    omega
  have setting : ∀ c ∈ t.settingRemote, c ∈ s.settingRemote ∨ c = t.offers ∧ t.peerConnection = some t.offers := by
    intro c member
    rcases settingRemote with same | ⟨here, new⟩
    · exact .inl (same ▸ member)
    · rw [new, List.mem_append, List.mem_singleton] at member
      rw [offers]
      exact member.imp id fun equal => ⟨equal, here⟩
  refine ⟨noFactory, ?_, ?_, ?_, ?_, ?_, ?_, ?_⟩
  · intro c member
    rw [sameSet] at member
    rcases member with onItsWay | set
    · rcases setting c onItsWay with old | ⟨new, _⟩
      · have bound := inv.born c (.inl old)
        omega
      · omega
    · have bound := inv.born c (.inr set)
      omega
  · rcases settingRemote with same | ⟨_, new⟩
    · rw [same]
      exact inv.once
    · rw [new, List.nodup_append]
      refine ⟨inv.once, List.nodup_singleton _, ?_⟩
      intro c old d here equal
      rw [equal, List.mem_singleton.mp here] at old
      exact absent old
  · rw [notApplied]
    simp [notSet]
  · rintro (onItsWay | set)
    · rcases setting _ onItsWay with old | ⟨_, here⟩
      · rw [offers] at old
        exact absurd old absent
      · exact here
    · exact absurd set notSet
  · exact fun _ => notSet
  · intro _
    rw [pending, sinceOffer_offered silent.offered, silent.arrived]
  · rw [if_neg notSet, sinceOffer_offered silent.offered, silent.called]

theorem Collecting.handleRemoteIceCandidate {s : State} {log : List Action} (inv : Collecting s log)
    (ice : PendingRemoteIce) :
    Collecting (handleRemoteIceCandidate s ice).1 (log ++ (handleRemoteIceCandidate s ice).2) := by
  rcases handleRemoteIceCandidate_cases s ice with ⟨waits, run⟩ | ⟨_, applied, run⟩
  · rw [run]
    have notSet : .remoteDescriptionSet s.offers ∉ log := by
      intro set
      rcases waits with absent | notApplied
      · rw [inv.current (.inr set)] at absent
        cases absent
      · rw [inv.applied.mpr set] at notApplied
        cases notApplied
    have since : sinceOffer (log ++ [.arrived ⟨s.arrivals, ice⟩]) = _ := sinceOffer_append (by simp)
    refine ⟨inv.noFactory, ?_, inv.once, ?_, ?_, ?_, ?_, ?_⟩
    · simpa using inv.born
    · simpa using inv.applied
    · simpa using inv.current
    · simpa using inv.exclusive
    · intro onItsWay
      rw [since, arrived_append, ← inv.kept onItsWay]
      rfl
    · have before := inv.calls
      rw [if_neg notSet] at before
      rw [since, called_append, before, if_neg (by simpa using notSet)]
      rfl
  · rw [run]
    have set := inv.applied.mp applied
    have conn := inv.current (.inr set)
    have since : sinceOffer (log ++ [.arrived ⟨s.arrivals, ice⟩,
        .addRemoteIceCandidateNow s.peerConnection ⟨s.arrivals, ice⟩]) = _ := sinceOffer_append (by simp)
    refine ⟨inv.noFactory, ?_, inv.once, ?_, ?_, ?_, ?_, ?_⟩
    · simpa using inv.born
    · simpa using inv.applied
    · simpa using inv.current
    · simpa using inv.exclusive
    · intro onItsWay
      exact absurd set (inv.exclusive onItsWay)
    · have before := inv.calls
      rw [if_pos set] at before
      rw [since, called_append, arrived_append, before, if_pos (List.mem_append_left _ set), List.map_append, conn]
      rfl

/-- The completion of the latest offer: a failure ends the matter, a success
hands over everything that waited. -/
theorem Collecting.completeOwn {s : State} {log : List Action} (inv : Collecting s log)
    (pending : s.offers ∈ s.settingRemote) (error : Option String) :
    Collecting
      (setRemoteDescriptionComplete { s with settingRemote := s.settingRemote.erase s.offers } s.offers error).1
      (log ++
        (setRemoteDescriptionComplete { s with settingRemote := s.settingRemote.erase s.offers } s.offers error).2) := by
  have notSet := inv.exclusive pending
  have conn := inv.current (.inl pending)
  have gone : s.offers ∉ s.settingRemote.erase s.offers := inv.once.not_mem_erase
  have fewer : ∀ c ∈ s.settingRemote.erase s.offers, c ∈ s.settingRemote := fun c => List.mem_of_mem_erase
  cases error with
  | some message =>
    have silent : Silent [.statusChanged ("SetRemoteDescription 失败: " ++ message)] :=
      .of_forall (by simp [Action.silent])
    have still : .remoteDescriptionSet s.offers ∉ log ++ [.statusChanged ("SetRemoteDescription 失败: " ++ message)] := by
      simpa using notSet
    simp only [Native.setRemoteDescriptionComplete]
    refine ⟨inv.noFactory, ?_, inv.once.erase _, ?_, fun _ => conn, fun _ => still, ?_, ?_⟩
    · intro c member
      refine inv.born c (member.imp (fewer c) ?_)
      intro set
      simpa using set
    · simpa using notSet
    · intro onItsWay
      exact absurd onItsWay gone
    · have before := inv.calls
      rw [if_neg notSet] at before
      rw [if_neg still, sinceOffer_append silent.offered, called_append, before, silent.called]
      rfl
  | none =>
    simp only [Native.setRemoteDescriptionComplete, flushPendingRemoteIceCandidates]
    have noOffer (u : State) :
        .offered ∉ .remoteDescriptionSet s.offers :: s.pendingRemoteIce.map (addRemoteIceCandidateNow u) := by
      simp [addRemoteIceCandidateNow]
    refine ⟨inv.noFactory, ?_, inv.once.erase _, ?_, fun _ => conn, ?_, ?_, ?_⟩
    · intro c member
      simp only [List.mem_append, List.mem_cons, Action.remoteDescriptionSet.injEq] at member
      rcases member with onItsWay | set | rfl | flushed
      · exact inv.born c (.inl (fewer c onItsWay))
      · exact inv.born c (.inr set)
      · exact Nat.le_refl _
      · simp [addRemoteIceCandidateNow] at flushed
    · simp
    · intro onItsWay
      exact absurd onItsWay gone
    · intro onItsWay
      exact absurd onItsWay gone
    · have before := inv.calls
      rw [if_neg notSet] at before
      rw [if_pos (by simp), sinceOffer_append (noOffer _), called_append, arrived_append, before, ← inv.kept pending]
      rw [← List.singleton_append, called_append, arrived_append, called_map_addRemoteIceCandidateNow,
        arrived_map_addRemoteIceCandidateNow]
      simp [called, arrived, conn]

/-- A completion of an earlier offer that changes neither flag nor queue. -/
theorem Collecting.completeEarlier {s : State} {log : List Action} (inv : Collecting s log) {conn : Nat}
    (pending : conn ∈ s.settingRemote) (earlier : conn ≠ s.offers) {error : Option String}
    (empty : s.pendingRemoteIce = []) (flag : s.remoteDescriptionApplied = error.isNone) :
    Collecting
      (setRemoteDescriptionComplete { s with settingRemote := s.settingRemote.erase conn } conn error).1
      (log ++ (setRemoteDescriptionComplete { s with settingRemote := s.settingRemote.erase conn } conn error).2) := by
  have bound := inv.born conn (.inl pending)
  cases error with
  | some message =>
    have silent : Silent [.statusChanged ("SetRemoteDescription 失败: " ++ message)] :=
      .of_forall (by simp [Action.silent])
    exact inv.aside silent.offered silent.arrived silent.called (fun c set => absurd set (silent.set c)) rfl rfl rfl
      List.erase_sublist flag.symm empty.symm
  | none =>
    simp only [Native.setRemoteDescriptionComplete, flushPendingRemoteIceCandidates, empty, List.map_nil]
    refine inv.aside (by simp) rfl rfl ?_ rfl rfl rfl List.erase_sublist flag.symm empty.symm
    intro c set
    simp only [List.mem_singleton, Action.remoteDescriptionSet.injEq] at set
    omega

theorem Collecting.step {s t : State} {log out : List Action} (inv : Collecting s log) {e : Event}
    (connected : e ≠ .disconnect) (own : CompletionOwn s e) (run : step s e = some (t, out)) :
    Collecting t (log ++ out) := by
  have spec := step_spec run
  cases e with
  | connectToSignaling started =>
    cases spec
    exact inv.silently (.of_forall (by simp [Action.silent])) rfl rfl rfl rfl rfl rfl
  | signalingError message =>
    cases spec
    exact inv.silently (.of_forall (by simp [Action.silent])) rfl rfl rfl rfl rfl rfl
  | disconnect => exact absurd rfl connected
  | handleOffer type sdp outcome =>
    have handled := handleOffer_spec inv.noFactory type sdp outcome
    rw [show Native.handleOffer s type sdp outcome = (t, out) from spec] at handled
    exact inv.handleOffer handled
  | handleRemoteIceCandidate ice =>
    have handled := inv.handleRemoteIceCandidate ice
    rwa [show Native.handleRemoteIceCandidate s ice = (t, out) from spec] at handled
  | setRemoteDescriptionComplete conn error =>
    obtain ⟨pending, run⟩ := spec
    by_cases latest : conn = s.offers
    · subst conn
      have handled := inv.completeOwn pending error
      rwa [run] at handled
    · obtain ⟨empty, flag⟩ := own.resolve_left latest
      have handled := inv.completeEarlier pending latest empty flag
      rwa [run] at handled
  | doCreateAnswerAfterSetRemote =>
    obtain ⟨conn, rest, _, run⟩ := spec
    obtain ⟨creating, rfl, silent⟩ := doCreateAnswerAfterSetRemote_frame run
    exact inv.silently (.of_forall silent) rfl rfl rfl rfl rfl rfl
  | createAnswerComplete conn result =>
    obtain ⟨_, run⟩ := spec
    obtain ⟨creating, settingLocal, crashed, rfl, silent⟩ := createAnswerComplete_frame run
    exact inv.silently (.of_forall silent) rfl rfl rfl rfl rfl rfl
  | setLocalDescriptionComplete answer error =>
    obtain ⟨_, run⟩ := spec
    cases run
    refine inv.silently (.of_forall ?_) rfl rfl rfl rfl rfl rfl
    exact setLocalDescriptionComplete_silent s answer error

/-- The candidates given to connection `c`. -/
def addedTo (c : Nat) (log : List Action) : List Arrival :=
  (called log).filterMap fun call => if call.1 = some c then some call.2 else none

theorem addedTo_append (c : Nat) (log out : List Action) : addedTo c (log ++ out) = addedTo c log ++ addedTo c out := by
  rw [addedTo, called_append, List.filterMap_append]
  rfl

/-- What one step does with candidates: they are numbered as they arrive, and
those handed over waited before or arrived now. -/
structure CandidateStep (s t : State) (out : List Action) : Prop where
  noFactory : t.factory = false → t.peerConnection = none
  grows : s.arrivals ≤ t.arrivals
  numbered : ∀ x ∈ arrived out, x.number < t.arrivals
  waiting : ∀ x ∈ t.pendingRemoteIce, x ∈ s.pendingRemoteIce ∨ s.arrivals ≤ x.number
  calls : ∀ call ∈ called out, call.1 = s.peerConnection ∧ (call.2 ∈ s.pendingRemoteIce ∨ s.arrivals ≤ call.2.number)

theorem CandidateStep.of_silent {s t : State} {out : List Action} (silent : Silent out)
    (noFactory : t.factory = false → t.peerConnection = none) (arrivals : t.arrivals = s.arrivals)
    (pending : t.pendingRemoteIce = s.pendingRemoteIce ∨ t.pendingRemoteIce = []) : CandidateStep s t out := by
  refine ⟨noFactory, arrivals.ge, ?_, ?_, ?_⟩
  · simp [silent.arrived]
  · intro x member
    rcases pending with same | none
    · exact .inl (same ▸ member)
    · rw [none] at member
      cases member
  · simp [silent.called]

theorem candidateStep {s t : State} {e : Event} {out : List Action}
    (noFactory : s.factory = false → s.peerConnection = none) (run : step s e = some (t, out)) :
    CandidateStep s t out := by
  have spec := step_spec run
  cases e with
  | connectToSignaling started =>
    cases spec
    exact .of_silent (.of_forall (by simp [Action.silent])) noFactory rfl (.inl rfl)
  | signalingError message =>
    cases spec
    exact .of_silent (.of_forall (by simp [Action.silent])) noFactory rfl (.inl rfl)
  | disconnect =>
    cases spec
    refine .of_silent (.of_forall ?_) (fun _ => rfl) rfl (.inr rfl)
    cases s.peerConnection <;> simp [Action.silent]
  | handleOffer type sdp outcome =>
    have handled := handleOffer_spec noFactory type sdp outcome
    rw [show Native.handleOffer s type sdp outcome = (t, out) from spec] at handled
    obtain ⟨rest, rfl, inert⟩ := handled.out
    have silent := Silent.of_forall fun a member => Action.silent_of_inert (inert a member)
    refine ⟨handled.noFactory, handled.frame.1.ge, ?_, ?_, ?_⟩
    · rw [show arrived (.offered :: rest) = [] from silent.arrived]
      intro x member
      cases member
    · rw [handled.pending]
      intro x member
      cases member
    · rw [show called (.offered :: rest) = [] from silent.called]
      intro call member
      cases member
  | handleRemoteIceCandidate ice =>
    rcases handleRemoteIceCandidate_cases s ice with ⟨_, run⟩ | ⟨_, _, run⟩
    · cases run.symm.trans spec
      refine ⟨noFactory, Nat.le_succ _, by simp [arrived], ?_, by simp [called]⟩
      intro x member
      rcases List.mem_append.mp member with old | new
      · exact .inl old
      · cases List.mem_singleton.mp new
        exact .inr (Nat.le_refl _)
    · cases run.symm.trans spec
      exact ⟨noFactory, Nat.le_succ _, by simp [arrived], fun x member => .inl member, by simp [called]⟩
  | setRemoteDescriptionComplete conn error =>
    obtain ⟨_, run⟩ := spec
    cases error with
    | some message =>
      cases run
      exact .of_silent (.of_forall (by simp [Action.silent])) noFactory rfl (.inr rfl)
    | none =>
      cases run
      refine ⟨noFactory, Nat.le_refl _, ?_, by simp, ?_⟩
      · rw [← List.singleton_append, arrived_append]
        simp only [arrived_map_addRemoteIceCandidateNow]
        simp [arrived]
      · rw [← List.singleton_append, called_append]
        simp only [called_map_addRemoteIceCandidateNow]
        intro call member
        simp only [called, List.filterMap_cons, List.filterMap_nil, List.nil_append, List.mem_map] at member
        obtain ⟨x, waiting, rfl⟩ := member
        exact ⟨rfl, .inl waiting⟩
  | doCreateAnswerAfterSetRemote =>
    obtain ⟨conn, rest, _, run⟩ := spec
    obtain ⟨creating, rfl, silent⟩ := doCreateAnswerAfterSetRemote_frame run
    exact .of_silent (.of_forall silent) noFactory rfl (.inl rfl)
  | createAnswerComplete conn result =>
    obtain ⟨_, run⟩ := spec
    obtain ⟨creating, settingLocal, crashed, rfl, silent⟩ := createAnswerComplete_frame run
    exact .of_silent (.of_forall silent) noFactory rfl (.inl rfl)
  | setLocalDescriptionComplete answer error =>
    obtain ⟨_, run⟩ := spec
    cases run
    exact .of_silent (.of_forall (setLocalDescriptionComplete_silent s answer error)) noFactory rfl (.inl rfl)

/-- While there is no connection nothing is given to one. -/
theorem early_unadded {s u : State} {before : List Event} {early : List Action}
    (absent : client.Along (fun s => s.peerConnection = none) s before)
    (run : client.exec s before = some (u, early)) :
    (∀ x ∈ arrived early, x.number < u.arrivals) ∧ ∀ c, addedTo c early = [] := by
  have held : (∀ x ∈ arrived [], x.number < s.arrivals) ∧ ∀ c, addedTo c [] = [] := by
    simp [arrived, addedTo, called]
  refine Machine.Along.invariant
    (P := fun s log => (∀ x ∈ arrived log, x.number < s.arrivals) ∧ ∀ c, addedTo c log = []) ?_ held absent run
  intro s log e t out held none run
  obtain ⟨_, grows, numbered, _, calls⟩ := candidateStep (fun _ => none) run
  refine ⟨?_, ?_⟩
  · intro x member
    rw [arrived_append, List.mem_append] at member
    rcases member with old | new
    · have bound := held.1 x old
      omega
    · exact numbered x new
  · intro c
    rw [addedTo_append, held.2 c, List.nil_append]
    refine List.filterMap_eq_nil_iff.mpr fun call member => ?_
    rw [(calls call member).1, none]
    simp

/-- After an offer only what arrives later is ever given to a connection. -/
theorem later_added {v w : State} {after : List Event} {later : List Action} {number : Nat}
    (noFactory : v.factory = false → v.peerConnection = none) (empty : v.pendingRemoteIce = [])
    (counted : number ≤ v.arrivals) (run : client.exec v after = some (w, later)) :
    ∀ c, ∀ x ∈ addedTo c later, number ≤ x.number := by
  have held : (v.factory = false → v.peerConnection = none) ∧ number ≤ v.arrivals ∧
      (∀ x ∈ v.pendingRemoteIce, number ≤ x.number) ∧ ∀ call ∈ called [], number ≤ call.2.number :=
    ⟨noFactory, counted, by simp [empty], by simp [called]⟩
  have kept := Machine.Along.invariant
    (P := fun s log => (s.factory = false → s.peerConnection = none) ∧ number ≤ s.arrivals ∧
      (∀ x ∈ s.pendingRemoteIce, number ≤ x.number) ∧ ∀ call ∈ called log, number ≤ call.2.number)
    ?_ held (Machine.along_true v after) run
  · intro c x member
    obtain ⟨call, inside, found⟩ := List.mem_filterMap.mp member
    split at found
    · cases found
      exact kept.2.2.2 call inside
    · cases found
  · intro s log e t out ⟨noFactory, counted, waiting, calls⟩ _ run
    obtain ⟨still, grows, _, moved, made⟩ := candidateStep noFactory run
    refine ⟨still, by omega, ?_, ?_⟩
    · intro x member
      rcases moved x member with old | new
      · exact waiting x old
      · omega
    · intro call member
      rw [called_append, List.mem_append] at member
      rcases member with old | new
      · exact calls call old
      · rcases (made call new).2 with waited | now
        · exact waiting call.2 waited
        · omega

/-- A run that reaches a state without a connection, goes on without one for a
while, handles an offer, then anything, and ends with the success of that
offer's `SetRemoteDescription`. -/
structure EarlyRun where
  (start quiet offered last applied : State)
  (before after : List Event)
  (type sdp : String)
  outcome : OfferOutcome
  (history early offer later flushed : List Action)
  reach : client.Reach Machine.Always start history
  absent : client.Along (fun s => s.peerConnection = none) start before
  runEarly : client.exec start before = some (quiet, early)
  runOffer : client.step quiet (.handleOffer type sdp outcome) = some (offered, offer)
  runLater : client.exec offered after = some (last, later)
  runApplied : client.step last (.setRemoteDescriptionComplete offered.offers none) = some (applied, flushed)

/-- Those of the early candidates that the new connection was given. -/
def EarlyRun.added (run : EarlyRun) : List Arrival :=
  (addedTo run.offered.offers (run.early ++ run.offer ++ run.later ++ run.flushed)).filter (· ∈ arrived run.early)

/-- The early candidates are given to the new connection exactly when there
are none: `handleOffer` clears the queue they wait in. -/
theorem early_candidates_added_iff (run : EarlyRun) : run.added = arrived run.early ↔ arrived run.early = [] := by
  obtain ⟨numbered, noneEarly⟩ := early_unadded run.absent run.runEarly
  have handled := handleOffer_spec (fun _ => run.absent.last run.runEarly) run.type run.sdp run.outcome
  have spec : handleOffer run.quiet run.type run.sdp run.outcome = (run.offered, run.offer) :=
    step_spec (e := .handleOffer run.type run.sdp run.outcome) run.runOffer
  rw [spec] at handled
  obtain ⟨rest, started, inert⟩ : ∃ rest, run.offer = .offered :: rest ∧ ∀ a ∈ rest, a.inert = true := handled.out
  have silent := Silent.of_forall fun a member => Action.silent_of_inert (inert a member)
  have noneOffer : addedTo run.offered.offers run.offer = [] := by
    rw [started, addedTo, show called (.offered :: rest) = [] from silent.called]
    rfl
  have fresh := later_added handled.noFactory handled.pending handled.frame.1.ge
    (Machine.exec_snoc run.runLater run.runApplied)
  have lost : run.added = [] := by
    unfold EarlyRun.added
    rw [List.append_assoc, addedTo_append, addedTo_append, noneEarly, noneOffer, List.nil_append, List.nil_append]
    refine List.filter_eq_nil_iff.mpr fun x member => ?_
    have late := fresh run.offered.offers x member
    rw [decide_eq_true_eq]
    intro among
    have soon := numbered x among
    omega
  rw [lost]
  exact eq_comm

/-- One candidate, then the offer and its success. -/
theorem early_candidate_lost : ¬ ∀ run : EarlyRun, run.added = arrived run.early := by
  intro always
  have kept := always {
    start := initial
    quiet := _
    offered := _
    last := _
    applied := _
    history := []
    early := _
    offer := _
    later := _
    flushed := _
    before := [.handleRemoteIceCandidate ⟨"0", 0, "c"⟩]
    after := []
    type := "offer"
    sdp := "o1"
    outcome := ⟨true, none, none⟩
    reach := .start
    absent := ⟨rfl, rfl⟩
    runEarly := rfl
    runOffer := rfl
    runLater := rfl
    runApplied := rfl }
  exact absurd kept (by decide)

end WebRtcDemo.Native
