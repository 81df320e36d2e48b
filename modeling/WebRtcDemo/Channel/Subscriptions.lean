import WebRtcDemo.Channel.Emissions

/-! The host sends a signal only to a client that is connected to it. The client
is connected at the host exactly while the page has a callback for the signal. -/

namespace WebRtcDemo.Channel

open Machine

variable {κ ν : Type}

/-- How often the messages sent so far leave the client connected to a signal
at a host that counts. -/
def subscriptions (object : String) (signal : Nat) : Nat → Action κ ν → Nat
  | count, .sent (.connectToSignal o i) => if o = object ∧ i = signal then count + 1 else count
  | count, .sent (.disconnectFromSignal o i) => if o = object ∧ i = signal then count - 1 else count
  | count, _ => count

/-- All the names that the object has for the signal are names of a signal for
which the client must connect at the host. -/
def Connectable (o : QObject ν) (signal : Nat) : Prop :=
  ∀ name h, o.handles name = some h → h.index = signal → h.isPropertyNotifySignal = false ∧ isDestroyed name = false

/-- The host describes its objects once. -/
def InitOnce (s : State κ ν) : Event κ ν → Prop
  | .receive (.response (some id) _) => ∀ initCallback, s.execCallbacks id = some (.init initCallback) → s.objects = fun _ => none
  | _ => True

/-- Outputs that do not connect or disconnect at the host. -/
def Action.Unsubscribing : Action κ ν → Prop
  | .sent (.connectToSignal _ _) => False
  | .sent (.disconnectFromSignal _ _) => False
  | _ => True

theorem subscriptions_of_quiet {out : List (Action κ ν)} (quiet : ∀ a ∈ out, a.Unsubscribing) (object : String)
    (signal : Nat) (count : Nat) : out.foldl (subscriptions object signal) count = count := by
  induction out with
  | nil => rfl
  | cons a out ih =>
    have here := quiet a List.mem_cons_self
    have rest := ih fun b member => quiet b (List.mem_cons_of_mem _ member)
    cases a with
    | sent m =>
      cases m with
      | connectToSignal | disconnectFromSignal => exact here.elim
      | _ => exact rest
    | _ => exact rest

structure Subscribed (s : State κ ν) (log : List (Action κ ν)) : Prop where
  absent : ∀ object signal, s.objects object = none → log.foldl (subscriptions object signal) 0 = 0
  agrees : ∀ {object o signal}, s.objects object = some o → Connectable o signal →
    log.foldl (subscriptions object signal) 0 = if (callbacksAt s object signal).isEmpty then 0 else 1

theorem Subscribed.start : Subscribed (initial : State κ ν) [] := ⟨fun _ _ _ => rfl, fun found => by cases found⟩

namespace Subscribed

variable {s t : State κ ν} {log out : List (Action κ ν)}

/-- The objects keep their signals, and these keep their callbacks. -/
theorem rests (subscribed' : Subscribed s log) (absent : ∀ n, t.objects n = none → s.objects n = none)
    (handles : ∀ {n o}, t.objects n = some o → ∃ before, s.objects n = some before ∧ before.handles = o.handles)
    (callbacks : ∀ n i, callbacksAt t n i = callbacksAt s n i) (quiet : ∀ a ∈ out, a.Unsubscribing) :
    Subscribed t (log ++ out) where
  absent n i none := by
    rw [List.foldl_append, subscriptions_of_quiet quiet]
    exact subscribed'.absent n i (absent n none)
  agrees {n o i} found pure := by
    rw [List.foldl_append, subscriptions_of_quiet quiet, callbacks]
    obtain ⟨before, there, same⟩ := handles found
    exact subscribed'.agrees there fun name h => same ▸ pure name h

theorem same (subscribed' : Subscribed s log) (objects : t.objects = s.objects) (arrays : t.arrays = s.arrays)
    (quiet : ∀ a ∈ out, a.Unsubscribing) : Subscribed t (log ++ out) := by
  refine subscribed'.rests (fun n none => objects ▸ none) (fun {n o} found => ⟨o, objects ▸ found, rfl⟩) (fun n i => ?_) quiet
  unfold callbacksAt ref
  rw [objects, arrays]

/-- An object's cache changes. -/
theorem cached (subscribed' : Subscribed s log) {name : String} {o o' : QObject ν} (found : s.objects name = some o)
    (objects : t.objects = (setObject s name o').objects) (handles : o'.handles = o.handles)
    (signals : o'.objectSignals = o.objectSignals) (arrays : t.arrays = s.arrays) (quiet : ∀ a ∈ out, a.Unsubscribing) :
    Subscribed t (log ++ out) := by
  refine subscribed'.rests (fun n none => ?_) (fun {n p} there => ?_) (fun n i => ?_) quiet
  · rw [objects, setObject_objects, Function.update_apply] at none
    split at none
    · cases none
    · exact none
  · rw [objects, setObject_objects, Function.update_apply] at there
    split at there
    · rename_i here
      obtain rfl := Option.some.inj there
      exact ⟨o, here ▸ found, handles.symm⟩
    · exact ⟨p, there, rfl⟩
  · have refs : ref t n i = ref (setObject s name o') n i := by rw [ref, ref, objects]
    rw [callbacksAt, callbacksAt, refs, ref_setObject found signals, arrays]

end Subscribed

variable [DecidableEq κ]

omit [DecidableEq κ] in
theorem callbacksAt_of_found {s : State κ ν} {name : String} {o : QObject ν} (found : s.objects name = some o) (i : Nat) :
    callbacksAt s name i = connected s o i := by rw [callbacksAt, ref, found, Option.bind_some, connected]

omit [DecidableEq κ] in
/-- The first callback connects the client at the host. -/
theorem connect_out (s : State κ ν) (name : String) (o : QObject ν) (signalName : String) (h : Handle) (f : κ) :
    (connect s name o signalName h f).2 = .connected name h.index f ::
      if h.isPropertyNotifySignal = true ∨ isDestroyed signalName = true then []
      else if (connected s o h.index).isEmpty = true then [.sent (.connectToSignal name h.index)] else [] := by
  have first (fs : List κ) : (fs ++ [f]).length = 1 ↔ fs.isEmpty = true := by
    rw [List.length_append, List.length_singleton, List.isEmpty_iff, ← List.length_eq_zero_iff]
    omega
  unfold connect callbacksOf connected
  cases o.objectSignals h.index with
  | none => simp
  | some array => exact congrArg _ (if_congr Iff.rfl rfl (if_congr (first _) rfl rfl))

omit [DecidableEq κ] in
theorem connect_objects (s : State κ ν) (name : String) (o : QObject ν) (signalName : String) (h : Handle) (f : κ) :
    ∃ o' : QObject ν, (connect s name o signalName h f).1.objects = Function.update s.objects name (some o') ∧
      o'.handles = o.handles := by
  unfold connect callbacksOf
  cases o.objectSignals h.index with
  | none => exact ⟨_, rfl, rfl⟩
  | some array => exact ⟨_, rfl, rfl⟩

theorem callbacksAt_connect {s : State κ ν} {name : String} {o : QObject ν} (found : s.objects name = some o)
    (signalName : String) (h : Handle) (f : κ) (heap : Heap s) (n : String) (i : Nat) :
    callbacksAt (connect s name o signalName h f).1 n i =
      if name = n ∧ h.index = i then callbacksAt s n i ++ [f] else callbacksAt s n i := by
  rw [← (heapMove_connect found signalName h f).replays heap, connect_out, List.foldl_cons, replay_of_steady]
  · rfl
  · intro a member
    split at member
    · cases member
    · split at member
      · obtain rfl := List.mem_singleton.mp member
        trivial
      · cases member

theorem callbacksAt_disconnect {s : State κ ν} {name : String} {o : QObject ν} (found : s.objects name = some o)
    (h : Handle) (f : κ) (heap : Heap s) (n : String) (i : Nat) :
    callbacksAt (disconnect s name o h f).1 n i =
      if name = n ∧ h.index = i then (callbacksAt s n i).filter (· ≠ f) else callbacksAt s n i := by
  rw [← (heapMove_disconnect found h f).replays heap]
  unfold disconnect
  rw [List.foldl_cons, replay_of_steady]
  · rfl
  · intro a member
    split at member
    · obtain rfl := List.mem_singleton.mp member
      trivial
    · cases member

namespace Subscribed

variable {s t : State κ ν} {log out : List (Action κ ν)}

omit [DecidableEq κ] in
/-- The callbacks of one object change. -/
theorem changes (subscribed' : Subscribed s log) {name : String} {o o' : QObject ν} (found : s.objects name = some o)
    (objects : t.objects = Function.update s.objects name (some o')) (handles : o'.handles = o.handles)
    (agrees : ∀ {n p i}, s.objects n = some p → Connectable p i →
      out.foldl (subscriptions n i) (if (callbacksAt s n i).isEmpty then 0 else 1) =
        if (callbacksAt t n i).isEmpty then 0 else 1)
    (others : ∀ n i, name ≠ n → out.foldl (subscriptions n i) 0 = 0) : Subscribed t (log ++ out) where
  absent n i none := by
    rw [objects, Function.update_apply] at none
    split at none
    · cases none
    · rename_i other
      rw [List.foldl_append, subscribed'.absent n i none]
      exact others n i (Ne.symm other)
  agrees {n p i} there connectable := by
    obtain ⟨before, known, same⟩ : ∃ before, s.objects n = some before ∧ before.handles = p.handles := by
      rw [objects, Function.update_apply] at there
      split at there
      · rename_i here
        obtain rfl := Option.some.inj there
        exact ⟨o, here ▸ found, handles.symm⟩
      · exact ⟨p, there, rfl⟩
    have still : Connectable before i := fun name h => same ▸ connectable name h
    rw [List.foldl_append, subscribed'.agrees known still]
    exact agrees known still

theorem connects (subscribed' : Subscribed s log) (heap : Heap s) {name signalName : String} {o : QObject ν} {h : Handle}
    (found : s.objects name = some o) (handle : o.handles signalName = some h) (f : κ) :
    Subscribed (connect s name o signalName h f).1 (log ++ (connect s name o signalName h f).2) := by
  have replay (n : String) (i count : Nat) : (connect s name o signalName h f).2.foldl (subscriptions n i) count =
      if (name = n ∧ h.index = i) ∧ ¬(h.isPropertyNotifySignal = true ∨ isDestroyed signalName = true) ∧
        (connected s o h.index).isEmpty = true then count + 1 else count := by
    rw [connect_out, List.foldl_cons]
    by_cases silent : h.isPropertyNotifySignal = true ∨ isDestroyed signalName = true
    · rw [if_pos silent, if_neg fun all => all.2.1 silent]
      rfl
    · rw [if_neg silent]
      by_cases first : (connected s o h.index).isEmpty = true
      · rw [if_pos first]
        change (if name = n ∧ h.index = i then count + 1 else count) = _
        exact if_congr (and_iff_left ⟨silent, first⟩).symm rfl rfl
      · rw [if_neg first, if_neg fun all => first all.2.2]
        rfl
  obtain ⟨o', objects, handles⟩ := connect_objects s name o signalName h f
  refine subscribed'.changes found objects handles ?_ fun n i absent => ?_
  · intro n p i there connectable
    rw [replay, callbacksAt_connect found signalName h f heap]
    by_cases here : name = n ∧ h.index = i
    · obtain ⟨rfl, rfl⟩ := here
      obtain rfl := Option.some.inj (found.symm.trans there)
      obtain ⟨pure, kept⟩ := connectable signalName h handle rfl
      have own : name = name ∧ h.index = h.index := ⟨rfl, rfl⟩
      rw [if_pos own, ← callbacksAt_of_found found]
      cases listed : callbacksAt s name h.index with
      | nil => simp [pure, kept]
      | cons g gs => simp
    · rw [if_neg fun all => here all.1, if_neg here]
  · rw [replay, if_neg fun all => absent all.1.1]

theorem disconnects (subscribed' : Subscribed s log) (heap : Heap s) {name signalName : String} {o : QObject ν} {h : Handle}
    (found : s.objects name = some o) (handle : o.handles signalName = some h) (f : κ) :
    Subscribed (disconnect s name o h f).1 (log ++ (disconnect s name o h f).2) := by
  have replay (n : String) (i count : Nat) : (disconnect s name o h f).2.foldl (subscriptions n i) count =
      if (name = n ∧ h.index = i) ∧ h.isPropertyNotifySignal = false ∧
        ((connected s o h.index).filter (· ≠ f)).length = 0 then count - 1 else count := by
    unfold disconnect
    rw [List.foldl_cons]
    by_cases sends : h.isPropertyNotifySignal = false ∧ ((connected s o h.index).filter (· ≠ f)).length = 0
    · rw [if_pos sends]
      change (if name = n ∧ h.index = i then count - 1 else count) = _
      exact if_congr (and_iff_left sends).symm rfl rfl
    · rw [if_neg sends, if_neg fun all => sends all.2]
      rfl
  refine subscribed'.changes found rfl rfl ?_ fun n i absent => ?_
  · intro n p i there connectable
    rw [replay, callbacksAt_disconnect found h f heap]
    by_cases here : name = n ∧ h.index = i
    · obtain ⟨rfl, rfl⟩ := here
      obtain rfl := Option.some.inj (found.symm.trans there)
      obtain ⟨pure, _⟩ := connectable signalName h handle rfl
      have own : name = name ∧ h.index = h.index := ⟨rfl, rfl⟩
      rw [if_pos own, ← callbacksAt_of_found found]
      cases left : (callbacksAt s name h.index).filter (· ≠ f) with
      | nil =>
        rw [if_pos ⟨own, pure, rfl⟩]
        cases callbacksAt s name h.index <;> rfl
      | cons g gs =>
        have before : callbacksAt s name h.index ≠ [] := by
          rintro empty
          rw [empty] at left
          cases left
        simp [before]
    · rw [if_neg fun all => here all.1, if_neg here]
  · rw [replay, if_neg fun all => absent all.1.1]

end Subscribed

variable {objects : ν → Option (List (String × ObjectData ν))}

omit [DecidableEq κ] in
/-- The objects that the host describes have no callbacks yet. -/
theorem Subscribed.creates {s t : State κ ν} {log out : List (Action κ ν)} (subscribed' : Subscribed s log)
    (before : s.objects = fun _ => none) (entries : List (String × ObjectData ν))
    (made : t.objects = entries.foldl addObject s.objects) (quiet : ∀ a ∈ out, a.Unsubscribing) : Subscribed t (log ++ out) := by
  have never (n : String) (i : Nat) : (log ++ out).foldl (subscriptions n i) 0 = 0 := by
    rw [List.foldl_append, subscriptions_of_quiet quiet]
    exact subscribed'.absent n i (by rw [before])
  refine ⟨fun n i _ => never n i, fun {n p i} _ _ => ?_⟩
  have empty : ref t n i = none := by
    rw [ref_addObjects made, ref, before]
    exact ite_self _
  rw [never, callbacksAt, empty]
  rfl

theorem Subscribed.step {s t : State κ ν} {e : Event κ ν} {log out : List (Action κ ν)} (subscribed' : Subscribed s log)
    (heap : Heap s) (once : InitOnce s e) (run : step objects s e = some (t, out)) : Subscribed t (log ++ out) := by
  cases clientMove_of_step run with
  | constructs initCallback _ => exact subscribed'.same rfl rfl (by simp [exec, Action.Unsubscribing])
  | ignores => exact subscribed'.same rfl rfl (by simp)
  | unknown | breaks | replies | emits | calls | ends | idles | fails | debugs =>
    exact subscribed'.same rfl rfl (by simp [Action.Unsubscribing])
  | @initializes id initCallback data entries _ _ entry _ =>
    refine subscribed'.creates (once initCallback entry) entries rfl ?_
    rw [List.forall_mem_cons, List.forall_mem_append]
    refine ⟨trivial, fun a member => ?_, fun a member => ?_⟩
    · obtain ⟨_, _, rfl⟩ := List.mem_map.mp member
      trivial
    · obtain ⟨_, _, rfl⟩ := List.mem_map.mp member
      trivial
  | settles data _ _ promised =>
    refine subscribed'.same rfl rfl ?_
    rcases promised with rfl | ⟨v, rfl⟩ | rfl <;> simp [Action.Unsubscribing]
  | updates | skips | moves | forgets | finishes => exact subscribed'.same rfl rfl (by simp)
  | caches _ found => exact subscribed'.cached found rfl rfl rfl rfl (by simp)
  | connects f found handle => exact subscribed'.connects heap found handle f
  | disconnects f found handle => exact subscribed'.disconnects heap found handle f
  | invokes => exact subscribed'.same rfl rfl (by simp [exec, Action.Unsubscribing])
  | sets v found _ => exact subscribed'.cached found rfl rfl rfl rfl (by simp [Action.Unsubscribing])

/-- In every run in which the host describes its objects once: the messages
sent leave the client connected to a signal once if the page's connecting and
disconnecting leaves a callback, and else not at all. -/
theorem subscriptions_agree {s : State κ ν} {log : List (Action κ ν)} (reach : (client objects).Reach InitOnce s log)
    {object : String} {o : QObject ν} {signal : Nat} (found : s.objects object = some o) (connectable : Connectable o signal) :
    log.foldl (subscriptions object signal) 0 = if (log.foldl (connections object signal) []).isEmpty then 0 else 1 := by
  have kept : Followed s log ∧ Subscribed s log :=
    reach.invariant (P := fun s log => Followed s log ∧ Subscribed s log) ⟨.start, .start⟩
      fun _ _ _ _ _ before once run => ⟨before.1.step run, before.2.step before.1.heap once run⟩
  rw [kept.2.agrees found connectable, kept.1.connected]

/-- A page that connects two callbacks and disconnects one of them twice. -/
def leaving : List (Event Nat Nat) :=
  [.construct none, .receive (.response (some 0) (some 0)), .proceed, .proceed, .connect "receiver" "answer" 8,
    .connect "receiver" "answer" 9, .disconnect "receiver" "answer" 8, .disconnect "receiver" "answer" 8]

theorem subscriptions_agree_leaving : ∃ log : List (Action Nat Nat),
    log.foldl (connections "receiver" 4) [] = [9] ∧
      log.foldl (subscriptions "receiver" 4) 0 = if (log.foldl (connections "receiver" 4) []).isEmpty then 0 else 1 := by
  have once : (client oneObject).Meets InitOnce (client oneObject).init leaving :=
    ⟨trivial, fun _ _ => rfl, trivial, trivial, trivial, trivial, trivial, trivial, trivial⟩
  have run : (client oneObject).Reach InitOnce _ _ := Reach.ofExec InitOnce leaving rfl once
  have connectable : Connectable (newQObject receiverData) 4 := by
    intro name h handle _
    simp only [newQObject, receiverData, List.foldl, addSignal, addMethod, Function.update_apply] at handle
    split at handle
    · rename_i same
      cases handle
      exact ⟨rfl, same ▸ by decide⟩
    · cases handle
  exact ⟨_, rfl, subscriptions_agree run rfl connectable⟩

end WebRtcDemo.Channel
