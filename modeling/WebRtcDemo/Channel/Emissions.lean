import WebRtcDemo.Channel.Client

/-! A signal calls the callbacks that are connected when it arrives, whatever
these do to the connections. The arrays of callbacks are shared with emissions
under way: `connect` pushes onto them, `disconnect` leaves them to the emission. -/

namespace WebRtcDemo.Channel

open Machine

variable {κ ν : Type} [DecidableEq κ]

/-- The callbacks that a history leaves connected to a signal. -/
def connections (object : String) (signal : Nat) : List κ → Action κ ν → List κ
  | fs, .created o => if o = object then [] else fs
  | fs, .connected o i f => if o = object ∧ i = signal then fs ++ [f] else fs
  | fs, .disconnected o i f => if o = object ∧ i = signal then fs.filter (· ≠ f) else fs
  | fs, _ => fs

/-- The calls that the emission under way still has to make. -/
def emission : Option (List κ × List ν) → Action κ ν → Option (List κ × List ν)
  | _, .emitting _ _ callbacks args => some (callbacks, args)
  | some (_ :: fs, args), .called _ _ => some (fs, args)
  | _, .emitted => none
  | _, .failed _ => none
  | before, _ => before

/-- An emission begins with the callbacks that the history left connected, it
calls them in their order with its arguments, and it ends after the last of
them. Any other call gives a method's answer to the function that it is for. -/
def EmissionAdmits (past : List (Action κ ν)) : Action κ ν → Prop
  | .emitting object signal callbacks _ =>
    callbacks = past.foldl (connections object signal) [] ∧ past.foldl emission none = none
  | .called f args =>
    (∃ fs, past.foldl emission none = some (f :: fs, args)) ∨
      past.foldl emission none = none ∧
        ∃ earlier id v, past = earlier ++ [.answered id (.callback f) (some v)] ∧ args = [v]
  | .emitted => ∃ args, past.foldl emission none = some ([], args)
  | _ => True

/-- The array that a signal refers to. -/
def ref (s : State κ ν) (object : String) (signal : Nat) : Option Nat :=
  (s.objects object).bind fun o => o.objectSignals signal

/-- The callbacks that a signal has. -/
def callbacksAt (s : State κ ν) (object : String) (signal : Nat) : List κ := (ref s object signal).elim [] s.arrays

/-- The arrays that signals refer to exist, and each belongs to one signal. -/
structure Heap (s : State κ ν) : Prop where
  bounded : ∀ {object signal array}, ref s object signal = some array → array < s.nextArray
  separate : ∀ {object signal other index array}, ref s object signal = some array → ref s other index = some array →
    other = object ∧ index = signal

/-- What a step does to the arrays of callbacks. -/
inductive HeapMove (s t : State κ ν) (out : List (Action κ ν)) : Prop
  | creates (names : List String) (refs : ∀ n i, ref t n i = if n ∈ names then none else ref s n i)
    (arrays : t.arrays = s.arrays) (next : t.nextArray = s.nextArray)
    (replay : ∀ n i fs, out.foldl (connections n i) fs = if n ∈ names then [] else fs)
  | puts (object : String) (signal array : Nat) (change : List κ → List κ)
    (refs : ∀ n i, ref t n i = if n = object ∧ i = signal then some array else ref s n i)
    (arrays : t.arrays = Function.update s.arrays array (change (callbacksAt s object signal)))
    (place : (ref s object signal = some array ∧ t.nextArray = s.nextArray ∧ ∀ fs, fs <+: change fs) ∨
      (array = s.nextArray ∧ t.nextArray = s.nextArray + 1))
    (replay : ∀ n i fs, out.foldl (connections n i) fs = if n = object ∧ i = signal then change fs else fs)
  | rests (refs : ∀ n i, ref t n i = ref s n i) (arrays : t.arrays = s.arrays) (next : t.nextArray = s.nextArray)
    (replay : ∀ n i fs, out.foldl (connections n i) fs = fs)

namespace HeapMove

variable {s t : State κ ν} {out : List (Action κ ν)}

theorem heap (move : HeapMove s t out) (heap : Heap s) : Heap t := by
  cases move with
  | creates names refs _ next _ =>
    have old {n i a} (found : ref t n i = some a) : ref s n i = some a := by
      rw [refs] at found
      split at found
      · cases found
      · exact found
    exact ⟨fun found => next ▸ heap.bounded (old found), fun found again => heap.separate (old found) (old again)⟩
  | puts object signal array change refs _ place _ =>
    have here {n i a} (found : ref t n i = some a) : (n = object ∧ i = signal) ∧ a = array ∨ ref s n i = some a := by
      rw [refs] at found
      split at found
      · rename_i same
        exact .inl ⟨same, (Option.some.inj found).symm⟩
      · exact .inr found
    -- the array is the signal's own, or nobody's
    have own {n i} (found : ref s n i = some array) : n = object ∧ i = signal := by
      rcases place with ⟨kept, _⟩ | ⟨rfl, _⟩
      · exact heap.separate kept found
      · exact absurd (heap.bounded found) (Nat.lt_irrefl _)
    constructor
    · intro n i a found
      rcases place with ⟨kept, next, _⟩ | ⟨rfl, next⟩
      · rcases here found with ⟨_, rfl⟩ | old
        · exact next ▸ heap.bounded kept
        · exact next ▸ heap.bounded old
      · rcases here found with ⟨_, rfl⟩ | old
        · omega
        · have := heap.bounded old
          omega
    · intro n i m j a found again
      rcases here found with ⟨⟨rfl, rfl⟩, rfl⟩ | old
      · rcases here again with ⟨same, _⟩ | other
        · exact same
        · exact own other
      · rcases here again with ⟨⟨rfl, rfl⟩, rfl⟩ | other
        · obtain ⟨rfl, rfl⟩ := own old
          exact ⟨rfl, rfl⟩
        · exact heap.separate old other
  | rests refs _ next _ =>
    exact ⟨fun found => next ▸ heap.bounded (refs _ _ ▸ found),
      fun found again => heap.separate (refs _ _ ▸ found) (refs _ _ ▸ again)⟩

/-- The history tells the callbacks of every signal. -/
theorem replays (move : HeapMove s t out) (heap : Heap s) (n : String) (i : Nat) :
    out.foldl (connections n i) (callbacksAt s n i) = callbacksAt t n i := by
  cases move with
  | creates names refs arrays _ replay =>
    rw [replay]
    unfold callbacksAt
    rw [refs, arrays]
    split <;> rfl
  | puts object signal array change refs arrays place replay =>
    rw [replay]
    by_cases here : n = object ∧ i = signal
    · obtain ⟨rfl, rfl⟩ := here
      have now : ref t n i = some array := by rw [refs, if_pos ⟨rfl, rfl⟩]
      rw [if_pos ⟨rfl, rfl⟩, callbacksAt.eq_def t, now, arrays, Option.elim_some, Function.update_self]
    · rw [if_neg here, callbacksAt.eq_def t, refs, if_neg here, arrays]
      unfold callbacksAt
      cases found : ref s n i with
      | none => rfl
      | some a =>
        have other : a ≠ array := by
          rintro rfl
          rcases place with ⟨kept, _⟩ | ⟨rfl, _⟩
          · exact here (heap.separate kept found)
          · exact absurd (heap.bounded found) (Nat.lt_irrefl _)
        rw [Option.elim_some, Option.elim_some, Function.update_of_ne other]
  | rests refs arrays _ replay =>
    rw [replay]
    unfold callbacksAt
    rw [refs, arrays]

/-- An array that exists keeps what it holds; at most it grows. -/
theorem keeps (move : HeapMove s t out) {a : Nat} (present : a < s.nextArray) :
    a < t.nextArray ∧ s.arrays a <+: t.arrays a := by
  cases move with
  | creates _ _ arrays next _ => exact ⟨next ▸ present, by rw [arrays]⟩
  | puts object signal array change _ arrays place _ =>
    rcases place with ⟨kept, next, grows⟩ | ⟨rfl, next⟩
    · refine ⟨next ▸ present, ?_⟩
      rw [arrays]
      by_cases here : a = array
      · subst here
        rw [Function.update_self, callbacksAt, kept]
        exact grows _
      · rw [Function.update_of_ne here]
    · refine ⟨by omega, ?_⟩
      rw [arrays, Function.update_of_ne present.ne]
  | rests _ arrays next _ => exact ⟨next ▸ present, by rw [arrays]⟩

end HeapMove

omit [DecidableEq κ] in
theorem ref_setObject {s : State κ ν} {name : String} {o o' : QObject ν} (found : s.objects name = some o)
    (same : o'.objectSignals = o.objectSignals) (n : String) (i : Nat) : ref (setObject s name o') n i = ref s n i := by
  rw [ref, ref, setObject_objects]
  by_cases here : n = name
  · subst here
    rw [Function.update_self, found, Option.bind_some, Option.bind_some, same]
  · rw [Function.update_of_ne here]

theorem newQObject_objectSignals (data : ObjectData ν) (i : Nat) : (newQObject data).objectSignals i = none := by
  have adds {α : Type} (add : QObject ν → α → QObject ν) (same : ∀ o a, (add o a).objectSignals = o.objectSignals)
      (o : QObject ν) (rest : List α) : (rest.foldl add o).objectSignals = o.objectSignals := by
    induction rest generalizing o with
    | nil => rfl
    | cons a rest ih => rw [List.foldl_cons, ih, same]
  have bound (o : QObject ν) (info : PropertyData ν) : (bindGetterSetter o info).objectSignals = o.objectSignals := by
    unfold bindGetterSetter
    cases info.notify with
    | none => rfl
    | some notify => cases notify <;> rfl
  simp only [newQObject]
  have signals := adds (fun o (signal : String × Nat) => addSignal o signal.1 signal.2 false) fun _ _ => rfl
  rw [signals, adds bindGetterSetter bound, adds addMethod fun _ _ => rfl]

omit [DecidableEq κ] in
theorem ref_addObjects {s t : State κ ν} {entries : List (String × ObjectData ν)}
    (objects : t.objects = entries.foldl addObject s.objects) (n : String) (i : Nat) :
    ref t n i = if n ∈ entries.map Prod.fst then none else ref s n i := by
  unfold ref
  rw [objects]
  clear objects
  generalize s.objects = before
  induction entries generalizing before with
  | nil => rfl
  | cons entry entries ih =>
    rw [List.foldl_cons, ih, List.map_cons]
    by_cases later : n ∈ entries.map Prod.fst
    · rw [if_pos later, if_pos (List.mem_cons_of_mem _ later)]
    · rw [if_neg later]
      by_cases here : n = entry.1
      · subst here
        rw [if_pos List.mem_cons_self, addObject, Function.update_self, Option.bind_some, newQObject_objectSignals]
      · rw [if_neg (by simp [here, later]), addObject, Function.update_of_ne here]

theorem replay_created (entries : List (String × ObjectData ν)) (n : String) (i : Nat) (fs : List κ) :
    (entries.map fun entry => (Action.created entry.1 : Action κ ν)).foldl (connections n i) fs =
      if n ∈ entries.map Prod.fst then [] else fs := by
  induction entries generalizing fs with
  | nil => rfl
  | cons entry entries ih =>
    rw [List.map_cons, List.foldl_cons, ih, List.map_cons]
    by_cases later : n ∈ entries.map Prod.fst
    · rw [if_pos later, if_pos (List.mem_cons_of_mem _ later)]
    · rw [if_neg later]
      by_cases here : entry.1 = n
      · rw [if_pos (here ▸ List.mem_cons_self)]
        exact if_pos here
      · rw [if_neg (by simp [later, Ne.symm here])]
        exact if_neg here

/-- Outputs that tell of no change of the connections. -/
def Action.Steady : Action κ ν → Prop
  | .created _ => False
  | .connected _ _ _ => False
  | .disconnected _ _ _ => False
  | _ => True

theorem replay_of_steady {out : List (Action κ ν)} (steady : ∀ a ∈ out, a.Steady) (n : String) (i : Nat) (fs : List κ) :
    out.foldl (connections n i) fs = fs := by
  induction out with
  | nil => rfl
  | cons a out ih =>
    have here := steady a List.mem_cons_self
    have rest := ih fun b member => steady b (List.mem_cons_of_mem _ member)
    cases a with
    | created | connected | disconnected => exact here.elim
    | _ => exact rest

theorem HeapMove.steady {s t : State κ ν} {out : List (Action κ ν)} (refs : ∀ n i, ref t n i = ref s n i)
    (arrays : t.arrays = s.arrays) (next : t.nextArray = s.nextArray) (steady : ∀ a ∈ out, a.Steady) : HeapMove s t out :=
  .rests refs arrays next fun n i fs => replay_of_steady steady n i fs

omit [DecidableEq κ] in
theorem ref_update {s : State κ ν} {name : String} {o : QObject ν} {index array : Nat} (found : s.objects name = some o)
    (n : String) (i : Nat) :
    ref (setObject s name { o with objectSignals := Function.update o.objectSignals index (some array) }) n i =
      if n = name ∧ i = index then some array else ref s n i := by
  rw [ref, ref, setObject_objects]
  by_cases here : n = name
  · subst here
    rw [Function.update_self, found, Option.bind_some, Option.bind_some]
    by_cases same : i = index
    · subst same
      rw [if_pos ⟨rfl, rfl⟩]
      exact Function.update_self ..
    · rw [if_neg fun both => same both.2]
      exact Function.update_of_ne same ..
  · rw [if_neg fun both => here both.1, Function.update_of_ne here]

theorem heapMove_connect {s : State κ ν} {name : String} {o : QObject ν} (found : s.objects name = some o)
    (signalName : String) (h : Handle) (f : κ) :
    HeapMove s (connect s name o signalName h f).1 (connect s name o signalName h f).2 := by
  have here : ref s name h.index = o.objectSignals h.index := by rw [ref, found, Option.bind_some]
  have replay (n i fs) : (connect s name o signalName h f).2.foldl (connections n i) fs =
      if n = name ∧ i = h.index then fs ++ [f] else fs := by
    unfold connect
    rw [List.foldl_cons, replay_of_steady]
    · simp only [connections, eq_comm]
    · intro a member
      split at member
      · cases member
      · split at member
        · obtain rfl := List.mem_singleton.mp member
          trivial
        · cases member
  unfold connect callbacksOf at replay ⊢
  cases listed : o.objectSignals h.index with
  | some array =>
    rw [listed] at here replay
    refine .puts name h.index array (· ++ [f]) (fun n i => ref_update found n i) ?_ (.inl ⟨here, rfl, fun fs => ⟨[f], rfl⟩⟩) replay
    rw [callbacksAt, here]
    rfl
  | none =>
    rw [listed] at here replay
    refine .puts name h.index s.nextArray (· ++ [f]) (fun n i => ref_update found n i) ?_ (.inr ⟨rfl, rfl⟩) replay
    rw [callbacksAt, here]
    simp [setObject]

theorem heapMove_disconnect {s : State κ ν} {name : String} {o : QObject ν} (found : s.objects name = some o)
    (h : Handle) (f : κ) : HeapMove s (disconnect s name o h f).1 (disconnect s name o h f).2 := by
  refine .puts name h.index s.nextArray (List.filter (· ≠ f)) (fun n i => ref_update found n i) ?_ (.inr ⟨rfl, rfl⟩) ?_
  · rw [callbacksAt, ref, found, Option.bind_some]
    rfl
  · intro n i fs
    unfold disconnect
    rw [List.foldl_cons, replay_of_steady]
    · simp only [connections, eq_comm]
    · intro a member
      split at member
      · obtain rfl := List.mem_singleton.mp member
        trivial
      · cases member

variable {objects : ν → Option (List (String × ObjectData ν))}

theorem heapMove_of_step {s t : State κ ν} {e : Event κ ν} {out : List (Action κ ν)}
    (run : step objects s e = some (t, out)) : HeapMove s t out := by
  cases clientMove_of_step run with
  | constructs initCallback _ => exact .steady (fun _ _ => rfl) rfl rfl (by simp [exec, Action.Steady])
  | ignores => exact .steady (fun _ _ => rfl) rfl rfl (by simp)
  | unknown => exact .steady (fun _ _ => rfl) rfl rfl (by simp [Action.Steady])
  | breaks => exact .steady (fun _ _ => rfl) rfl rfl (by simp [Action.Steady])
  | @initializes id initCallback data entries =>
    refine .creates (entries.map Prod.fst) (ref_addObjects rfl) rfl rfl fun n i fs => ?_
    have steady : ∀ a ∈ initCallback.toList.map .initialized, (a : Action κ ν).Steady := by
      intro a member
      obtain ⟨_, _, rfl⟩ := List.mem_map.mp member
      trivial
    rw [List.foldl_cons, List.foldl_append, replay_of_steady steady]
    exact replay_created entries n i fs
  | replies | calls | ends | idles | fails | debugs =>
    exact .steady (fun _ _ => rfl) rfl rfl (by simp [Action.Steady])
  | settles data _ _ promised =>
    refine .steady (fun _ _ => rfl) rfl rfl ?_
    rcases promised with rfl | ⟨v, rfl⟩ | rfl <;> simp [Action.Steady]
  | updates | skips | moves | forgets | finishes => exact .steady (fun _ _ => rfl) rfl rfl (by simp)
  | emits => exact .steady (fun _ _ => rfl) rfl rfl (by simp [Action.Steady])
  | caches _ found => exact .steady (ref_setObject found rfl) rfl rfl (by simp)
  | connects f found _ => exact heapMove_connect found _ _ f
  | disconnects f found _ => exact heapMove_disconnect found _ f
  | invokes => exact .steady (fun _ _ => rfl) rfl rfl (by simp [exec, Action.Steady])
  | sets v found _ => exact .steady (ref_setObject found rfl) rfl rfl (by simp [Action.Steady])

/-! An emission under way is the topmost of what is left to do. -/

def Frame.IsForEach : Frame ν → Prop
  | .forEach _ _ _ _ => True
  | _ => False

def Bare (stack : List (Frame ν)) : Prop := ∀ frame ∈ stack, ¬frame.IsForEach

/-- The calls that are left according to the stack. -/
def pendingCalls (s : State κ ν) : Option (List κ × List ν) :=
  match s.stack with
  | .forEach array next length args :: _ => some (((s.arrays array).take length).drop next, args)
  | _ => none

omit [DecidableEq κ] in
theorem pendingCalls_of_bare {s : State κ ν} (bare : Bare s.stack) : pendingCalls s = none := by
  unfold pendingCalls
  split
  · rename_i here
    exact (bare (.forEach _ _ _ _) (here ▸ List.mem_cons_self) trivial).elim
  · rfl

omit [DecidableEq κ] in
theorem pendingCalls_of_stack {s : State κ ν} {array next length : Nat} {args : List ν} {rest : List (Frame ν)}
    (here : s.stack = .forEach array next length args :: rest) :
    pendingCalls s = some (((s.arrays array).take length).drop next, args) := by
  rw [pendingCalls, here]

/-- The array of an emission under way exists, and still has the callbacks with
which the emission began. -/
structure Emitting (s : State κ ν) : Prop where
  under : Bare s.stack.tail
  inside : ∀ {array next length args rest}, s.stack = .forEach array next length args :: rest →
    array < s.nextArray ∧ length ≤ (s.arrays array).length

structure Followed (s : State κ ν) (log : List (Action κ ν)) : Prop where
  heap : Heap s
  emitting : Emitting s
  connected : ∀ n i, log.foldl (connections n i) [] = callbacksAt s n i
  remaining : log.foldl emission none = pendingCalls s

theorem Followed.start : Followed (initial : State κ ν) [] where
  heap := ⟨by simp [ref, initial], by simp [ref, initial]⟩
  emitting := ⟨by simp [Bare, initial], by simp [initial]⟩
  connected := by simp [callbacksAt, ref, initial]
  remaining := rfl

/-- Outputs that neither begin an emission nor belong to one. -/
def Action.Silent : Action κ ν → Prop
  | .emitting _ _ _ _ => False
  | .called _ _ => False
  | .emitted => False
  | .failed _ => False
  | _ => True

omit [DecidableEq κ] in
theorem emission_of_silent {out : List (Action κ ν)} (silent : ∀ a ∈ out, a.Silent) (before : Option (List κ × List ν)) :
    out.foldl emission before = before := by
  induction out with
  | nil => rfl
  | cons a out ih =>
    have here := silent a List.mem_cons_self
    have rest := ih fun b member => silent b (List.mem_cons_of_mem _ member)
    cases a with
    | emitting | called | emitted | failed => exact here.elim
    | _ => rcases before with _ | ⟨_ | _, _⟩ <;> exact rest

theorem admits_of_silent {out : List (Action κ ν)} (silent : ∀ a ∈ out, a.Silent) (a : Action κ ν) (member : a ∈ out)
    (past : List (Action κ ν)) : EmissionAdmits past a := by
  have here := silent a member
  cases a with
  | emitting | called | emitted | failed => exact here.elim
  | _ => trivial

omit [DecidableEq κ] in
theorem Emitting.of_bare {s : State κ ν} (bare : Bare s.stack) : Emitting s where
  under := fun frame inside => bare frame (List.mem_of_mem_tail inside)
  inside := fun {array next length args _} here =>
    (bare (.forEach array next length args) (here ▸ List.mem_cons_self) trivial).elim

/-- What a step does to the emission under way. -/
structure Carries (s t : State κ ν) (log out : List (Action κ ν)) : Prop where
  emitting : Emitting t
  remaining : out.foldl emission (pendingCalls s) = pendingCalls t
  admits : Throughout EmissionAdmits log out

namespace Followed

variable {s t : State κ ν} {log out : List (Action κ ν)}

/-- Nothing is called; the callbacks may change. -/
theorem stays (followed : Followed s log) (move : HeapMove s t out) (stack : t.stack = s.stack)
    (silent : ∀ a ∈ out, a.Silent) : Carries s t log out where
  emitting := by
    refine ⟨stack ▸ followed.emitting.under, fun {array next length args rest} here => ?_⟩
    obtain ⟨present, within⟩ := followed.emitting.inside (stack ▸ here)
    obtain ⟨still, grown⟩ := move.keeps present
    exact ⟨still, within.trans grown.length_le⟩
  remaining := by
    rw [emission_of_silent silent, pendingCalls, pendingCalls, stack]
    split
    · rename_i array next length args rest here
      obtain ⟨present, within⟩ := followed.emitting.inside here
      obtain ⟨more, grown⟩ := (move.keeps present).2
      rw [← grown, List.take_append_of_le_length within]
    · rfl
  admits := throughout_of_forall (admits_of_silent silent)

/-- What is left under the frame that runs holds no emission. -/
theorem bare_rest (followed : Followed s log) {frame : Frame ν} {rest : List (Frame ν)} (here : s.stack = frame :: rest) :
    Bare rest := by
  have under := followed.emitting.under
  rwa [here] at under

end Followed

section

variable {s t : State κ ν} {log out : List (Action κ ν)}

omit [DecidableEq κ] in
theorem bare_nil : Bare ([] : List (Frame ν)) := fun _ inside => by cases inside

omit [DecidableEq κ] in
theorem Bare.cons {frame : Frame ν} {rest : List (Frame ν)} (top : ¬frame.IsForEach) (bare : Bare rest) : Bare (frame :: rest) :=
  List.forall_mem_cons.mpr ⟨top, bare⟩

omit [DecidableEq κ] in
theorem Frame.Updates.not_forEach {frame : Frame ν} (update : frame.Updates) : ¬frame.IsForEach := by
  cases frame with
  | forEach => exact update.elim
  | _ => exact id

/-- No emission is under way, and none begins. -/
theorem Carries.turns (before : Bare s.stack) (after : Bare t.stack) (silent : ∀ a ∈ out, a.Silent) : Carries s t log out where
  emitting := .of_bare after
  remaining := by rw [emission_of_silent silent, pendingCalls_of_bare before, pendingCalls_of_bare after]
  admits := throughout_of_forall (admits_of_silent silent)

end

namespace Followed

variable {s t : State κ ν} {log out : List (Action κ ν)}

/-- A method's answer is given to its function. -/
theorem replies (followed : Followed s log) (empty : s.stack = []) (after : Bare t.stack) (id : Nat) (f : κ) (v : ν) :
    Carries s t log [.answered id (.callback f) (some v), .called f [v]] := by
  have none : pendingCalls s = none := pendingCalls_of_bare (empty ▸ bare_nil)
  have before : log.foldl emission Option.none = Option.none := followed.remaining.trans none
  refine ⟨.of_bare after, ?_, trivial, .inr ⟨?_, log, id, v, rfl, rfl⟩, trivial⟩
  · rw [none, pendingCalls_of_bare after]
    rfl
  · rw [List.foldl_append, before]
    rfl

theorem emits (followed : Followed s log) {object : String} {signal array : Nat} {rest : List (Frame ν)} (args : List ν)
    (here : ref s object signal = some array) (before : Bare s.stack) (bare : Bare rest) :
    Carries s { s with stack := .forEach array 0 (s.arrays array).length args :: rest } log
      [.emitting object signal (s.arrays array) args] := by
  have none : pendingCalls s = Option.none := pendingCalls_of_bare before
  refine ⟨⟨bare, ?_⟩, ?_, ⟨?_, followed.remaining.trans none⟩, trivial⟩
  · intro a n l as r same
    cases same
    exact ⟨followed.heap.bounded here, Nat.le_refl _⟩
  · have now : pendingCalls { s with stack := .forEach array 0 (s.arrays array).length args :: rest } =
        some (((s.arrays array).take (s.arrays array).length).drop 0, args) := pendingCalls_of_stack rfl
    rw [now, List.drop_zero, List.take_length]
    cases pendingCalls s <;> rfl
  · rw [followed.connected, callbacksAt, here]
    rfl

/-- The next callback of the emission is called. -/
theorem calls (followed : Followed s log) {array next length : Nat} {args : List ν} {rest : List (Frame ν)} {f : κ}
    (here : s.stack = .forEach array next length args :: rest) (more : next < length)
    (listed : (s.arrays array)[next]? = some f) :
    Carries s (call s (.forEach array (next + 1) length args :: rest)) log [.called f args] := by
  have inside := followed.emitting.inside here
  have left : pendingCalls s = some (f :: ((s.arrays array).take length).drop (next + 1), args) := by
    rw [pendingCalls_of_stack here]
    have at' : ((s.arrays array).take length)[next]? = some f := by rw [List.getElem?_take_of_lt more, listed]
    obtain ⟨bound, value⟩ := List.getElem?_eq_some_iff.mp at'
    rw [List.drop_eq_getElem_cons bound, value]
  refine ⟨⟨followed.bare_rest here, ?_⟩, ?_, .inl ⟨_, followed.remaining.trans left⟩, trivial⟩
  · intro a n l as r same
    cases same
    exact inside
  · rw [left]
    symm
    exact pendingCalls_of_stack rfl

theorem ends (followed : Followed s log) {array next length : Nat} {args : List ν} {rest : List (Frame ν)}
    (here : s.stack = .forEach array next length args :: rest) (done : ¬next < length) :
    Carries s { s with stack := rest } log [.emitted] := by
  have bare := followed.bare_rest here
  have left : pendingCalls s = some ([], args) := by
    rw [pendingCalls_of_stack here, List.drop_eq_nil_of_le]
    rw [List.length_take]
    omega
  refine ⟨.of_bare bare, ?_, ⟨args, followed.remaining.trans left⟩, trivial⟩
  rw [left, pendingCalls_of_bare bare]
  rfl

end Followed

variable {objects : ν → Option (List (String × ObjectData ν))}

theorem carries_of_step {s t : State κ ν} {e : Event κ ν} {log out : List (Action κ ν)} (followed : Followed s log)
    (run : step objects s e = some (t, out)) : Carries s t log out := by
  have move := heapMove_of_step run
  cases clientMove_of_step run with
  | constructs initCallback _ => exact followed.stays move rfl (by simp [exec, Action.Silent])
  | ignores => exact followed.stays move rfl (by simp)
  | unknown => exact followed.stays move rfl (by simp [Action.Silent])
  | breaks data empty _ =>
    have bare : Bare s.stack := empty ▸ bare_nil
    refine ⟨.of_bare bare, ?_, trivial, trivial, trivial, trivial⟩
    rw [pendingCalls_of_bare bare]
    rfl
  | initializes data _ empty _ _ =>
    refine .turns (empty ▸ bare_nil) (.cons id (.cons id bare_nil)) ?_
    rw [List.forall_mem_cons, List.forall_mem_append]
    refine ⟨trivial, fun a member => ?_, fun a member => ?_⟩
    · obtain ⟨_, _, rfl⟩ := List.mem_map.mp member
      trivial
    · obtain ⟨_, _, rfl⟩ := List.mem_map.mp member
      trivial
  | replies v empty _ => exact followed.replies empty (.cons id bare_nil) _ _ v
  | settles data empty _ promised =>
    refine .turns (empty ▸ bare_nil) (.cons id bare_nil) ?_
    rcases promised with rfl | ⟨v, rfl⟩ | rfl <;> simp [Action.Silent]
  | updates data empty => exact .turns (empty ▸ bare_nil) (.cons id (.cons id bare_nil)) (by simp)
  | @emits _ object o signal array rest args found here under =>
    have at' : ref s object signal = some array := by rw [ref, found, Option.bind_some, here]
    rcases under with ⟨empty, rfl⟩ | ⟨more, tail, top, rfl⟩
    · exact followed.emits args at' (empty ▸ bare_nil) bare_nil
    · have bare := followed.bare_rest top
      exact followed.emits args at' (top ▸ bare.cons id) (bare.cons id)
  | calls here more listed => exact followed.calls here more listed
  | skips here more missing =>
    have within := (followed.emitting.inside here).2
    exact absurd (List.getElem?_eq_none_iff.mp missing) (by omega)
  | ends here done => exact followed.ends here done
  | moves here update next =>
    have bare := followed.bare_rest here
    refine .turns (here ▸ bare.cons update.not_forEach) ?_ (by simp)
    rcases next with rfl | ⟨frame, again, rfl⟩
    · exact bare
    · exact bare.cons again.not_forEach
  | caches here found =>
    have bare := followed.bare_rest here
    exact .turns (here ▸ bare.cons id) ((bare.cons id).cons id) (by simp)
  | idles here => exact .turns (here ▸ (followed.bare_rest here).cons id) (followed.bare_rest here) (by simp [Action.Silent])
  | forgets here => exact .turns (here ▸ (followed.bare_rest here).cons id) (followed.bare_rest here) (by simp)
  | finishes _ => exact followed.stays move rfl (by simp)
  | fails _ =>
    refine ⟨.of_bare bare_nil, ?_, trivial, trivial⟩
    rcases pendingCalls s with _ | ⟨_ | _, _⟩ <;> rfl
  | connects f _ _ =>
    refine followed.stays move (connect_stack ..) fun a member => ?_
    rcases mem_connect member with rfl | rfl <;> trivial
  | disconnects f _ _ =>
    refine followed.stays move rfl fun a member => ?_
    rcases mem_disconnect member with rfl | rfl <;> trivial
  | invokes => exact followed.stays move rfl (by simp [exec, Action.Silent])
  | sets v _ _ => exact followed.stays move rfl (by simp [Action.Silent])
  | debugs data => exact followed.stays move rfl (by simp [Action.Silent])

theorem Followed.step {s t : State κ ν} {e : Event κ ν} {log out : List (Action κ ν)} (followed : Followed s log)
    (run : step objects s e = some (t, out)) : Followed t (log ++ out) := by
  have move := heapMove_of_step run
  have carries := carries_of_step followed run
  refine ⟨move.heap followed.heap, carries.emitting, fun n i => ?_, ?_⟩
  · rw [List.foldl_append, followed.connected, move.replays followed.heap]
  · rw [List.foldl_append, followed.remaining, carries.remaining]

theorem Followed.reach {ok : State κ ν → Event κ ν → Prop} {s : State κ ν} {log : List (Action κ ν)}
    (reach : (client objects).Reach ok s log) : Followed s log :=
  reach.invariant .start fun _ _ _ _ _ followed _ run => followed.step run

/-- A callback that disconnects the next one and connects another. -/
def changing : List (Event Nat Nat) :=
  [.construct none, .receive (.response (some 0) (some 0)), .proceed, .proceed, .connect "receiver" "answer" 8,
    .connect "receiver" "answer" 9, .receive (.signal "receiver" 4 [5]), .proceed, .disconnect "receiver" "answer" 9,
    .connect "receiver" "answer" 10, .finish, .proceed, .finish, .proceed]

end WebRtcDemo.Channel
