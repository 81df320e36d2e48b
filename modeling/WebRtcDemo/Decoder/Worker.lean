import WebRtcDemo.Decoder.Codec

namespace WebRtcDemo.Decoder

/-! The two threads of the decoder: the one that calls it and its worker. A
step is what a thread does while it holds `mu_`, or what it does alone
between two such places. -/

/-- An entry of `tasks_`. Accepted frames and the calls that wait for a job are numbered. -/
inductive Job
  | frame (ticket : Nat) (f : EncodedFrame)
  | configure (call : Nat)
  | destroy (call : Nat)
  deriving DecidableEq, Repr

/-- Where the worker thread is. -/
inductive Worker
  /-- not started, or joined -/
  | none
  /-- at the head of `WorkerLoop`, before the test of `running_` or in the wait -/
  | waiting
  | executing (job : Job)
  /-- in `ProcessOneFrame`, with this many calls of `DrainOutputs` to come -/
  | owing (ticket : Nat) (f : EncodedFrame) (drains : Nat)
  /-- in `DrainOutputs`, which has read `callback_` -/
  | draining (ticket : Nat) (f : EncodedFrame) (cb : Bool) (later : Nat)
  /-- the job has returned, the lock is not yet taken again -/
  | finished
  | exited
  deriving DecidableEq, Repr

/-- Where the calling thread is. -/
inductive Caller
  | idle
  /-- in `Configure`, with the worker started -/
  | configuring
  | configureWait (call : Nat)
  /-- in `Release`, with the callback cleared -/
  | releasing
  | releaseWait (call : Nat)
  /-- in `StopWorker`, with `running_` cleared -/
  | stopping
  deriving DecidableEq, Repr

/-- `codecId` tells which codec `codec_` points to while it is not null; `done`
are the calls whose future is ready. The counters number codecs, calls and
accepted frames. -/
structure Threads where
  impl : Impl
  codecId : Nat
  tasks_ : List Job
  running_ : Bool
  worker : Worker
  caller : Caller
  done : List Nat
  created : Nat
  calls : Nat
  accepted : Nat

/-- The results of the codec calls that feed one frame. -/
structure InputResponse where
  dequeueInput : Option Nat
  inputCap : Option Nat
  queueInputOk : Bool
  deriving DecidableEq, Repr

/-- The results of the calls of `ConfigureOnWorker`. -/
structure ConfigureResponse where
  createOk : Bool
  configureOk : Bool
  startOk : Bool
  format : Option OutputFormat
  deriving DecidableEq, Repr

/-- What the calling thread does. `Configure` and `Release` take several steps. -/
inductive CallerEvent
  | decode (f : EncodedFrame)
  | registerDecodeCompleteCallback (callback : Bool)
  | configure
  | configurePush
  | configureReturn
  | release
  | releasePush
  | releaseStop
  | releaseReturn
  deriving DecidableEq, Repr

inductive WorkerEvent
  | take
  | feed (r : InputResponse)
  | drain
  | drained (responses : List OutputResponse)
  | configureOnWorker (r : ConfigureResponse)
  | destroyCodec
  deriving DecidableEq, Repr

/-- A pooled frame may be destroyed by any thread. -/
inductive ThreadEvent
  | caller (e : CallerEvent)
  | worker (e : WorkerEvent)
  | destroyFrame (number : Nat)
  deriving DecidableEq, Repr

inductive Trace
  | accepted (ticket : Nat) (f : EncodedFrame)
  | rejected
  | configureCalled
  | configureReturned
  | releaseReturned
  | processed (ticket : Nat) (f : EncodedFrame)
  | queued (ticket : Nat) (bytes : Bytes)
  | codec (action : CodecAction)
  | created (codec : Nat)
  | deleted (codec : Nat)
  deriving DecidableEq, Repr

/-- `ProcessOneFrame` up to its first drain: the bytes the codec took, the
calls made, and how many drains follow. -/
def feedFrame (s : Impl) (frame : EncodedFrame) (r : InputResponse) : Impl × List Bytes × List CodecAction × Nat :=
  if s.codec = false ∨ frame.data = [] then (s, [], [], 0)
  else
    let feed := feedOf frame.data
    if feed = [] then (s, [], [], 0)
    else match r.dequeueInput with
      | none => (s, [], [.processing frame.metadata], 1)
      | some index =>
        let started := [.processing frame.metadata, .dequeueInputBuffer index]
        if tooSmall r.inputCap feed.length then (s, [], started ++ [.queueInputBuffer index 0 0 false true], 0)
        else
          let pts := s.nextInputPtsUs
          let s := { s with nextInputPtsUs := pts + 1 }
          if r.queueInputOk then
            (s, [feed], started ++ [.queueInputBuffer index feed.length pts frame.isKeyframe true], 2)
          else
            (s, [], started ++ [.queueInputBuffer index feed.length pts frame.isKeyframe false,
              .queueInputBuffer index 0 0 false true], 0)

/-- The drains that follow, when `callback_` does not change between them. -/
def drainAll (m : FrameMeta) (s : Impl) (script : CodecScript) : Nat → Impl × List CodecAction
  | 0 => (s, [])
  | 1 => ((drainOutputs m s script.drain0).1, (drainOutputs m s script.drain0).2.1)
  | _ => drainTwice m s script

/-- The two parts make up `ProcessOneFrame`. -/
theorem processOneFrame_eq_feedFrame (s : Impl) (frame : EncodedFrame) (script : CodecScript) :
    processOneFrame s frame script =
      let (t, _, out, drains) := feedFrame s frame ⟨script.dequeueInput, script.inputCap, script.queueInputOk⟩
      ((drainAll frame.metadata t script drains).1, out ++ (drainAll frame.metadata t script drains).2) := by
  unfold processOneFrame feedFrame
  split
  · rfl
  · dsimp only
    split
    · rfl
    · cases script.dequeueInput with
      | none => rfl
      | some index =>
        dsimp only
        split
        · simp [drainAll]
        · split
          · simp [drainAll]
          · simp [drainAll]

/-- `DestroyCodec` -/
def destroyCodec (s : Threads) : Threads × List Trace :=
  ({ s with impl :=
      { s.impl with
        codec := false, outWidth := 0, outHeight := 0, yStride := 0, sliceHeight := 0, colorFormat := 0,
        pool := clearPool s.impl.pool } },
    if s.impl.codec then [.deleted s.codecId] else [])

/-- `ConfigureOnWorker` -/
def configureOnWorker (s : Threads) (r : ConfigureResponse) : Threads × List Trace :=
  let (s, old) := destroyCodec s
  if r.createOk then
    let id := s.created
    let s := { s with created := id + 1, codecId := id }
    if r.configureOk ∧ r.startOk then
      let impl := refreshOutputFormat { s.impl with codec := true, nextInputPtsUs := 0 } r.format
      ({ s with impl := impl }, old ++ [.created id])
    else (s, old ++ [.created id, .deleted id])
  else (s, old)

/-- One pass of `WorkerLoop` with the lock held. Before the wait `running_`
is tested first; between two jobs only the queue is. -/
def takeJob (s : Threads) : Option Threads :=
  match s.worker with
  | .waiting =>
    if s.running_ then
      match s.tasks_ with
      | [] => none
      | job :: rest => some { s with worker := .executing job, tasks_ := rest }
    else some { s with worker := .exited }
  | .finished =>
    match s.tasks_ with
    | [] => some { s with worker := if s.running_ then .waiting else .exited }
    | job :: rest => some { s with worker := .executing job, tasks_ := rest }
  | _ => none

/-- The steps of the calling thread. -/
def callerStep (s : Threads) : CallerEvent → Option (Threads × List Trace)
  | .decode f =>
    if s.caller ≠ .idle then none
    else if f.data = [] ∨ s.running_ = false then some (s, [.rejected])
    else some ({ s with tasks_ := s.tasks_ ++ [.frame s.accepted f], accepted := s.accepted + 1 },
      [.accepted s.accepted f])
  | .registerDecodeCompleteCallback callback =>
    if s.caller ≠ .idle then none else some ({ s with impl := { s.impl with callback := callback } }, [])
  | .configure =>
    if s.caller ≠ .idle then none
    else some ({ s with
      caller := .configuring, running_ := true, worker := if s.running_ then s.worker else .waiting },
      [.configureCalled])
  | .configurePush =>
    if s.caller ≠ .configuring then none
    else some ({ s with
      caller := .configureWait s.calls, tasks_ := [.configure s.calls], calls := s.calls + 1 }, [])
  | .configureReturn =>
    match s.caller with
    | .configureWait call => if call ∈ s.done then some ({ s with caller := .idle }, [.configureReturned]) else none
    | _ => none
  | .release =>
    if s.caller ≠ .idle then none
    else some ({ s with caller := .releasing, impl := { s.impl with callback := false } }, [])
  | .releasePush =>
    if s.caller ≠ .releasing then none
    else some ({ s with
      caller := .releaseWait s.calls, tasks_ := if s.running_ then [.destroy s.calls] else s.tasks_,
      calls := s.calls + 1 }, [])
  | .releaseStop =>
    match s.caller with
    | .releaseWait call =>
      if s.running_ = true ∧ call ∉ s.done then none
      else some ({ s with caller := .stopping, running_ := false }, [])
    | _ => none
  | .releaseReturn =>
    if s.caller = .stopping ∧ (s.worker = .none ∨ s.worker = .exited) then
      some ({ s with caller := .idle, worker := .none }, [.releaseReturned])
    else none

/-- The steps of the worker thread. -/
def workerStep (s : Threads) : WorkerEvent → Option (Threads × List Trace)
  | .take => (takeJob s).map fun t => (t, [])
  | .feed r =>
    match s.worker with
    | .executing (.frame ticket f) =>
      let (impl, bytes, out, drains) := feedFrame s.impl f r
      some ({ s with impl := impl, worker := if drains = 0 then .finished else .owing ticket f drains },
        .processed ticket f :: bytes.map (.queued ticket) ++ out.map .codec)
    | _ => none
  | .drain =>
    match s.worker with
    | .owing ticket f (later + 1) => some ({ s with worker := .draining ticket f s.impl.callback later }, [])
    | _ => none
  | .drained responses =>
    match s.worker with
    | .draining ticket f cb later =>
      let (impl, out, _) := drainOutputs f.metadata { s.impl with callback := cb } responses
      some ({ s with
          impl := { impl with callback := s.impl.callback }
          worker := if later = 0 then .finished else .owing ticket f later },
        out.map .codec)
    | _ => none
  | .configureOnWorker r =>
    match s.worker with
    | .executing (.configure call) =>
      let (t, out) := configureOnWorker s r
      some ({ t with worker := .finished, done := call :: t.done }, out)
    | _ => none
  | .destroyCodec =>
    match s.worker with
    | .executing (.destroy call) =>
      let (t, out) := destroyCodec s
      some ({ t with worker := .finished, done := call :: t.done }, out)
    | _ => none

def threadStep (s : Threads) : ThreadEvent → Option (Threads × List Trace)
  | .caller e => callerStep s e
  | .worker e => workerStep s e
  | .destroyFrame number =>
    (s.impl.pool.live.find? (·.number = number)).map fun frame =>
      ({ s with impl := { s.impl with pool := destroy s.impl.pool frame } }, [])

/-- The state after the feeding part of a frame. -/
def fed (s : Threads) (ticket : Nat) (f : EncodedFrame) (r : InputResponse) : Threads :=
  { s with
    impl := (feedFrame s.impl f r).1
    worker := if (feedFrame s.impl f r).2.2.2 = 0 then .finished else .owing ticket f (feedFrame s.impl f r).2.2.2 }

/-- The state after a drain. -/
def afterDrain (s : Threads) (ticket : Nat) (f : EncodedFrame) (cb : Bool) (later : Nat)
    (responses : List OutputResponse) : Threads :=
  { s with
    impl := { (drainOutputs f.metadata { s.impl with callback := cb } responses).1 with callback := s.impl.callback }
    worker := if later = 0 then .finished else .owing ticket f later }

/-- Everything a step of the worker can be. -/
inductive WorkerMove (s : Threads) : WorkerEvent → Threads → List Trace → Prop
  | exits (stopped : s.running_ = false) (here : s.worker = .waiting ∨ s.worker = .finished ∧ s.tasks_ = []) :
    WorkerMove s .take { s with worker := .exited } []
  | waits (running : s.running_ = true) (here : s.worker = .finished) (empty : s.tasks_ = []) :
    WorkerMove s .take { s with worker := .waiting } []
  | takes {job rest} (queue : s.tasks_ = job :: rest)
    (here : s.worker = .waiting ∧ s.running_ = true ∨ s.worker = .finished) :
    WorkerMove s .take { s with worker := .executing job, tasks_ := rest } []
  | feeds {ticket f} (r) (here : s.worker = .executing (.frame ticket f)) :
    WorkerMove s (.feed r) (fed s ticket f r)
      (.processed ticket f :: (feedFrame s.impl f r).2.1.map (.queued ticket) ++
        (feedFrame s.impl f r).2.2.1.map .codec)
  | drains {ticket f later} (here : s.worker = .owing ticket f (later + 1)) :
    WorkerMove s .drain { s with worker := .draining ticket f s.impl.callback later } []
  | drained {ticket f cb later} (responses) (here : s.worker = .draining ticket f cb later) :
    WorkerMove s (.drained responses) (afterDrain s ticket f cb later responses)
      ((drainOutputs f.metadata { s.impl with callback := cb } responses).2.1.map .codec)
  | configures {call} (r) (here : s.worker = .executing (.configure call)) :
    WorkerMove s (.configureOnWorker r)
      { (configureOnWorker s r).1 with worker := .finished, done := call :: (configureOnWorker s r).1.done }
      (configureOnWorker s r).2
  | destroys {call} (here : s.worker = .executing (.destroy call)) :
    WorkerMove s .destroyCodec
      { (destroyCodec s).1 with worker := .finished, done := call :: (destroyCodec s).1.done } (destroyCodec s).2

theorem workerMove_of_step {s t : Threads} {e : WorkerEvent} {out : List Trace}
    (run : workerStep s e = some (t, out)) : WorkerMove s e t out := by
  cases e with
  | take =>
    simp only [workerStep, Option.map_eq_some_iff, Prod.mk.injEq] at run
    obtain ⟨next, taken, rfl, rfl⟩ := run
    unfold takeJob at taken
    split at taken
    · rename_i atWait
      split at taken
      · rename_i running
        split at taken
        · cases taken
        · rename_i job rest queue
          cases taken
          exact .takes queue (Or.inl ⟨atWait, running⟩)
      · rename_i stopped
        cases taken
        exact .exits (by simpa using stopped) (Or.inl atWait)
    · rename_i atEnd
      split at taken
      · rename_i empty
        cases taken
        by_cases running : s.running_ = true
        · rw [if_pos running]
          exact .waits running atEnd empty
        · rw [if_neg running]
          exact .exits (by simpa using running) (Or.inr ⟨atEnd, empty⟩)
      · rename_i job rest queue
        cases taken
        exact .takes queue (Or.inr atEnd)
    · cases taken
  | feed r =>
    simp only [workerStep] at run
    split at run
    · rename_i ticket f here
      cases run
      exact .feeds r here
    · cases run
  | drain =>
    simp only [workerStep] at run
    split at run
    · rename_i here
      cases run
      exact .drains here
    · cases run
  | drained responses =>
    simp only [workerStep] at run
    split at run
    · rename_i here
      cases run
      exact .drained responses here
    · cases run
  | configureOnWorker r =>
    simp only [workerStep] at run
    split at run
    · rename_i here
      cases run
      exact .configures r here
    · cases run
  | destroyCodec =>
    simp only [workerStep] at run
    split at run
    · rename_i here
      cases run
      exact .destroys here
    · cases run

/-- Everything a step of the calling thread can be. -/
inductive CallerMove (s : Threads) : CallerEvent → Threads → List Trace → Prop
  | rejects {f} (here : s.caller = .idle) (why : f.data = [] ∨ s.running_ = false) :
    CallerMove s (.decode f) s [.rejected]
  | accepts {f} (here : s.caller = .idle) (data : f.data ≠ []) (running : s.running_ = true) :
    CallerMove s (.decode f) { s with tasks_ := s.tasks_ ++ [.frame s.accepted f], accepted := s.accepted + 1 }
      [.accepted s.accepted f]
  | registers (callback) (here : s.caller = .idle) :
    CallerMove s (.registerDecodeCompleteCallback callback) { s with impl := { s.impl with callback := callback } } []
  | starts (here : s.caller = .idle) :
    CallerMove s .configure
      { s with caller := .configuring, running_ := true, worker := if s.running_ then s.worker else .waiting }
      [.configureCalled]
  | pushes (here : s.caller = .configuring) :
    CallerMove s .configurePush
      { s with caller := .configureWait s.calls, tasks_ := [.configure s.calls], calls := s.calls + 1 } []
  | returns {call} (here : s.caller = .configureWait call) (ready : call ∈ s.done) :
    CallerMove s .configureReturn { s with caller := .idle } [.configureReturned]
  | releases (here : s.caller = .idle) :
    CallerMove s .release { s with caller := .releasing, impl := { s.impl with callback := false } } []
  | clears (here : s.caller = .releasing) :
    CallerMove s .releasePush
      { s with
        caller := .releaseWait s.calls, tasks_ := if s.running_ then [.destroy s.calls] else s.tasks_,
        calls := s.calls + 1 } []
  | stops {call} (here : s.caller = .releaseWait call) (ready : s.running_ = true → call ∈ s.done) :
    CallerMove s .releaseStop { s with caller := .stopping, running_ := false } []
  | joins (here : s.caller = .stopping) (gone : s.worker = .none ∨ s.worker = .exited) :
    CallerMove s .releaseReturn { s with caller := .idle, worker := .none } [.releaseReturned]

theorem callerMove_of_step {s t : Threads} {e : CallerEvent} {out : List Trace}
    (run : callerStep s e = some (t, out)) : CallerMove s e t out := by
  cases e <;> simp only [callerStep] at run
  case decode f =>
    split at run
    · cases run
    · rename_i here
      split at run <;> rename_i why <;> cases run
      · exact .rejects (not_not.mp here) why
      · rw [not_or, Bool.not_eq_false] at why
        exact .accepts (not_not.mp here) why.1 why.2
  case configureReturn =>
    split at run
    · rename_i call here
      split at run
      · rename_i ready
        cases run
        exact .returns here ready
      · cases run
    · cases run
  case releaseStop =>
    split at run
    · rename_i call here
      split at run
      · cases run
      · rename_i ready
        cases run
        exact .stops here fun running => not_not.mp fun missing => ready ⟨running, missing⟩
    · cases run
  case releaseReturn =>
    split at run
    · rename_i here
      cases run
      exact .joins here.1 here.2
    · cases run
  all_goals
    split at run
    · cases run
    · rename_i here
      cases run
      first
        | exact .registers _ (not_not.mp here)
        | exact .starts (not_not.mp here)
        | exact .pushes (not_not.mp here)
        | exact .releases (not_not.mp here)
        | exact .clears (not_not.mp here)

def initialThreads : Threads where
  impl := ⟨false, false, 0, 0, 0, 0, 0, 0, initialPool⟩
  codecId := 0
  tasks_ := []
  running_ := false
  worker := .none
  caller := .idle
  done := []
  created := 0
  calls := 0
  accepted := 0

/-- The decoder as it is constructed, with one calling thread. -/
def decoderThreads : Machine Threads ThreadEvent Trace := ⟨initialThreads, threadStep⟩

end WebRtcDemo.Decoder
