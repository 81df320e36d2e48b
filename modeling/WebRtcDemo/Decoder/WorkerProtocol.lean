import WebRtcDemo.Decoder.Worker

namespace WebRtcDemo.Decoder

/-! Who may be where. -/

def Job.IsFrame : Job → Prop
  | .frame _ _ => True
  | _ => False

/-- A live worker that is not at a job for which somebody waits. -/
def Worker.Free : Worker → Prop
  | .waiting | .finished | .owing _ _ _ | .draining _ _ _ _ | .executing (.frame _ _) => True
  | _ => False

def Worker.Resting (w : Worker) : Prop := w = .waiting ∨ w = .finished

/-- The worker runs and has only frames before it. -/
structure Live (s : Threads) : Prop where
  running : s.running_ = true
  free : s.worker.Free
  frames : ∀ job ∈ s.tasks_, job.IsFrame

/-- There is no worker, no task and no codec. -/
structure Quiet (s : Threads) : Prop where
  stopped : s.running_ = false
  noWorker : s.worker = .none
  noTask : s.tasks_ = []
  noCodec : s.impl.codec = false

/-- The job of this call is in the queue of a live worker, or running, or done. -/
structure Awaits (s : Threads) (job : Job) (call : Nat) : Prop where
  running : s.running_ = true
  known : call < s.calls
  place : (s.tasks_ = [job] ∧ s.worker.Free ∧ call ∉ s.done) ∨
    (s.tasks_ = [] ∧ s.worker = .executing job ∧ call ∉ s.done) ∨
    (s.tasks_ = [] ∧ s.worker.Resting ∧ call ∈ s.done)

/-- What the place of the calling thread says about the worker. -/
def Phase (s : Threads) : Prop :=
  match s.caller with
  | .idle | .releasing => Live s ∨ Quiet s
  | .configuring => Live s
  | .configureWait call => Awaits s (.configure call) call
  | .releaseWait call => (Awaits s (.destroy call) call ∧ (call ∈ s.done → s.impl.codec = false)) ∨ Quiet s
  | .stopping => s.running_ = false ∧ s.tasks_ = [] ∧ s.impl.codec = false ∧
    (s.worker = .none ∨ s.worker = .exited ∨ s.worker.Resting)

structure Places (s : Threads) : Prop where
  phase : Phase s
  known : ∀ call ∈ s.done, call < s.calls

theorem Worker.Resting.free {w : Worker} (resting : w.Resting) : w.Free := by
  rcases resting with rfl | rfl <;> trivial

theorem Worker.free_feed (ticket : Nat) (f : EncodedFrame) (n : Nat) :
    (if n = 0 then Worker.finished else .owing ticket f n).Free := by
  split <;> trivial

/-- A worker with only frames before it keeps to them. -/
theorem Live.workerMove {s t : Threads} {e : WorkerEvent} {out : List Trace} (live : Live s)
    (move : WorkerMove s e t out) :
    Live t ∧ t.caller = s.caller ∧ t.done = s.done ∧ t.calls = s.calls := by
  obtain ⟨running, free, frames⟩ := live
  cases move with
  | exits stopped => exact absurd (running.symm.trans stopped) (by decide)
  | waits _ here empty => exact ⟨⟨running, trivial, frames⟩, rfl, rfl, rfl⟩
  | @takes job rest queue here =>
    rw [queue] at frames
    obtain ⟨first, later⟩ := List.forall_mem_cons.mp frames
    cases job with
    | frame ticket f => exact ⟨⟨running, trivial, later⟩, rfl, rfl, rfl⟩
    | configure call => exact first.elim
    | destroy call => exact first.elim
  | @feeds ticket f r here => exact ⟨⟨running, Worker.free_feed ticket f _, frames⟩, rfl, rfl, rfl⟩
  | drains here => exact ⟨⟨running, trivial, frames⟩, rfl, rfl, rfl⟩
  | @drained ticket f cb later responses here =>
    exact ⟨⟨running, Worker.free_feed ticket f _, frames⟩, rfl, rfl, rfl⟩
  | configures r here =>
    rw [here] at free
    exact free.elim
  | destroys here =>
    rw [here] at free
    exact free.elim

theorem configureOnWorker_frame (s : Threads) (r : ConfigureResponse) :
    (configureOnWorker s r).1.tasks_ = s.tasks_ ∧ (configureOnWorker s r).1.running_ = s.running_ ∧
      (configureOnWorker s r).1.caller = s.caller ∧ (configureOnWorker s r).1.done = s.done ∧
      (configureOnWorker s r).1.calls = s.calls ∧ (configureOnWorker s r).1.accepted = s.accepted := by
  simp only [configureOnWorker, destroyCodec]
  split
  · split <;> exact ⟨rfl, rfl, rfl, rfl, rfl, rfl⟩
  · exact ⟨rfl, rfl, rfl, rfl, rfl, rfl⟩

section Awaiting

variable {s t : Threads} {e : WorkerEvent} {out : List Trace} {job : Job} {call : Nat}

/-- While the worker is at a frame the job is still in the queue. -/
theorem Awaits.inQueue (awaits : Awaits s job call) (kind : job = .configure call ∨ job = .destroy call)
    (free : s.worker.Free) (busy : ¬s.worker.Resting) : s.tasks_ = [job] ∧ call ∉ s.done := by
  rcases awaits.place with ⟨alone, _, missing⟩ | ⟨_, executing, _⟩ | ⟨_, resting, _⟩
  · exact ⟨alone, missing⟩
  · rw [executing] at free
    rcases kind with rfl | rfl <;> exact free.elim
  · exact absurd resting busy

/-- A worker at a job of that kind is at this one. -/
theorem Awaits.inWorker (awaits : Awaits s job call) (busy : ¬s.worker.Free) :
    s.tasks_ = [] ∧ s.worker = .executing job := by
  rcases awaits.place with ⟨_, free, _⟩ | ⟨empty, executing, _⟩ | ⟨_, resting, _⟩
  · exact absurd free busy
  · exact ⟨empty, executing⟩
  · exact absurd resting.free busy

/-- A job that is waited for goes from the queue to the worker and is done. -/
theorem Awaits.workerMove (awaits : Awaits s job call) (kind : job = .configure call ∨ job = .destroy call)
    (move : WorkerMove s e t out) :
    Awaits t job call ∧ t.caller = s.caller ∧ t.calls = s.calls ∧
      (t.done = s.done ∧ (call ∈ s.done → t.impl.codec = s.impl.codec) ∨
        t.done = call :: s.done ∧ (job = .destroy call → t.impl.codec = false)) := by
  have running := awaits.running
  have known := awaits.known
  cases move with
  | exits stopped => exact absurd (running.symm.trans stopped) (by decide)
  | waits _ here empty =>
    refine ⟨⟨running, known, ?_⟩, rfl, rfl, Or.inl ⟨rfl, fun _ => rfl⟩⟩
    rcases awaits.place with ⟨queue, _⟩ | ⟨_, executing, _⟩ | ⟨_, _, ready⟩
    · rw [empty] at queue
      cases queue
    · rw [here] at executing
      cases executing
    · exact Or.inr (Or.inr ⟨empty, Or.inl rfl, ready⟩)
  | @takes first rest queue here =>
    rcases awaits.place with ⟨alone, _, missing⟩ | ⟨empty, _⟩ | ⟨empty, _⟩
    · rw [alone] at queue
      obtain ⟨rfl, rfl⟩ := List.cons.inj queue
      exact ⟨⟨running, known, Or.inr (Or.inl ⟨rfl, rfl, missing⟩)⟩, rfl, rfl, Or.inl ⟨rfl, fun _ => rfl⟩⟩
    · rw [empty] at queue
      cases queue
    · rw [empty] at queue
      cases queue
  | @feeds ticket f r here =>
    obtain ⟨alone, missing⟩ := awaits.inQueue kind (by rw [here]; trivial) (by rw [here]; simp [Worker.Resting])
    exact ⟨⟨running, known, Or.inl ⟨alone, Worker.free_feed ticket f _, missing⟩⟩, rfl, rfl,
      Or.inl ⟨rfl, fun ready => absurd ready missing⟩⟩
  | @drains ticket f later here =>
    obtain ⟨alone, missing⟩ := awaits.inQueue kind (by rw [here]; trivial) (by rw [here]; simp [Worker.Resting])
    exact ⟨⟨running, known, Or.inl ⟨alone, trivial, missing⟩⟩, rfl, rfl, Or.inl ⟨rfl, fun _ => rfl⟩⟩
  | @drained ticket f cb later responses here =>
    obtain ⟨alone, missing⟩ := awaits.inQueue kind (by rw [here]; trivial) (by rw [here]; simp [Worker.Resting])
    exact ⟨⟨running, known, Or.inl ⟨alone, Worker.free_feed ticket f _, missing⟩⟩, rfl, rfl,
      Or.inl ⟨rfl, fun ready => absurd ready missing⟩⟩
  | @configures other r here =>
    obtain ⟨tasks, sameRunning, caller, done, calls, _⟩ := configureOnWorker_frame s r
    obtain ⟨empty, executing⟩ := awaits.inWorker (by rw [here]; exact id)
    rw [here, Worker.executing.injEq] at executing
    rcases kind with rfl | rfl <;> cases executing
    exact ⟨⟨sameRunning.trans running, calls ▸ known, Or.inr (Or.inr ⟨tasks.trans empty, Or.inr rfl,
      List.mem_cons_self⟩)⟩, caller, calls, Or.inr ⟨by rw [done], fun same => by cases same⟩⟩
  | @destroys other here =>
    obtain ⟨empty, executing⟩ := awaits.inWorker (by rw [here]; exact id)
    rw [here, Worker.executing.injEq] at executing
    rcases kind with rfl | rfl <;> cases executing
    exact ⟨⟨running, known, Or.inr (Or.inr ⟨empty, Or.inr rfl, List.mem_cons_self⟩)⟩, rfl, rfl,
      Or.inr ⟨rfl, fun _ => rfl⟩⟩

end Awaiting

/-- Without a thread there is no step of it. -/
theorem Quiet.no_workerMove {s t : Threads} {e : WorkerEvent} {out : List Trace} (quiet : Quiet s) :
    ¬WorkerMove s e t out := by
  intro move
  have gone := quiet.noWorker
  cases move with
  | exits _ here => rcases here with here | ⟨here, _⟩ <;> rw [gone] at here <;> cases here
  | waits _ here _ => rw [gone] at here; cases here
  | takes _ here => rcases here with ⟨here, _⟩ | here <;> rw [gone] at here <;> cases here
  | feeds _ here => rw [gone] at here; cases here
  | drains here => rw [gone] at here; cases here
  | drained _ here => rw [gone] at here; cases here
  | configures _ here => rw [gone] at here; cases here
  | destroys here => rw [gone] at here; cases here

theorem Phase.idle {s : Threads} (here : s.caller = .idle) : Phase s ↔ Live s ∨ Quiet s := by
  unfold Phase
  rw [here]

theorem Phase.releasing {s : Threads} (here : s.caller = .releasing) : Phase s ↔ Live s ∨ Quiet s := by
  unfold Phase
  rw [here]

theorem Phase.configuring {s : Threads} (here : s.caller = .configuring) : Phase s ↔ Live s := by
  unfold Phase
  rw [here]

theorem Phase.configureWait {s : Threads} {call : Nat} (here : s.caller = .configureWait call) :
    Phase s ↔ Awaits s (.configure call) call := by
  unfold Phase
  rw [here]

theorem Phase.releaseWait {s : Threads} {call : Nat} (here : s.caller = .releaseWait call) :
    Phase s ↔ (Awaits s (.destroy call) call ∧ (call ∈ s.done → s.impl.codec = false)) ∨ Quiet s := by
  unfold Phase
  rw [here]

theorem Phase.stopping {s : Threads} (here : s.caller = .stopping) :
    Phase s ↔ s.running_ = false ∧ s.tasks_ = [] ∧ s.impl.codec = false ∧
      (s.worker = .none ∨ s.worker = .exited ∨ s.worker.Resting) := by
  unfold Phase
  rw [here]

theorem Places.workerMove {s t : Threads} {e : WorkerEvent} {out : List Trace} (places : Places s)
    (move : WorkerMove s e t out) : Places t := by
  have live (l : Live s) : Live t ∧ t.caller = s.caller ∧ ∀ call ∈ t.done, call < t.calls := by
    obtain ⟨still, caller, done, calls⟩ := l.workerMove move
    exact ⟨still, caller, by rw [done, calls]; exact places.known⟩
  have bounded {call : Nat} (known : call < s.calls) (calls : t.calls = s.calls)
      (done : t.done = s.done ∨ t.done = call :: s.done) : ∀ call ∈ t.done, call < t.calls := by
    rw [calls]
    rcases done with same | more
    · rw [same]
      exact places.known
    · rw [more]
      exact List.forall_mem_cons.mpr ⟨known, places.known⟩
  have phase := places.phase
  cases here : s.caller with
  | idle =>
    rcases (Phase.idle here).mp phase with l | quiet
    · obtain ⟨still, caller, known⟩ := live l
      exact ⟨(Phase.idle (caller.trans here)).mpr (Or.inl still), known⟩
    · exact absurd move quiet.no_workerMove
  | releasing =>
    rcases (Phase.releasing here).mp phase with l | quiet
    · obtain ⟨still, caller, known⟩ := live l
      exact ⟨(Phase.releasing (caller.trans here)).mpr (Or.inl still), known⟩
    · exact absurd move quiet.no_workerMove
  | configuring =>
    obtain ⟨still, caller, known⟩ := live ((Phase.configuring here).mp phase)
    exact ⟨(Phase.configuring (caller.trans here)).mpr still, known⟩
  | configureWait call =>
    have awaits := (Phase.configureWait here).mp phase
    obtain ⟨still, caller, calls, done⟩ := awaits.workerMove (Or.inl rfl) move
    exact ⟨(Phase.configureWait (caller.trans here)).mpr still,
      bounded awaits.known calls (done.imp And.left And.left)⟩
  | releaseWait call =>
    rcases (Phase.releaseWait here).mp phase with ⟨awaits, cleared⟩ | quiet
    · obtain ⟨still, caller, calls, done⟩ := awaits.workerMove (Or.inr rfl) move
      refine ⟨(Phase.releaseWait (caller.trans here)).mpr (Or.inl ⟨still, ?_⟩),
        bounded awaits.known calls (done.imp And.left And.left)⟩
      rcases done with ⟨same, codec⟩ | ⟨_, codec⟩
      · intro ready
        rw [same] at ready
        rw [codec ready, cleared ready]
      · exact fun _ => codec rfl
    · exact absurd move quiet.no_workerMove
  | stopping =>
    obtain ⟨stopped, empty, noCodec, place⟩ := (Phase.stopping here).mp phase
    have ended {w : Worker} (atW : s.worker = w) (busy : w ≠ .none ∧ w ≠ .exited ∧ ¬w.Resting) : Places t := by
      subst atW
      rcases place with none | exited | resting
      · exact absurd none busy.1
      · exact absurd exited busy.2.1
      · exact absurd resting busy.2.2
    cases move with
    | exits =>
      exact ⟨(Phase.stopping (by exact here)).mpr ⟨stopped, empty, noCodec, Or.inr (Or.inl rfl)⟩, places.known⟩
    | waits running => exact absurd (stopped.symm.trans running) (by decide)
    | takes queue =>
      rw [empty] at queue
      cases queue
    | feeds _ atW => exact ended atW (by simp [Worker.Resting])
    | drains atW => exact ended atW (by simp [Worker.Resting])
    | drained _ atW => exact ended atW (by simp [Worker.Resting])
    | configures _ atW => exact ended atW (by simp [Worker.Resting])
    | destroys atW => exact ended atW (by simp [Worker.Resting])

theorem Places.callerMove {s t : Threads} {e : CallerEvent} {out : List Trace} (places : Places s)
    (move : CallerMove s e t out) : Places t := by
  obtain ⟨phase, known⟩ := places
  have later : ∀ call ∈ s.done, call < s.calls + 1 := fun call inside => Nat.lt_succ_of_lt (known call inside)
  have fresh : s.calls ∉ s.done := fun inside => absurd (known _ inside) (Nat.lt_irrefl _)
  cases move with
  | rejects here why => exact ⟨phase, known⟩
  | accepts here data running =>
    refine ⟨(Phase.idle (by exact here)).mpr ?_, known⟩
    rcases (Phase.idle here).mp phase with live | quiet
    · refine Or.inl ⟨running, live.free, fun job inside => ?_⟩
      rcases List.mem_append.mp inside with old | new
      · exact live.frames job old
      · rw [List.mem_singleton.mp new]
        trivial
    · exact absurd (quiet.stopped.symm.trans running) (by decide)
  | registers callback here =>
    refine ⟨(Phase.idle (by exact here)).mpr ?_, known⟩
    rcases (Phase.idle here).mp phase with live | quiet
    · exact Or.inl ⟨live.running, live.free, live.frames⟩
    · exact Or.inr ⟨quiet.stopped, quiet.noWorker, quiet.noTask, quiet.noCodec⟩
  | starts here =>
    refine ⟨(Phase.configuring rfl).mpr ?_, known⟩
    rcases (Phase.idle here).mp phase with live | quiet
    · exact ⟨rfl, by rw [live.running]; exact live.free, live.frames⟩
    · exact ⟨rfl, by rw [quiet.stopped]; trivial, by rw [quiet.noTask]; simp⟩
  | pushes here =>
    have live := (Phase.configuring here).mp phase
    exact ⟨(Phase.configureWait rfl).mpr
      ⟨live.running, Nat.lt_succ_self _, Or.inl ⟨rfl, live.free, fresh⟩⟩, later⟩
  | returns here ready =>
    refine ⟨(Phase.idle rfl).mpr (Or.inl ?_), known⟩
    have awaits := (Phase.configureWait here).mp phase
    rcases awaits.place with ⟨_, _, missing⟩ | ⟨_, _, missing⟩ | ⟨empty, resting, _⟩
    · exact absurd ready missing
    · exact absurd ready missing
    · exact ⟨awaits.running, resting.free, by rw [empty]; simp⟩
  | releases here =>
    refine ⟨(Phase.releasing rfl).mpr ?_, known⟩
    rcases (Phase.idle here).mp phase with live | quiet
    · exact Or.inl ⟨live.running, live.free, live.frames⟩
    · exact Or.inr ⟨quiet.stopped, quiet.noWorker, quiet.noTask, quiet.noCodec⟩
  | clears here =>
    refine ⟨(Phase.releaseWait rfl).mpr ?_, later⟩
    rcases (Phase.releasing here).mp phase with live | quiet
    · refine Or.inl ⟨⟨live.running, Nat.lt_succ_self _, Or.inl ⟨?_, live.free, fresh⟩⟩, fun ready => absurd ready fresh⟩
      rw [live.running]
      rfl
    · refine Or.inr ⟨quiet.stopped, quiet.noWorker, ?_, quiet.noCodec⟩
      rw [quiet.stopped]
      exact quiet.noTask
  | stops here ready =>
    refine ⟨(Phase.stopping rfl).mpr ?_, known⟩
    rcases (Phase.releaseWait here).mp phase with ⟨awaits, cleared⟩ | quiet
    · have done := ready awaits.running
      rcases awaits.place with ⟨_, _, missing⟩ | ⟨_, _, missing⟩ | ⟨empty, resting, _⟩
      · exact absurd done missing
      · exact absurd done missing
      · exact ⟨rfl, empty, cleared done, Or.inr (Or.inr resting)⟩
    · exact ⟨rfl, quiet.noTask, quiet.noCodec, Or.inl quiet.noWorker⟩
  | joins here gone =>
    obtain ⟨stopped, empty, noCodec, _⟩ := (Phase.stopping here).mp phase
    exact ⟨(Phase.idle rfl).mpr (Or.inr ⟨stopped, rfl, empty, noCodec⟩), known⟩

/-- A step is one of the calling thread, of the worker, or of the pool. -/
theorem threadStep_cases {s t : Threads} {e : ThreadEvent} {out : List Trace} (run : threadStep s e = some (t, out)) :
    (∃ c, e = .caller c ∧ CallerMove s c t out) ∨ (∃ w, e = .worker w ∧ WorkerMove s w t out) ∨
      ∃ pool, t = { s with impl := { s.impl with pool := pool } } ∧ out = [] := by
  cases e with
  | caller c => exact Or.inl ⟨c, rfl, callerMove_of_step run⟩
  | worker w => exact Or.inr (Or.inl ⟨w, rfl, workerMove_of_step run⟩)
  | destroyFrame number =>
    simp only [threadStep, Option.map_eq_some_iff, Prod.mk.injEq] at run
    obtain ⟨frame, _, rfl, rfl⟩ := run
    exact Or.inr (Or.inr ⟨_, rfl, rfl⟩)

theorem Places.step {s t : Threads} {e : ThreadEvent} {out : List Trace} (places : Places s)
    (run : threadStep s e = some (t, out)) : Places t := by
  rcases threadStep_cases run with ⟨c, _, move⟩ | ⟨w, _, move⟩ | ⟨pool, rfl, rfl⟩
  · exact places.callerMove move
  · exact places.workerMove move
  · refine ⟨?_, places.known⟩
    have phase := places.phase
    unfold Phase at phase ⊢
    cases here : s.caller <;> simp only [here] at phase ⊢
    case idle | releasing =>
      exact phase.imp (fun live => ⟨live.running, live.free, live.frames⟩)
        (fun quiet => ⟨quiet.stopped, quiet.noWorker, quiet.noTask, quiet.noCodec⟩)
    case configuring => exact ⟨phase.running, phase.free, phase.frames⟩
    case configureWait => exact ⟨phase.running, phase.known, phase.place⟩
    case releaseWait =>
      exact phase.imp (fun waits => ⟨⟨waits.1.running, waits.1.known, waits.1.place⟩, waits.2⟩)
        (fun quiet => ⟨quiet.stopped, quiet.noWorker, quiet.noTask, quiet.noCodec⟩)
    case stopping => exact phase

/-! Frames are processed in the order in which they were accepted. -/

def Trace.accepted? : Trace → Option (Nat × EncodedFrame)
  | .accepted ticket f => some (ticket, f)
  | _ => none

def Trace.processed? : Trace → Option (Nat × EncodedFrame)
  | .processed ticket f => some (ticket, f)
  | _ => none

def acceptedFrames (log : List Trace) : List (Nat × EncodedFrame) := log.filterMap Trace.accepted?

def processedFrames (log : List Trace) : List (Nat × EncodedFrame) := log.filterMap Trace.processed?

def Job.frame? : Job → Option (Nat × EncodedFrame)
  | .frame ticket f => some (ticket, f)
  | _ => none

/-- The frames that may still be processed: the one just taken, and the queue. -/
def Threads.pending (s : Threads) : List (Nat × EncodedFrame) :=
  (match s.worker with
    | .executing job => job.frame?.toList
    | _ => []) ++ s.tasks_.filterMap Job.frame?

structure Ordered (s : Threads) (log : List Trace) : Prop where
  order : (processedFrames log ++ s.pending).Sublist (acceptedFrames log)
  numbered : (acceptedFrames log).map Prod.fst = List.range s.accepted

theorem pending_of_resting {s : Threads} (resting : s.worker.Resting) :
    s.pending = s.tasks_.filterMap Job.frame? := by
  unfold Threads.pending
  rcases resting with here | here <;> rw [here] <;> rfl

/-- What a configuration or a destruction writes to the log. -/
def Trace.isCodec : Trace → Bool
  | .created _ | .deleted _ => true
  | _ => false

theorem destroyCodec_trace (s : Threads) : ∀ a ∈ (destroyCodec s).2, a.isCodec = true := by
  unfold destroyCodec
  dsimp only
  split <;> simp [Trace.isCodec]

theorem configureOnWorker_trace (s : Threads) (r : ConfigureResponse) :
    ∀ a ∈ (configureOnWorker s r).2, a.isCodec = true := by
  have old := destroyCodec_trace s
  unfold configureOnWorker
  dsimp only
  split
  · split <;> simp only [List.forall_mem_append] <;> exact ⟨old, by simp [Trace.isCodec]⟩
  · exact old

/-- What the feeding and the draining of a frame write to the log after its beginning. -/
def Trace.isWork : Trace → Bool
  | .queued _ _ | .codec _ => true
  | _ => false

theorem isWork_fed (ticket : Nat) (bytes : List Bytes) (out : List CodecAction) :
    ∀ a ∈ bytes.map (Trace.queued ticket) ++ out.map .codec, a.isWork = true := by
  intro a inside
  simp only [List.mem_append, List.mem_map] at inside
  rcases inside with ⟨_, _, rfl⟩ | ⟨_, _, rfl⟩ <;> rfl

theorem isWork_drained (out : List CodecAction) : ∀ a ∈ out.map Trace.codec, a.isWork = true := by
  intro a inside
  obtain ⟨_, _, rfl⟩ := List.mem_map.mp inside
  rfl

/-- Entries of one kind are nothing to a view that does not know the kind. -/
theorem filterMap_of_kind {α : Type} {view : Trace → Option α} {kind : Trace → Bool} {out : List Trace}
    (all : ∀ a ∈ out, kind a = true) (unseen : ∀ a, kind a = true → view a = none) : out.filterMap view = [] :=
  List.filterMap_eq_nil_iff.mpr fun a inside => unseen a (all a inside)

theorem Trace.accepted?_isWork (a : Trace) (work : a.isWork = true) : a.accepted? = none := by
  cases a <;> first | rfl | cases work

theorem Trace.processed?_isWork (a : Trace) (work : a.isWork = true) : a.processed? = none := by
  cases a <;> first | rfl | cases work

theorem Trace.accepted?_isCodec (a : Trace) (codec : a.isCodec = true) : a.accepted? = none := by
  cases a <;> first | rfl | cases codec

theorem Trace.processed?_isCodec (a : Trace) (codec : a.isCodec = true) : a.processed? = none := by
  cases a <;> first | rfl | cases codec

theorem pending_after_frame {s : Threads} {ticket : Nat} {f : EncodedFrame} {n : Nat}
    (here : s.worker = if n = 0 then .finished else .owing ticket f n) :
    s.pending = s.tasks_.filterMap Job.frame? := by
  unfold Threads.pending
  rw [here]
  by_cases last : n = 0
  · rw [if_pos last]
    rfl
  · rw [if_neg last]
    rfl

/-- A worker step takes the frames it processes from the front of the pending ones. -/
theorem WorkerMove.pending {s t : Threads} {e : WorkerEvent} {out : List Trace} (move : WorkerMove s e t out) :
    processedFrames out ++ t.pending = s.pending ∧ acceptedFrames out = [] ∧ t.accepted = s.accepted := by
  cases move with
  | exits stopped here =>
    have resting : s.worker.Resting := here.imp id And.left
    rw [pending_of_resting resting]
    exact ⟨rfl, rfl, rfl⟩
  | waits _ here empty =>
    rw [pending_of_resting (Or.inr here)]
    exact ⟨rfl, rfl, rfl⟩
  | @takes job rest queue here =>
    rw [pending_of_resting (here.imp And.left id), queue]
    refine ⟨?_, rfl, rfl⟩
    cases job <;> rfl
  | @feeds ticket f r here =>
    have work := isWork_fed ticket (feedFrame s.impl f r).2.1 (feedFrame s.impl f r).2.2.1
    have first : processedFrames (.processed ticket f :: (feedFrame s.impl f r).2.1.map (.queued ticket) ++
        (feedFrame s.impl f r).2.2.1.map .codec) = [(ticket, f)] :=
      congrArg ((ticket, f) :: ·) (filterMap_of_kind work Trace.processed?_isWork)
    have noneAccepted := filterMap_of_kind work Trace.accepted?_isWork
    refine ⟨?_, noneAccepted, rfl⟩
    rw [first, pending_after_frame rfl]
    simp only [Threads.pending, here]
    rfl
  | drains here =>
    refine ⟨?_, rfl, rfl⟩
    simp only [Threads.pending, here]
    rfl
  | @drained ticket f cb later responses here =>
    have work := isWork_drained (drainOutputs f.metadata { s.impl with callback := cb } responses).2.1
    refine ⟨?_, filterMap_of_kind work Trace.accepted?_isWork, rfl⟩
    rw [processedFrames, filterMap_of_kind work Trace.processed?_isWork, pending_after_frame rfl]
    simp only [Threads.pending, here]
    rfl
  | configures r here =>
    obtain ⟨tasks, _, _, _, _, accepted⟩ := configureOnWorker_frame s r
    have codec := configureOnWorker_trace s r
    refine ⟨?_, filterMap_of_kind codec Trace.accepted?_isCodec, accepted⟩
    rw [processedFrames, filterMap_of_kind codec Trace.processed?_isCodec]
    simp only [Threads.pending, here, tasks]
    rfl
  | destroys here =>
    have codec := destroyCodec_trace s
    refine ⟨?_, filterMap_of_kind codec Trace.accepted?_isCodec, rfl⟩
    rw [processedFrames, filterMap_of_kind codec Trace.processed?_isCodec]
    simp only [Threads.pending, here]
    rfl

/-- The calling thread adds a frame behind the others, or throws frames away. -/
theorem CallerMove.pending {s t : Threads} {e : CallerEvent} {out : List Trace} (move : CallerMove s e t out)
    (places : Places s) :
    processedFrames out = [] ∧
      ((∃ f, out = [.accepted s.accepted f] ∧ t.pending = s.pending ++ [(s.accepted, f)] ∧
          t.accepted = s.accepted + 1) ∨
        acceptedFrames out = [] ∧ t.pending.Sublist s.pending ∧ t.accepted = s.accepted) := by
  cases move with
  | rejects => exact ⟨rfl, Or.inr ⟨rfl, List.Sublist.refl _, rfl⟩⟩
  | @accepts f =>
    refine ⟨rfl, Or.inl ⟨f, rfl, ?_, rfl⟩⟩
    simp [Threads.pending, List.filterMap_append, Job.frame?]
  | registers => exact ⟨rfl, Or.inr ⟨rfl, List.Sublist.refl _, rfl⟩⟩
  | starts here =>
    refine ⟨rfl, Or.inr ⟨rfl, ?_, rfl⟩⟩
    rcases (Phase.idle here).mp places.phase with live | quiet
    · simp [Threads.pending, live.running]
    · simp [Threads.pending, quiet.stopped]
  | pushes => exact ⟨rfl, Or.inr ⟨rfl, (List.Sublist.refl _).append (List.nil_sublist _), rfl⟩⟩
  | returns => exact ⟨rfl, Or.inr ⟨rfl, List.Sublist.refl _, rfl⟩⟩
  | releases => exact ⟨rfl, Or.inr ⟨rfl, List.Sublist.refl _, rfl⟩⟩
  | clears =>
    refine ⟨rfl, Or.inr ⟨rfl, (List.Sublist.refl _).append ?_, rfl⟩⟩
    dsimp only
    split
    · exact List.nil_sublist _
    · exact List.Sublist.refl _
  | stops => exact ⟨rfl, Or.inr ⟨rfl, List.Sublist.refl _, rfl⟩⟩
  | joins here gone =>
    refine ⟨rfl, Or.inr ⟨rfl, ?_, rfl⟩⟩
    rcases gone with gone | gone <;> simp [Threads.pending, gone]

theorem Ordered.step {s t : Threads} {e : ThreadEvent} {log out : List Trace} (ordered : Ordered s log)
    (places : Places s) (run : threadStep s e = some (t, out)) : Ordered t (log ++ out) := by
  obtain ⟨order, numbered⟩ := ordered
  have processed : processedFrames (log ++ out) = processedFrames log ++ processedFrames out :=
    List.filterMap_append ..
  have accepted : acceptedFrames (log ++ out) = acceptedFrames log ++ acceptedFrames out :=
    List.filterMap_append ..
  rcases threadStep_cases run with ⟨c, _, move⟩ | ⟨w, _, move⟩ | ⟨pool, rfl, rfl⟩
  · obtain ⟨none, ⟨f, rfl, pending, count⟩ | ⟨noNew, fewer, count⟩⟩ := move.pending places
    · constructor
      · rw [processed, none, List.append_nil, accepted, pending, ← List.append_assoc]
        exact order.append (List.Sublist.refl _)
      · rw [accepted, List.map_append, numbered, count, List.range_succ]
        rfl
    · constructor
      · rw [processed, none, List.append_nil, accepted, noNew, List.append_nil]
        exact ((List.Sublist.refl _).append fewer).trans order
      · rw [accepted, noNew, List.append_nil, numbered, count]
  · obtain ⟨pending, none, count⟩ := move.pending
    constructor
    · rw [processed, accepted, none, List.append_nil, List.append_assoc, pending]
      exact order
    · rw [accepted, none, List.append_nil, numbered, count]
  · rw [List.append_nil]
    exact ⟨order, numbered⟩

/-! Every codec is deleted once. -/

def Trace.created? : Trace → Option Nat
  | .created id => some id
  | _ => none

def Trace.deleted? : Trace → Option Nat
  | .deleted id => some id
  | _ => none

def createdCodecs (log : List Trace) : List Nat := log.filterMap Trace.created?

def deletedCodecs (log : List Trace) : List Nat := log.filterMap Trace.deleted?

/-- All codecs but the one in use are deleted. -/
structure Codecs (s : Threads) (log : List Trace) : Prop where
  deleted : createdCodecs log = deletedCodecs log ++ if s.impl.codec then [s.codecId] else []
  numbered : createdCodecs log = List.range s.created

theorem createdCodecs_append (log out : List Trace) :
    createdCodecs (log ++ out) = createdCodecs log ++ createdCodecs out := List.filterMap_append ..

theorem deletedCodecs_append (log out : List Trace) :
    deletedCodecs (log ++ out) = deletedCodecs log ++ deletedCodecs out := List.filterMap_append ..

/-- Steps that neither create nor delete. -/
theorem Codecs.frame {s t : Threads} {log out : List Trace} (codecs : Codecs s log)
    (codec : t.impl.codec = s.impl.codec) (id : t.codecId = s.codecId) (count : t.created = s.created)
    (noneCreated : createdCodecs out = []) (noneDeleted : deletedCodecs out = []) : Codecs t (log ++ out) := by
  constructor
  · rw [createdCodecs_append, deletedCodecs_append, noneCreated, noneDeleted, List.append_nil, List.append_nil,
      codec, id]
    exact codecs.deleted
  · rw [createdCodecs_append, noneCreated, List.append_nil, count]
    exact codecs.numbered

theorem Codecs.destroyCodec {s : Threads} {log : List Trace} (codecs : Codecs s log) :
    Codecs (destroyCodec s).1 (log ++ (destroyCodec s).2) := by
  obtain ⟨deleted, numbered⟩ := codecs
  have none : createdCodecs (Decoder.destroyCodec s).2 = [] := by
    unfold Decoder.destroyCodec
    dsimp only
    split <;> rfl
  have gone : deletedCodecs (Decoder.destroyCodec s).2 = if s.impl.codec then [s.codecId] else [] := by
    unfold Decoder.destroyCodec
    dsimp only
    split <;> rfl
  constructor
  · rw [createdCodecs_append, deletedCodecs_append, none, gone, List.append_nil, deleted]
    exact (List.append_nil _).symm
  · rw [createdCodecs_append, none, List.append_nil]
    exact numbered

theorem refreshOutputFormat_codec (s : Impl) (fmt : Option OutputFormat) :
    (refreshOutputFormat s fmt).codec = s.codec := by
  unfold refreshOutputFormat
  split
  · split <;> rfl
  · rfl

theorem Codecs.configureOnWorker {s : Threads} {log : List Trace} (codecs : Codecs s log) (r : ConfigureResponse) :
    Codecs (configureOnWorker s r).1 (log ++ (configureOnWorker s r).2) := by
  have destroyed := codecs.destroyCodec
  have empty : (Decoder.destroyCodec s).1.impl.codec = false := rfl
  have all := destroyed.deleted
  rw [empty, if_neg (by decide), List.append_nil] at all
  unfold Decoder.configureOnWorker
  dsimp only
  split
  · split
    · constructor
      · dsimp only
        rw [refreshOutputFormat_codec, if_pos rfl, ← List.append_assoc, createdCodecs_append, deletedCodecs_append, all,
          List.append_assoc]
        rfl
      · rw [← List.append_assoc, createdCodecs_append, destroyed.numbered, List.range_succ]
        rfl
    · constructor
      · dsimp only
        rw [empty, ← List.append_assoc, createdCodecs_append, deletedCodecs_append, all,
          List.append_assoc]
        rfl
      · rw [← List.append_assoc, createdCodecs_append, destroyed.numbered, List.range_succ]
        rfl
  · exact destroyed

theorem drainOutputs_codec (m : FrameMeta) (s : Impl) (responses : List OutputResponse) :
    (drainOutputs m s responses).1.codec = s.codec := by
  induction responses generalizing s with
  | nil => rfl
  | cons r rest ih =>
    cases r with
    | formatChanged fmt => exact (ih _).trans (refreshOutputFormat_codec s fmt)
    | buffersChanged fmt => exact (ih _).trans (refreshOutputFormat_codec s fmt)
    | tryAgainLater => rfl
    | error => rfl
    | buffer b =>
      simp only [drainOutputs]
      rw [ih]
      have delivered (u : Impl) : (deliverOutput u b).1.codec = u.codec := by
        unfold deliverOutput copyOutput
        repeat' split
        all_goals rfl
      rw [delivered]
      split
      · exact refreshOutputFormat_codec s b.format
      · rfl

theorem feedFrame_codec (s : Impl) (f : EncodedFrame) (r : InputResponse) : (feedFrame s f r).1.codec = s.codec := by
  unfold feedFrame
  split
  · rfl
  · dsimp only
    split
    · rfl
    · split
      · rfl
      · split
        · rfl
        · split <;> rfl

theorem Trace.created?_isWork (a : Trace) (work : a.isWork = true) : a.created? = none := by
  cases a <;> first | rfl | cases work

theorem Trace.deleted?_isWork (a : Trace) (work : a.isWork = true) : a.deleted? = none := by
  cases a <;> first | rfl | cases work

theorem Codecs.step {s t : Threads} {e : ThreadEvent} {log out : List Trace} (codecs : Codecs s log)
    (run : threadStep s e = some (t, out)) : Codecs t (log ++ out) := by
  rcases threadStep_cases run with ⟨c, _, move⟩ | ⟨w, _, move⟩ | ⟨pool, rfl, rfl⟩
  · cases move <;> exact codecs.frame rfl rfl rfl rfl rfl
  · cases move with
    | exits | waits | takes | drains => exact codecs.frame rfl rfl rfl rfl rfl
    | @feeds ticket f r here =>
      have work := isWork_fed ticket (feedFrame s.impl f r).2.1 (feedFrame s.impl f r).2.2.1
      have noneCreated := filterMap_of_kind work Trace.created?_isWork
      have noneDeleted := filterMap_of_kind work Trace.deleted?_isWork
      exact codecs.frame (feedFrame_codec s.impl f r) rfl rfl noneCreated noneDeleted
    | @drained ticket f cb later responses here =>
      have work := isWork_drained (drainOutputs f.metadata { s.impl with callback := cb } responses).2.1
      exact codecs.frame (drainOutputs_codec f.metadata { s.impl with callback := cb } responses) rfl rfl
        (filterMap_of_kind work Trace.created?_isWork) (filterMap_of_kind work Trace.deleted?_isWork)
    | configures r here =>
      obtain ⟨deleted, numbered⟩ := codecs.configureOnWorker r
      exact ⟨deleted, numbered⟩
    | destroys here =>
      obtain ⟨deleted, numbered⟩ := codecs.destroyCodec
      exact ⟨deleted, numbered⟩
  · exact codecs.frame rfl rfl rfl rfl rfl

/-! No frame outlives a `Configure`. -/

/-- The frame was accepted before a `Configure` that has returned. -/
def Stale (log : List Trace) (frame : Nat × EncodedFrame) : Prop :=
  Machine.Past .configureReturned (fun before => .accepted frame.1 frame.2 ∈ before) log

def NotStale (past : List Trace) : Trace → Prop
  | .processed ticket f => ¬Stale past (ticket, f)
  | _ => True

structure Fresh (s : Threads) (log : List Trace) : Prop where
  processed : Machine.Throughout NotStale [] log
  pending : ∀ frame ∈ s.pending, ¬Stale log frame

theorem Trace.notStale_isWork {a : Trace} (work : a.isWork = true) (past : List Trace) : NotStale past a := by
  cases a <;> trivial

theorem Trace.notStale_isCodec {a : Trace} (codec : a.isCodec = true) (past : List Trace) : NotStale past a := by
  cases a <;> trivial

theorem not_configureReturned_of_isWork {out : List Trace} (all : ∀ a ∈ out, a.isWork = true) :
    .configureReturned ∉ out := fun inside => absurd (all _ inside) (by decide)

theorem not_configureReturned_of_isCodec {out : List Trace} (all : ∀ a ∈ out, a.isCodec = true) :
    .configureReturned ∉ out := fun inside => absurd (all _ inside) (by decide)

/-- Steps in which no `Configure` returns and no frame is added to the pending ones. -/
theorem Fresh.extend {s t : Threads} {log out : List Trace} (fresh : Fresh s log) (none : .configureReturned ∉ out)
    (admitted : Machine.Throughout NotStale log out) (fewer : t.pending ⊆ s.pending) : Fresh t (log ++ out) := by
  constructor
  · rw [Machine.throughout_append]
    exact ⟨fresh.processed, admitted⟩
  · intro frame inside stale
    exact fresh.pending frame (fewer inside) ((Machine.past_append_of_not_mem none).mp stale)

theorem Fresh.workerMove {s t : Threads} {e : WorkerEvent} {log out : List Trace} (fresh : Fresh s log)
    (move : WorkerMove s e t out) : Fresh t (log ++ out) := by
  have taken := move.pending.1
  have fewer : t.pending ⊆ s.pending := by
    rw [← taken]
    exact List.subset_append_right _ _
  cases move with
  | exits | waits | takes | drains => exact fresh.extend (by simp) trivial fewer
  | @feeds ticket f r here =>
    have work := isWork_fed ticket (feedFrame s.impl f r).2.1 (feedFrame s.impl f r).2.2.1
    have first : (ticket, f) ∈ s.pending := by
      unfold Threads.pending
      rw [here]
      exact List.mem_append_left _ (List.mem_singleton.mpr rfl)
    refine fresh.extend ?_ ⟨fresh.pending _ first, ?_⟩ fewer
    · rw [List.cons_append, List.mem_cons, not_or]
      exact ⟨by simp, not_configureReturned_of_isWork work⟩
    · exact Machine.throughout_of_forall fun a inside => Trace.notStale_isWork (work a inside)
  | @drained ticket f cb later responses here =>
    have work := isWork_drained (drainOutputs f.metadata { s.impl with callback := cb } responses).2.1
    exact fresh.extend (not_configureReturned_of_isWork work)
      (Machine.throughout_of_forall fun a inside => Trace.notStale_isWork (work a inside)) fewer
  | configures r here =>
    have codec := configureOnWorker_trace s r
    exact fresh.extend (not_configureReturned_of_isCodec codec)
      (Machine.throughout_of_forall fun a inside => Trace.notStale_isCodec (codec a inside)) fewer
  | destroys here =>
    have codec := destroyCodec_trace s
    exact fresh.extend (not_configureReturned_of_isCodec codec)
      (Machine.throughout_of_forall fun a inside => Trace.notStale_isCodec (codec a inside)) fewer

/-- A ticket that is not yet given out is in no entry. -/
theorem Ordered.not_accepted {s : Threads} {log : List Trace} (ordered : Ordered s log) (f : EncodedFrame) :
    .accepted s.accepted f ∉ log := by
  intro inside
  have listed : (s.accepted, f) ∈ acceptedFrames log := List.mem_filterMap.mpr ⟨_, inside, rfl⟩
  have number := List.mem_map_of_mem (f := Prod.fst) listed
  rw [ordered.numbered, List.mem_range] at number
  exact absurd number (Nat.lt_irrefl _)

theorem Fresh.callerMove {s t : Threads} {e : CallerEvent} {log out : List Trace} (fresh : Fresh s log)
    (places : Places s) (ordered : Ordered s log) (move : CallerMove s e t out) : Fresh t (log ++ out) := by
  obtain ⟨_, ⟨f, rfl, pending, _⟩ | ⟨noneAccepted, fewer, _⟩⟩ := move.pending places
  · refine ⟨Machine.throughout_append.mpr ⟨fresh.processed, trivial, trivial⟩, ?_⟩
    intro frame inside stale
    rw [Stale, Machine.past_append_of_not_mem (by simp)] at stale
    rw [pending] at inside
    rcases List.mem_append.mp inside with old | new
    · exact fresh.pending frame old stale
    · obtain ⟨before, after, rfl, accepted⟩ := stale
      rw [List.mem_singleton.mp new] at accepted
      exact ordered.not_accepted f (List.mem_append_left _ accepted)
  · cases move with
    | accepts => cases noneAccepted
    | returns here ready =>
      refine ⟨Machine.throughout_append.mpr ⟨fresh.processed, trivial, trivial⟩, ?_⟩
      rcases ((Phase.configureWait here).mp places.phase).place with
        ⟨_, _, missing⟩ | ⟨_, _, missing⟩ | ⟨empty, resting, _⟩
      · exact absurd ready missing
      · exact absurd ready missing
      · rw [pending_of_resting (by exact resting)]
        simp [empty]
    | rejects | registers | starts | pushes | releases | clears | stops | joins =>
      exact fresh.extend (by simp) (by simp [Machine.Throughout, NotStale]) fewer.subset

/-! After `Release` nothing happens before the next `Configure`. -/

/-- Since a `Release` returned, and while no `Configure` is called, the
decoder is at rest and `Decode` fails. -/
def QuietSince : Threads → List Trace → Prop :=
  Machine.Since .releaseReturned (· = .configureCalled) Quiet fun a => a = .rejected ∨ a = .releaseReturned

theorem Quiet.step {s t : Threads} {e : ThreadEvent} {out : List Trace} (quiet : Quiet s) (places : Places s)
    (run : threadStep s e = some (t, out)) (noConfigure : ∀ a ∈ out, a ≠ .configureCalled) :
    Quiet t ∧ ∀ a ∈ out, a = .rejected ∨ a = .releaseReturned := by
  obtain ⟨stopped, noWorker, noTask, noCodec⟩ := quiet
  rcases threadStep_cases run with ⟨c, _, move⟩ | ⟨w, _, move⟩ | ⟨pool, rfl, rfl⟩
  · cases move with
    | rejects => exact ⟨⟨stopped, noWorker, noTask, noCodec⟩, by simp⟩
    | accepts _ _ running => exact absurd (stopped.symm.trans running) (by decide)
    | registers => exact ⟨⟨stopped, noWorker, noTask, noCodec⟩, by simp⟩
    | starts => exact absurd rfl (noConfigure _ List.mem_cons_self)
    | pushes here =>
      exact absurd (stopped.symm.trans ((Phase.configuring here).mp places.phase).running) (by decide)
    | returns here =>
      exact absurd (stopped.symm.trans ((Phase.configureWait here).mp places.phase).running) (by decide)
    | releases => exact ⟨⟨stopped, noWorker, noTask, noCodec⟩, by simp⟩
    | clears => exact ⟨⟨stopped, noWorker, by simp [stopped, noTask], noCodec⟩, by simp⟩
    | stops => exact ⟨⟨rfl, noWorker, noTask, noCodec⟩, by simp⟩
    | joins => exact ⟨⟨stopped, rfl, noTask, noCodec⟩, by simp⟩
  · exact absurd move (Quiet.no_workerMove ⟨stopped, noWorker, noTask, noCodec⟩)
  · exact ⟨⟨stopped, noWorker, noTask, noCodec⟩, by simp⟩

/-- `Release` returns to a decoder at rest. -/
theorem Places.quiet_of_release {s t : Threads} {e : ThreadEvent} {out : List Trace} (places : Places s)
    (run : threadStep s e = some (t, out)) (returned : .releaseReturned ∈ out) : Quiet t ∧ out = [.releaseReturned] := by
  rcases threadStep_cases run with ⟨c, _, move⟩ | ⟨w, _, move⟩ | ⟨pool, rfl, rfl⟩
  · cases move with
    | joins here =>
      obtain ⟨stopped, empty, noCodec, _⟩ := (Phase.stopping here).mp places.phase
      exact ⟨⟨stopped, rfl, empty, noCodec⟩, rfl⟩
    | rejects | accepts | registers | starts | pushes | returns | releases | clears | stops => simp at returned
  · cases move with
    | exits | waits | takes | drains => cases returned
    | @feeds ticket f r here =>
      rcases List.mem_cons.mp returned with first | later
      · cases first
      · exact absurd (isWork_fed _ _ _ _ later) (by decide)
    | drained responses here => exact absurd (isWork_drained _ _ returned) (by decide)
    | configures r here => exact absurd (configureOnWorker_trace s r _ returned) (by decide)
    | destroys here => exact absurd (destroyCodec_trace s _ returned) (by decide)
  · cases returned

theorem QuietSince.step {s t : Threads} {e : ThreadEvent} {log out : List Trace} (since : QuietSince s log)
    (places : Places s) (run : threadStep s e = some (t, out)) : QuietSince t (log ++ out) := by
  refine Machine.Since.append since ?_ fun quiet => quiet.step places run
  by_cases returned : .releaseReturned ∈ out
  · obtain ⟨quiet, rfl⟩ := places.quiet_of_release run returned
    exact .of_mark quiet
  · exact .of_not_mem returned

/-! The protocol as a whole. -/

/-- A job for which a call waits will not be missed. -/
def Waiting (s : Threads) (job : Job) (call : Nat) : Prop :=
  (job ∈ s.tasks_ ∧ s.worker ≠ .none ∧ s.worker ≠ .exited) ∨ s.worker = .executing job ∨ call ∈ s.done

structure Protocol (s : Threads) (log : List Trace) : Prop where
  inOrder : (processedFrames log).Sublist (acceptedFrames log)
  once : ((processedFrames log).map Prod.fst).Nodup
  fresh : Machine.Throughout NotStale [] log
  released : ∀ before after, log = before ++ .releaseReturned :: after → .configureCalled ∉ after →
    s.running_ = false ∧ s.worker = .none ∧ s.impl.codec = false ∧
      (createdCodecs log).Nodup ∧ deletedCodecs log = createdCodecs log ∧
      ∀ a ∈ after, a = .rejected ∨ a = .releaseReturned
  configureWaits : ∀ call, s.caller = .configureWait call → Waiting s (.configure call) call
  releaseWaits : ∀ call, s.caller = .releaseWait call → s.running_ = true → Waiting s (.destroy call) call

theorem Awaits.waiting {s : Threads} {job : Job} {call : Nat} (awaits : Awaits s job call) : Waiting s job call := by
  rcases awaits.place with ⟨alone, free, _⟩ | ⟨_, executing, _⟩ | ⟨_, _, ready⟩
  · refine Or.inl ⟨by rw [alone]; exact List.mem_singleton.mpr rfl, ?_, ?_⟩
    · intro gone
      rw [gone] at free
      exact free
    · intro gone
      rw [gone] at free
      exact free
  · exact Or.inr (Or.inl executing)
  · exact Or.inr (Or.inr ready)

/-- All that is kept along every run. -/
structure Kept (s : Threads) (log : List Trace) : Prop where
  places : Places s
  ordered : Ordered s log
  codecs : Codecs s log
  fresh : Fresh s log
  quietSince : QuietSince s log

theorem decoderThreads_kept {s : Threads} {log : List Trace} (reach : decoderThreads.Reach Machine.Always s log) :
    Kept s log := by
  refine reach.invariant ?_ ?_
  · refine ⟨⟨Or.inr ⟨rfl, rfl, rfl, rfl⟩, by simp [decoderThreads, initialThreads]⟩, ⟨List.Sublist.refl _, rfl⟩, ⟨rfl, rfl⟩,
      ⟨trivial, ?_⟩, Machine.Since.start _⟩
    intro frame inside
    cases inside
  · intro s log e t out kept _ run
    refine ⟨kept.places.step run, kept.ordered.step kept.places run, kept.codecs.step run, ?_,
      kept.quietSince.step kept.places run⟩
    rcases threadStep_cases run with ⟨c, _, move⟩ | ⟨w, _, move⟩ | ⟨pool, rfl, rfl⟩
    · exact kept.fresh.callerMove kept.places kept.ordered move
    · exact kept.fresh.workerMove move
    · exact kept.fresh.extend (by simp) trivial (List.Subset.refl _)

/-- With one calling thread the protocol holds in every interleaving. -/
theorem decoderThreads_protocol {s : Threads} {log : List Trace}
    (reach : decoderThreads.Reach Machine.Always s log) : Protocol s log := by
  obtain ⟨places, ordered, codecs, fresh, since⟩ := decoderThreads_kept reach
  have processed : (processedFrames log).Sublist (acceptedFrames log) :=
    (List.sublist_append_left _ _).trans ordered.order
  refine ⟨processed, ?_, fresh.processed, ?_, ?_, ?_⟩
  · have distinct : ((acceptedFrames log).map Prod.fst).Nodup := by
      rw [ordered.numbered]
      exact List.nodup_range
    exact distinct.sublist (processed.map Prod.fst)
  · intro before after split noConfigure
    obtain ⟨⟨stopped, noWorker, _, noCodec⟩, entries⟩ := since before after split
      fun a inside called => noConfigure (called ▸ inside)
    have deleted := codecs.deleted
    rw [noCodec, if_neg (by decide), List.append_nil] at deleted
    have distinct : (createdCodecs log).Nodup := by
      rw [codecs.numbered]
      exact List.nodup_range
    exact ⟨stopped, noWorker, noCodec, distinct, deleted.symm, entries⟩
  · intro call here
    exact ((Phase.configureWait here).mp places.phase).waiting
  · intro call here running
    rcases (Phase.releaseWait here).mp places.phase with ⟨awaits, _⟩ | quiet
    · exact awaits.waiting
    · exact absurd (quiet.stopped.symm.trans running) (by decide)

/-- A frame is decoded while the decoder is configured anew, and `Release` ends it. -/
theorem decoderThreads_protocol_reconfigured :
    ∃ s log, Protocol s log ∧ .releaseReturned ∈ log ∧ createdCodecs log = [0, 1] ∧
      processedFrames log = [(0, ⟨[0, 0, 0, 1, 101], ⟨0, 0, none⟩, true⟩)] := by
  refine ⟨_, _, decoderThreads_protocol (.ofExec _
    [.caller .configure, .caller .configurePush, .worker .take, .worker (.configureOnWorker ⟨true, true, true, none⟩),
      .caller .configureReturn, .caller (.decode ⟨[0, 0, 0, 1, 101], ⟨0, 0, none⟩, true⟩),
      .caller (.decode ⟨[0, 0, 0, 1, 65], ⟨0, 0, none⟩, false⟩), .worker .take, .caller .configure,
      .caller .configurePush, .worker (.feed ⟨some 0, some 100, true⟩), .worker .drain, .worker (.drained []),
      .worker .drain, .worker (.drained []), .worker .take, .worker (.configureOnWorker ⟨true, false, true, none⟩),
      .caller .configureReturn, .caller .release, .caller .releasePush, .worker .take, .worker .destroyCodec,
      .worker .take, .caller .releaseStop, .worker .take, .caller .releaseReturn] rfl (Machine.meets_always _ _)),
    ?_, ?_, ?_⟩ <;> decide

end WebRtcDemo.Decoder
