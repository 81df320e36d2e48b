import Mathlib.Data.Prod.Lex
import WebRtcDemo.Lib.Liveness
import WebRtcDemo.Decoder.WorkerProtocol

namespace WebRtcDemo.Decoder

/-! No call of the decoder waits for ever, and no accepted frame stays in the queue. -/

/-- What is left of the present job, a step at a time. -/
def Worker.work : Worker → Nat
  | .none | .exited => 0
  | .waiting => 1
  | .finished => 2
  | .owing _ _ drains => 2 * drains + 2
  | .draining _ _ _ later => 2 * later + 3
  | .executing _ => 7

/-- The work before the worker thread. -/
def Threads.load (s : Threads) : Nat := 8 * s.tasks_.length + s.worker.work

/-- How far the present call is from its return. -/
def Caller.rank : Caller → Nat
  | .idle => 0
  | .configureWait _ | .stopping => 1
  | .configuring | .releaseWait _ => 2
  | .releasing => 3

/-- `ProcessOneFrame` does not wait for a drain that never comes. -/
def OwesDrain (s : Threads) : Prop := ∀ ticket f drains, s.worker = .owing ticket f drains → drains ≠ 0

variable {s t : Threads} {log out : List Trace}

theorem feedFrame_drains_le (s : Impl) (f : EncodedFrame) (r : InputResponse) : (feedFrame s f r).2.2.2 ≤ 2 := by
  unfold feedFrame
  split
  · exact Nat.zero_le _
  · dsimp only
    split
    · exact Nat.zero_le _
    · split
      · exact one_le_two
      · split
        · exact Nat.zero_le _
        · split
          · exact Nat.le_refl _
          · exact Nat.zero_le _

theorem Worker.work_owing_le (ticket : Nat) (f : EncodedFrame) (drains : Nat) :
    (if drains = 0 then Worker.finished else .owing ticket f drains).work ≤ 2 * drains + 2 := by
  split
  · simp only [Worker.work]
    omega
  · exact Nat.le_refl _

/-- Every step of the worker is a step towards the end of its work. -/
theorem WorkerMove.load_lt {e : WorkerEvent} (move : WorkerMove s e t out) : t.load < s.load := by
  cases move with
  | exits stopped here =>
    unfold Threads.load
    rcases here with here | ⟨here, _⟩ <;> simp [here, Worker.work]
  | waits running here empty =>
    unfold Threads.load
    simp [here, Worker.work]
  | takes queue here =>
    unfold Threads.load
    rcases here with ⟨here, _⟩ | here <;> simp only [here, queue, Worker.work, List.length_cons] <;> omega
  | @feeds ticket f r here =>
    have few := feedFrame_drains_le s.impl f r
    have left := Worker.work_owing_le ticket f (feedFrame s.impl f r).2.2.2
    simp only [Threads.load, fed, here, Worker.work] at left ⊢
    omega
  | drains here =>
    simp only [Threads.load, here, Worker.work]
    omega
  | @drained ticket f cb later responses here =>
    have left := Worker.work_owing_le ticket f later
    simp only [Threads.load, afterDrain, here, Worker.work] at left ⊢
    omega
  | configures r here =>
    obtain ⟨queue, _⟩ := configureOnWorker_frame s r
    simp only [Threads.load, queue, here, Worker.work]
    omega
  | destroys here =>
    simp only [Threads.load, destroyCodec, here, Worker.work]
    omega

theorem OwesDrain.workerMove {e : WorkerEvent} (move : WorkerMove s e t out) : OwesDrain t := by
  intro ticket f drains here
  cases move with
  | feeds r _ =>
    simp only [fed] at here
    split at here
    · cases here
    · rename_i some
      cases here
      exact some
  | drained responses _ =>
    simp only [afterDrain] at here
    split at here
    · cases here
    · rename_i some
      cases here
      exact some
  | exits | waits | takes | drains | configures | destroys => cases here

theorem OwesDrain.step {e : ThreadEvent} (owes : OwesDrain s) (run : threadStep s e = some (t, out)) : OwesDrain t := by
  rcases threadStep_cases run with ⟨c, _, move⟩ | ⟨w, _, move⟩ | ⟨pool, rfl, rfl⟩
  · cases move with
    | starts _ =>
      intro ticket f drains here
      dsimp only at here
      split at here
      · exact owes ticket f drains here
      · cases here
    | joins _ _ =>
      intro ticket f drains here
      cases here
    | rejects | accepts | registers | pushes | returns | releases | clears | stops => exact owes
  · exact .workerMove move
  · exact owes

/-- A worker that has a job, or one before it, can go on. -/
theorem workerStep_of_free (owes : OwesDrain s) (free : s.worker.Free) (running : s.running_ = true)
    (queue : s.worker.Resting → s.tasks_ ≠ []) : ∃ e, (workerStep s e).isSome := by
  cases here : s.worker with
  | waiting =>
    obtain ⟨job, rest, jobs⟩ := List.exists_cons_of_ne_nil (queue (.inl here))
    exact ⟨.take, by simp [workerStep, takeJob, here, running, jobs]⟩
  | finished =>
    obtain ⟨job, rest, jobs⟩ := List.exists_cons_of_ne_nil (queue (.inr here))
    exact ⟨.take, by simp [workerStep, takeJob, here, jobs]⟩
  | owing ticket f drains =>
    obtain ⟨later, rfl⟩ := Nat.exists_eq_succ_of_ne_zero (owes ticket f drains here)
    exact ⟨.drain, by simp [workerStep, here]⟩
  | draining ticket f cb later => exact ⟨.drained [], by simp [workerStep, here]⟩
  | executing job =>
    rw [here] at free
    cases job with
    | frame ticket f => exact ⟨.feed ⟨none, none, false⟩, by simp [workerStep, here]⟩
    | configure call => exact free.elim
    | destroy call => exact free.elim
  | none =>
    rw [here] at free
    exact free.elim
  | exited =>
    rw [here] at free
    exact free.elim

/-- While a call waits for its job, the worker can go on or the call can return. -/
theorem Awaits.workerStep {job : Job} {call : Nat} (awaits : Awaits s job call) (owes : OwesDrain s)
    (kind : job = .configure call ∨ job = .destroy call) :
    call ∈ s.done ∨ ∃ e, (workerStep s e).isSome := by
  rcases awaits.place with ⟨alone, free, _⟩ | ⟨_, executing, _⟩ | ⟨_, _, ready⟩
  · refine .inr (workerStep_of_free owes free awaits.running fun _ => ?_)
    rw [alone]
    exact List.cons_ne_nil job []
  · rcases kind with rfl | rfl
    · exact .inr ⟨.configureOnWorker ⟨false, false, false, none⟩, by simp [Decoder.workerStep, executing]⟩
    · exact .inr ⟨.destroyCodec, by simp [Decoder.workerStep, executing]⟩
  · exact .inl ready

/-- A call in progress never leaves both threads stuck. -/
theorem Places.threadStep (places : Places s) (owes : OwesDrain s) (busy : s.caller ≠ .idle) :
    ∃ e, (threadStep s e).isSome := by
  have phase := places.phase
  cases here : s.caller with
  | idle => exact absurd here busy
  | configuring => exact ⟨.caller .configurePush, by simp [Decoder.threadStep, callerStep, here]⟩
  | configureWait call =>
    rcases ((Phase.configureWait here).mp phase).workerStep owes (.inl rfl) with ready | ⟨e, possible⟩
    · exact ⟨.caller .configureReturn, by simp [Decoder.threadStep, callerStep, here, ready]⟩
    · exact ⟨.worker e, possible⟩
  | releasing => exact ⟨.caller .releasePush, by simp [Decoder.threadStep, callerStep, here]⟩
  | releaseWait call =>
    rcases (Phase.releaseWait here).mp phase with ⟨awaits, _⟩ | quiet
    · rcases awaits.workerStep owes (.inr rfl) with ready | ⟨e, possible⟩
      · exact ⟨.caller .releaseStop, by simp [Decoder.threadStep, callerStep, here, ready]⟩
      · exact ⟨.worker e, possible⟩
    · exact ⟨.caller .releaseStop, by simp [Decoder.threadStep, callerStep, here, quiet.stopped]⟩
  | stopping =>
    obtain ⟨stopped, empty, _, place⟩ := (Phase.stopping here).mp phase
    rcases place with gone | gone | resting | resting
    · exact ⟨.caller .releaseReturn, by simp [Decoder.threadStep, callerStep, here, gone]⟩
    · exact ⟨.caller .releaseReturn, by simp [Decoder.threadStep, callerStep, here, gone]⟩
    · exact ⟨.worker .take, by simp [Decoder.threadStep, Decoder.workerStep, takeJob, resting, stopped]⟩
    · exact ⟨.worker .take, by simp [Decoder.threadStep, Decoder.workerStep, takeJob, resting, empty]⟩

/-- The steps of a call bring its return nearer. -/
theorem CallerMove.rank_lt {e : CallerEvent} (move : CallerMove s e t out) (busy : s.caller ≠ .idle) :
    t.caller.rank < s.caller.rank := by
  cases move with
  | rejects here | accepts here | registers _ here | starts here | releases here => exact absurd here busy
  | pushes here | returns here | clears here | stops here | joins here => simp [here, Caller.rank]

theorem WorkerMove.caller {e : WorkerEvent} (move : WorkerMove s e t out) : t.caller = s.caller := by
  cases move with
  | configures r _ => exact (configureOnWorker_frame s r).2.2.1
  | exits | waits | takes | feeds | drains | drained | destroys => rfl

theorem live_destroy_lt {pool : PoolState} {number : Nat} {frame : PooledI420}
    (found : pool.live.find? (·.number = number) = some frame) : (destroy pool frame).live.length < pool.live.length := by
  have inside : frame ∈ pool.live := List.mem_of_find?_eq_some found
  refine List.length_filter_lt_length_iff_exists.mpr ⟨frame, inside, ?_⟩
  simp

/-- What is left of a call: its own steps, those of the worker, and the
pictures that others may still destroy. -/
def Threads.rank (s : Threads) : ℕ ×ₗ ℕ ×ₗ ℕ := toLex (s.caller.rank, toLex (s.load, s.impl.pool.live.length))

theorem rank_lt {e : ThreadEvent} (run : threadStep s e = some (t, out)) (busy : s.caller ≠ .idle) : t.rank < s.rank := by
  cases e with
  | caller c => exact Prod.Lex.toLex_lt_toLex.mpr (.inl ((callerMove_of_step run).rank_lt busy))
  | worker w =>
    have move := workerMove_of_step run
    exact Prod.Lex.toLex_lt_toLex.mpr (.inr ⟨congrArg Caller.rank move.caller, Prod.Lex.toLex_lt_toLex.mpr (.inl move.load_lt)⟩)
  | destroyFrame number =>
    obtain ⟨frame, found, same⟩ := Option.map_eq_some_iff.mp run
    cases same
    exact Prod.Lex.toLex_lt_toLex.mpr (.inr ⟨rfl, Prod.Lex.toLex_lt_toLex.mpr (.inr ⟨rfl, live_destroy_lt found⟩)⟩)

theorem owesDrain_of_reach (reach : decoderThreads.Reach Machine.Always s log) : OwesDrain s := by
  refine reach.invariant (P := fun s _ => OwesDrain s) ?_ fun s log e t out owes _ run => owes.step run
  intro ticket f drains here
  cases here

/-- `Configure` and `Release` return, whatever the codec answers and however
the threads are scheduled. -/
theorem calls_return (reach : decoderThreads.Reach Machine.Always s log) :
    decoderThreads.Inevitable (fun _ => True) (fun t => t.caller = .idle) s := by
  refine Machine.Inevitable.of_rank (I := fun s => Places s ∧ OwesDrain s) Threads.rank ?_ ?_
    ⟨(decoderThreads_kept reach).places, owesDrain_of_reach reach⟩
  · rintro s ⟨places, owes⟩ busy
    obtain ⟨e, possible⟩ := places.threadStep owes busy
    obtain ⟨⟨t, out⟩, run⟩ := Option.isSome_iff_exists.mp possible
    exact ⟨e, t, out, trivial, run⟩
  · rintro s e t out ⟨places, owes⟩ busy _ run
    exact ⟨⟨places.step run, owes.step run⟩, rank_lt run busy⟩

/-- `Release` right after a frame was accepted and before the worker has taken it. -/
theorem calls_return_release :
    ∃ s : Threads, s.caller = .releaseWait 1 ∧ s.tasks_ = [.destroy 1] ∧
      decoderThreads.Inevitable (fun _ => True) (fun t => t.caller = .idle) s := by
  refine ⟨_, rfl, rfl, calls_return (.ofExec _
    [.caller .configure, .caller .configurePush, .worker .take, .worker (.configureOnWorker ⟨true, true, true, none⟩),
      .caller .configureReturn, .caller (.decode ⟨[0, 0, 0, 1, 101], ⟨0, 0, none⟩, true⟩), .caller .release,
      .caller .releasePush] rfl (Machine.meets_always _ _))⟩

/-! Without calls the worker works off what was accepted. -/

/-- Steps of the worker, and pictures that are destroyed. -/
def NotCalling : ThreadEvent → Prop
  | .caller _ => False
  | .worker _ | .destroyFrame _ => True

theorem Live.step {e : ThreadEvent} (live : Live s) (allowed : NotCalling e) (run : threadStep s e = some (t, out)) :
    Live t ∧ t.caller = s.caller := by
  rcases threadStep_cases run with ⟨c, rfl, _⟩ | ⟨w, _, move⟩ | ⟨pool, rfl, rfl⟩
  · exact allowed.elim
  · obtain ⟨still, caller, _⟩ := live.workerMove move
    exact ⟨still, caller⟩
  · exact ⟨⟨live.running, live.free, live.frames⟩, rfl⟩

/-- The frames that were pending are the ones processed, and those still pending. -/
theorem pending_step {e : ThreadEvent} (allowed : NotCalling e) (run : threadStep s e = some (t, out)) :
    processedFrames out ++ t.pending = s.pending := by
  rcases threadStep_cases run with ⟨c, rfl, _⟩ | ⟨w, _, move⟩ | ⟨pool, rfl, rfl⟩
  · exact allowed.elim
  · exact move.pending.1
  · rfl

theorem pending_exec {es : List ThreadEvent} (allowed : ∀ e ∈ es, NotCalling e)
    (run : decoderThreads.exec s es = some (t, out)) : processedFrames out ++ t.pending = s.pending := by
  induction es generalizing s out with
  | nil =>
    cases run
    rfl
  | cons e es ih =>
    obtain ⟨middle, first, rest, step, later, rfl⟩ := Machine.exec_cons run
    have remaining := ih (fun e inside => allowed e (List.mem_cons_of_mem _ inside)) later
    have taken := pending_step (allowed e List.mem_cons_self) step
    rw [processedFrames, List.filterMap_append, List.append_assoc]
    exact (congrArg (processedFrames first ++ ·) remaining).trans taken

theorem load_step {e : ThreadEvent} (allowed : NotCalling e) (run : threadStep s e = some (t, out)) :
    toLex (t.load, t.impl.pool.live.length) < toLex (s.load, s.impl.pool.live.length) := by
  cases e with
  | caller c => exact allowed.elim
  | worker w => exact Prod.Lex.toLex_lt_toLex.mpr (.inl (workerMove_of_step run).load_lt)
  | destroyFrame number =>
    obtain ⟨frame, found, same⟩ := Option.map_eq_some_iff.mp run
    cases same
    exact Prod.Lex.toLex_lt_toLex.mpr (.inr ⟨rfl, live_destroy_lt found⟩)

/-- The worker has worked off everything and waits. -/
def Idle (s : Threads) : Prop := s.worker = .waiting ∧ s.tasks_ = []

theorem Live.workerStep (live : Live s) (owes : OwesDrain s) (busy : ¬Idle s) : ∃ e, (workerStep s e).isSome := by
  by_cases atEnd : s.worker = .finished ∧ s.tasks_ = []
  · exact ⟨.take, by simp [Decoder.workerStep, takeJob, atEnd]⟩
  · refine workerStep_of_free owes live.free live.running fun resting empty => ?_
    rcases resting with here | here
    · exact busy ⟨here, empty⟩
    · exact atEnd ⟨here, empty⟩

/-- While no call is made the worker comes to rest, and every frame that was
pending is processed by then, in order; at any time before, the processed
frames and those still pending are the ones that were pending. -/
theorem pending_processed (reach : decoderThreads.Reach Machine.Always s log) (noCall : s.caller = .idle)
    (running : s.running_ = true) :
    decoderThreads.Inevitable NotCalling (fun t => Idle t ∧ t.pending = []) s ∧
      ∀ es t out, (∀ e ∈ es, NotCalling e) → decoderThreads.exec s es = some (t, out) →
        processedFrames out ++ t.pending = s.pending := by
  refine ⟨?_, fun es t out allowed run => pending_exec allowed run⟩
  have live : Live s := by
    rcases (Phase.idle noCall).mp (decoderThreads_kept reach).places.phase with live | quiet
    · exact live
    · exact absurd (quiet.stopped.symm.trans running) (by decide)
  refine Machine.Inevitable.of_rank (I := fun s => Live s ∧ OwesDrain s)
    (fun s => toLex (s.load, s.impl.pool.live.length)) ?_ ?_ ⟨live, owesDrain_of_reach reach⟩
  · rintro s ⟨live, owes⟩ busy
    obtain ⟨e, possible⟩ := live.workerStep owes fun idle => busy
      ⟨idle, (pending_of_resting (.inl idle.1)).trans (by rw [idle.2]; rfl)⟩
    obtain ⟨⟨t, out⟩, run⟩ := Option.isSome_iff_exists.mp possible
    exact ⟨.worker e, t, out, trivial, run⟩
  · rintro s e t out ⟨live, owes⟩ busy allowed run
    exact ⟨⟨(live.step allowed run).1, owes.step run⟩, load_step allowed run⟩

/-- Two frames wait while the first is with the codec. -/
theorem pending_processed_two :
    ∃ s : Threads, s.pending.map Prod.fst = [1, 2] ∧
      decoderThreads.Inevitable NotCalling (fun t => Idle t ∧ t.pending = []) s := by
  refine ⟨_, ?_, (pending_processed (.ofExec _
    [.caller .configure, .caller .configurePush, .worker .take, .worker (.configureOnWorker ⟨true, true, true, none⟩),
      .caller .configureReturn, .caller (.decode ⟨[0, 0, 0, 1, 101], ⟨0, 0, none⟩, true⟩), .worker .take,
      .worker (.feed ⟨some 0, some 100, true⟩), .caller (.decode ⟨[0, 0, 0, 1, 65], ⟨0, 0, none⟩, false⟩),
      .caller (.decode ⟨[0, 0, 0, 1, 66], ⟨0, 0, none⟩, false⟩)] rfl (Machine.meets_always _ _)) rfl rfl).1⟩
  decide

end WebRtcDemo.Decoder
