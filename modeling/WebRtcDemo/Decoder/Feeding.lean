import WebRtcDemo.Decoder.WorkerProtocol

namespace WebRtcDemo.Decoder

/-! What of the accepted frames reaches the codec. -/

/-- After a `Configure` that succeeded: nothing is left to do. -/
structure Configured (s : Threads) : Prop where
  idle : s.caller = .idle
  codec : s.impl.codec = true
  noTask : s.tasks_ = []
  resting : s.worker.Resting

/-- When `Configure` returns and there is a codec, the decoder is configured. -/
theorem configured_of_return {s t : Threads} {log out : List Trace} (reach : decoderThreads.Reach Machine.Always s log)
    (run : threadStep s (.caller .configureReturn) = some (t, out)) (codec : t.impl.codec = true) : Configured t := by
  have move : CallerMove s .configureReturn t out := callerMove_of_step run
  cases move with
  | returns here ready =>
    have awaits := (Phase.configureWait here).mp (decoderThreads_kept reach).places.phase
    rcases awaits.place with ⟨_, _, missing⟩ | ⟨_, _, missing⟩ | ⟨empty, resting, _⟩
    · exact absurd ready missing
    · exact absurd ready missing
    · exact ⟨rfl, codec, empty, resting⟩

/-- The same threads from a later state on. -/
def decoderFrom (s : Threads) : Machine Threads ThreadEvent Trace := ⟨s, threadStep⟩

/-- Neither `Configure` nor `Release` is called. -/
def Undisturbed : ThreadEvent → Prop
  | .caller .configure | .caller .release => False
  | _ => True

instance : DecidablePred Undisturbed
  | .caller .configure | .caller .release => isFalse id
  | .caller (.decode _) | .caller (.registerDecodeCompleteCallback _) | .caller .configurePush
  | .caller .configureReturn | .caller .releasePush | .caller .releaseStop | .caller .releaseReturn
  | .worker _ | .destroyFrame _ => isTrue trivial

def Trace.queued? : Trace → Option Bytes
  | .queued _ bytes => some bytes
  | _ => none

/-- The inputs that the codec took, in order. -/
def queuedInputs (log : List Trace) : List Bytes := log.filterMap Trace.queued?

/-- A frame as the codec is fed with it: in Annex B form as it is, else converted. -/
def inputOf (frame : Nat × EncodedFrame) : Bytes := feedOf frame.2.data

/-- A `Decode` call failed after a frame was lost. -/
def ErrorAfterLoss (log : List Trace) : Prop :=
  ∃ before ticket f after, log = before ++ .processed ticket f :: after ∧
    (∀ bytes, .queued ticket bytes ∉ after) ∧ .rejected ∈ after

/-- The codec gets the accepted frames, in order and none missing, or a later `Decode` tells. -/
def NoSilentLoss (s : Threads) (log : List Trace) : Prop :=
  queuedInputs log ++ s.pending.map inputOf = (acceptedFrames log).map inputOf ∨ ErrorAfterLoss log

/-- The codec has an input buffer for the frame, it is large enough, and it is accepted. -/
def Served (s : Threads) : ThreadEvent → Prop
  | .worker (.feed r) => match s.worker with
    | .executing (.frame _ f) =>
      r.dequeueInput.isSome = true ∧ tooSmall r.inputCap (feedOf f.data).length = false ∧ r.queueInputOk = true
    | _ => True
  | _ => True

instance (s : Threads) : DecidablePred (Served s)
  | .worker (.feed r) =>
    match atWorker : s.worker with
    | .executing (.frame _ f) => decidable_of_iff
      (r.dequeueInput.isSome = true ∧ tooSmall r.inputCap (feedOf f.data).length = false ∧ r.queueInputOk = true)
      (by simp only [Served, atWorker])
    | .executing (.configure _) | .executing (.destroy _) | .none | .waiting | .owing _ _ _ | .draining _ _ _ _
    | .finished | .exited => isTrue (by simp only [Served, atWorker])
  | .worker .take | .worker .drain | .worker (.drained _) | .worker (.configureOnWorker _) | .worker .destroyCodec
  | .caller _ | .destroyFrame _ => isTrue trivial

/-! No frame is empty in the form in which it is fed. -/

theorem splitFrom_ne_nil (d : Bytes) : ∀ nal ∈ splitFrom d, nal ≠ [] := by
  fun_induction splitFrom d with
  | case1 d n found rest nal ih =>
    intro part inside
    rcases List.mem_append.mp inside with first | later
    · split at first
      · cases first
      · rename_i nonempty
        rw [List.mem_singleton.mp first]
        exact nonempty
    · exact ih part later
  | case2 => simp
  | case3 b d found ih => exact ih

theorem feedOf_ne_nil {data : Bytes} (nonempty : data ≠ []) : feedOf data ≠ [] := by
  unfold feedOf annexBToAvcc
  split
  · exact nonempty
  · split
    · simp [lengthField]
    · rename_i nal nals parts
      have first : nal ≠ [] := by
        unfold splitAnnexB at parts
        split at parts
        · cases parts
        · exact splitFrom_ne_nil data nal (by rw [parts]; exact List.mem_cons_self)
      rw [List.flatMap_cons, if_neg first]
      simp [lengthField]

/-- A frame that is served is queued as a whole. -/
theorem feedFrame_served {s : Impl} {f : EncodedFrame} {r : InputResponse} (codec : s.codec = true)
    (nonempty : f.data ≠ []) (buffer : r.dequeueInput.isSome = true)
    (fits : tooSmall r.inputCap (feedOf f.data).length = false) (accepted : r.queueInputOk = true) :
    (feedFrame s f r).2.1 = [feedOf f.data] := by
  obtain ⟨index, atIndex⟩ := Option.isSome_iff_exists.mp buffer
  unfold feedFrame
  rw [if_neg (by simp [codec, nonempty])]
  dsimp only
  rw [if_neg (feedOf_ne_nil nonempty), atIndex]
  dsimp only
  rw [if_neg (by simp [fits]), if_pos accepted]

/-- What is kept while the decoder is undisturbed and every frame is served. -/
structure Feeding (s : Threads) (log : List Trace) : Prop where
  places : Places s
  idle : s.caller = .idle
  codec : s.impl.codec = true
  nonempty : ∀ frame ∈ s.pending, frame.2.data ≠ []
  complete : queuedInputs log ++ s.pending.map inputOf = (acceptedFrames log).map inputOf

theorem queuedInputs_append (log out : List Trace) :
    queuedInputs (log ++ out) = queuedInputs log ++ queuedInputs out := List.filterMap_append ..

theorem acceptedFrames_append (log out : List Trace) :
    acceptedFrames (log ++ out) = acceptedFrames log ++ acceptedFrames out := List.filterMap_append ..

/-- Each step of a served worker queues what it processes. -/
theorem WorkerMove.queued {s t : Threads} {w : WorkerEvent} {out : List Trace} (move : WorkerMove s w t out)
    (live : Live s) (codec : s.impl.codec = true) (nonempty : ∀ frame ∈ s.pending, frame.2.data ≠ [])
    (served : Served s (.worker w)) :
    queuedInputs out = (processedFrames out).map inputOf ∧ t.impl.codec = true := by
  cases move with
  | exits | waits | takes | drains => exact ⟨rfl, codec⟩
  | @feeds ticket f r here =>
    refine ⟨?_, (feedFrame_codec s.impl f r).trans codec⟩
    have data : f.data ≠ [] := nonempty (ticket, f) (by simp [Threads.pending, here, Job.frame?])
    simp only [Served, here] at served
    have bytes := feedFrame_served codec data served.1 served.2.1 served.2.2
    have noCodec (out : List CodecAction) : out.filterMap (Trace.queued? ∘ .codec) = [] := by
      simp [Function.comp_def, Trace.queued?]
    have noFrame := filterMap_of_kind (isWork_drained (feedFrame s.impl f r).2.2.1) Trace.processed?_isWork
    rw [bytes]
    simp only [queuedInputs, processedFrames, List.map_cons, List.map_nil, List.cons_append, List.nil_append,
      List.filterMap_cons, Trace.queued?, Trace.processed?, noFrame, List.filterMap_map, noCodec, inputOf]
  | @drained ticket f cb later responses here =>
    refine ⟨?_, (drainOutputs_codec _ _ _).trans codec⟩
    have noFrame := filterMap_of_kind
      (isWork_drained (drainOutputs f.metadata { s.impl with callback := cb } responses).2.1) Trace.processed?_isWork
    rw [processedFrames, noFrame, queuedInputs, List.filterMap_map]
    simp [Function.comp_def, Trace.queued?]
  | configures r here =>
    have free := live.free
    rw [here] at free
    exact free.elim
  | destroys here =>
    have free := live.free
    rw [here] at free
    exact free.elim

theorem Feeding.live {s : Threads} {log : List Trace} (feeding : Feeding s log) : Live s := by
  rcases (Phase.idle feeding.idle).mp feeding.places.phase with live | quiet
  · exact live
  · exact absurd (quiet.noCodec.symm.trans feeding.codec) (by decide)

theorem Feeding.step {s t : Threads} {e : ThreadEvent} {log out : List Trace} (feeding : Feeding s log)
    (undisturbed : Undisturbed e) (served : Served s e) (run : threadStep s e = some (t, out)) :
    Feeding t (log ++ out) := by
  have places := feeding.places.step run
  have live := feeding.live
  obtain ⟨before, idle, codec, nonempty, complete⟩ := feeding
  -- entries that no view of the log shows, and the same frames still to come
  have same (pending : t.pending = s.pending) (caller : t.caller = .idle) (present : t.impl.codec = true)
      (noInput : queuedInputs out = []) (noFrame : acceptedFrames out = []) : Feeding t (log ++ out) := by
    refine ⟨places, caller, present, pending ▸ nonempty, ?_⟩
    rw [queuedInputs_append, acceptedFrames_append, noInput, noFrame, List.append_nil, List.append_nil, pending]
    exact complete
  rcases threadStep_cases run with ⟨c, rfl, move⟩ | ⟨w, rfl, move⟩ | ⟨pool, rfl, rfl⟩
  · cases move with
    | rejects => exact same rfl idle codec rfl rfl
    | @accepts f _ data _ =>
      have pending : Threads.pending { s with tasks_ := s.tasks_ ++ [.frame s.accepted f], accepted := s.accepted + 1 } =
          s.pending ++ [(s.accepted, f)] := by
        simp [Threads.pending, List.filterMap_append, Job.frame?]
      refine ⟨places, idle, codec, ?_, ?_⟩
      · rw [pending]
        exact List.forall_mem_append.mpr ⟨nonempty, by simpa using data⟩
      · rw [pending, queuedInputs_append, acceptedFrames_append, List.map_append, List.map_append, ← complete]
        simp [queuedInputs, acceptedFrames, Trace.queued?, Trace.accepted?]
    | registers => exact same rfl idle codec rfl rfl
    | starts => exact undisturbed.elim
    | releases => exact undisturbed.elim
    | pushes here | returns here | clears here | stops here | joins here =>
      rw [idle] at here
      cases here
  · obtain ⟨taken, noFrame, _⟩ := move.pending
    obtain ⟨queued, present⟩ := move.queued live codec nonempty served
    refine ⟨places, (live.workerMove move).2.1.trans idle, present, ?_, ?_⟩
    · intro frame inside
      refine nonempty frame ?_
      rw [← taken]
      exact List.mem_append_right _ inside
    · rw [queuedInputs_append, acceptedFrames_append, noFrame, List.append_nil, queued, List.append_assoc,
        ← List.map_append, taken]
      exact complete
  · exact same rfl idle codec rfl rfl

/-- While neither `Configure` nor `Release` is called and the codec serves
every frame, it gets all accepted frames in order. -/
theorem decoderFrom_noSilentLoss {s₀ s : Threads} {log₀ log : List Trace}
    (reach : decoderThreads.Reach Machine.Always s₀ log₀) (configured : Configured s₀)
    (run : (decoderFrom s₀).Reach (fun s e => Undisturbed e ∧ Served s e) s log) : NoSilentLoss s log := by
  have none : s₀.pending = [] := by
    rw [pending_of_resting configured.resting, configured.noTask]
    rfl
  have start : Feeding s₀ [] := by
    refine ⟨(decoderThreads_kept reach).places, configured.idle, configured.codec, ?_, ?_⟩
    · intro frame inside
      rw [none] at inside
      cases inside
    · rw [none]
      rfl
  have feeding : Feeding s log :=
    run.invariant start fun _ _ _ _ _ held admitted step => held.step admitted.1 admitted.2 step
  exact Or.inl feeding.complete

/-- A fresh decoder after a successful `Configure`. -/
def configureEvents : List ThreadEvent :=
  [.caller .configure, .caller .configurePush, .worker .take, .worker (.configureOnWorker ⟨true, true, true, none⟩),
    .caller .configureReturn]

/-- Two frames, of which the second is still in the queue. -/
theorem decoderFrom_noSilentLoss_two :
    ∃ s₀ s log, decoderThreads.Reach Machine.Always s₀ [.configureCalled, .created 0, .configureReturned] ∧
      NoSilentLoss s log ∧ queuedInputs log = [[0, 0, 0, 1, 101]] ∧ s.pending ≠ [] := by
  have reach := Machine.Reach.ofExec (M := decoderThreads) Machine.Always configureEvents rfl (Machine.meets_always _ _)
  refine ⟨_, _, _, reach, decoderFrom_noSilentLoss reach ⟨rfl, rfl, rfl, Or.inr rfl⟩ (.ofExec _
    [.caller (.decode ⟨[0, 0, 0, 1, 101], ⟨0, 0, none⟩, true⟩), .worker .take,
      .caller (.decode ⟨[0, 0, 0, 1, 65], ⟨0, 0, none⟩, false⟩), .worker (.feed ⟨some 0, some 100, true⟩)]
    rfl (by decide)), ?_, ?_⟩ <;> decide

/-- The codec has no input buffer free for the key frame; the next `Decode` answers OK. -/
theorem not_decoderFrom_noSilentLoss :
    ¬∀ (s₀ s : Threads) (log₀ log : List Trace), decoderThreads.Reach Machine.Always s₀ log₀ → Configured s₀ →
      (decoderFrom s₀).Reach (fun _ e => Undisturbed e) s log → NoSilentLoss s log := by
  intro always
  have reach := Machine.Reach.ofExec (M := decoderThreads) Machine.Always configureEvents rfl (Machine.meets_always _ _)
  have claim := always _ _ _ _ reach ⟨rfl, rfl, rfl, Or.inr rfl⟩ (.ofExec _
    [.caller (.decode ⟨[0, 0, 0, 1, 101], ⟨0, 0, none⟩, true⟩), .worker .take, .worker (.feed ⟨none, none, false⟩),
      .worker .drain, .worker (.drained []), .caller (.decode ⟨[0, 0, 0, 1, 65], ⟨0, 0, none⟩, false⟩), .worker .take,
      .worker (.feed ⟨some 0, some 100, true⟩)]
    rfl (by decide))
  rcases claim with complete | ⟨before, ticket, f, after, split, _, failed⟩
  · revert complete
    decide
  · have inLog : Trace.rejected ∈ before ++ .processed ticket f :: after := by simp [failed]
    rw [← split] at inLog
    revert inLog
    decide

end WebRtcDemo.Decoder
