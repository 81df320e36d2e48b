import WebRtcDemo.Timing.SinkMaps

/-! The latency from `Decoded` to `OnFrame`, which the worker and the sink measure together. -/

namespace WebRtcDemo.Timing

open TakeOnce

/-- The worker in `DrainOutputs`: in the `Decoded` call of a frame, or with the
time that it has read behind the call. -/
inductive DecodedStep
  | idle
  | calling (rtp : UInt32)
  | read (rtp : UInt32) (t_after_decoded_cb : Int)
  deriving DecidableEq, Repr

/-- `sink` is the frame that `OnFrame` was entered for, with its
`t_onframe_us`. The lists are history: the frames whose `Decoded` was called,
the times that the worker has read, the frames that were recorded, and those
whose `OnFrame` was entered and has looked its frame up. -/
structure Latency where
  maps : SinkMaps := {}
  clock : Int := 0
  worker : DecodedStep := .idle
  sink : Option (UInt32 × Int) := none
  called : List UInt32 := []
  returned : List (UInt32 × Int) := []
  recorded : List UInt32 := []
  entered : List UInt32 := []
  looked : List UInt32 := []

/-- The steps of the two threads. Each reading of the clock brings its time. -/
inductive LatencyEvent
  | decoded (rtp : UInt32)
  | readClock (now : Int)
  | record
  | onFrame (rtp : UInt32) (now : Int)
  | take
  deriving DecidableEq, Repr

/-- The times that are read, and the `de` that `OnFrame` computes. -/
inductive LatencyAction
  | returned (rtp : UInt32) (time : Int)
  | entered (rtp : UInt32) (time : Int)
  | de (rtp : UInt32) (us : Int)
  deriving DecidableEq, Repr

/-- The frames have different timestamps, and `OnFrame` of a frame runs once,
at some time after its `Decoded` was called. -/
def latencyStep (s : Latency) : LatencyEvent → Option (Latency × List LatencyAction)
  | .decoded rtp =>
    if s.worker = .idle ∧ rtp ∉ s.called then some ({ s with worker := .calling rtp, called := rtp :: s.called }, [])
    else none
  | .readClock now =>
    match s.worker with
    | .calling rtp =>
      if s.clock ≤ now then
        some ({ s with worker := .read rtp now, clock := now, returned := (rtp, now) :: s.returned }, [.returned rtp now])
      else none
    | _ => none
  | .record =>
    match s.worker with
    | .read rtp time =>
      some ({ s with
        worker := .idle, maps := decodeSinkRecordAfterDecoded s.maps rtp time, recorded := rtp :: s.recorded }, [])
    | _ => none
  | .onFrame rtp now =>
    if s.sink = none ∧ rtp ∈ s.called ∧ rtp ∉ s.entered ∧ s.clock ≤ now then
      some ({ s with sink := some (rtp, now), clock := now, entered := rtp :: s.entered }, [.entered rtp now])
    else none
  | .take =>
    match s.sink with
    | some (rtp, t_onframe_us) =>
      let (t_after_decoded, maps) := decodeSinkTakeDecodedReturn s.maps rtp true
      some ({ s with maps := maps, sink := none, looked := rtp :: s.looked },
        t_after_decoded.toList.map fun t => .de rtp (t_onframe_us - t))
    | none => none

def latency : Machine Latency LatencyEvent LatencyAction := ⟨{}, latencyStep⟩

/-- Every `de` is the time from the return of `Decoded` of its frame to the
entry of `OnFrame`, and no `OnFrame` leaves an entry of its own frame. -/
def Meaningful (s : Latency) (log : List LatencyAction) : Prop :=
  (∀ rtp us, .de rtp us ∈ log → 0 ≤ us ∧
    ∃ back here, .returned rtp back ∈ log ∧ .entered rtp here ∈ log ∧ us = here - back) ∧
  ∀ rtp ∈ s.looked, rtp ∉ s.maps.g_decoded_return_us

/-- The sink reads its clock after the worker has, and looks the frame up after
the worker has recorded it. -/
def SinkFollows (s : Latency) : LatencyEvent → Prop
  | .onFrame rtp _ => ∃ time, (rtp, time) ∈ s.returned
  | .take => ∀ rtp time, s.sink = some (rtp, time) → rtp ∈ s.recorded
  | .decoded _ | .readClock _ | .record => True

/-! The steps. -/

variable {s t : Latency} {e : LatencyEvent} {log out : List LatencyAction}

/-- What a step can do. -/
inductive LatencyMove (s : Latency) : LatencyEvent → Latency → List LatencyAction → Prop
  | calls {rtp : UInt32} (fresh : rtp ∉ s.called) :
    LatencyMove s (.decoded rtp) { s with worker := .calling rtp, called := rtp :: s.called } []
  | reads {rtp : UInt32} {now : Int} (calling : s.worker = .calling rtp) (later : s.clock ≤ now) :
    LatencyMove s (.readClock now)
      { s with worker := .read rtp now, clock := now, returned := (rtp, now) :: s.returned } [.returned rtp now]
  | records {rtp : UInt32} {time : Int} (read : s.worker = .read rtp time) :
    LatencyMove s .record
      { s with worker := .idle, maps := decodeSinkRecordAfterDecoded s.maps rtp time, recorded := rtp :: s.recorded } []
  | enters {rtp : UInt32} {now : Int} (later : s.clock ≤ now) :
    LatencyMove s (.onFrame rtp now) { s with sink := some (rtp, now), clock := now, entered := rtp :: s.entered }
      [.entered rtp now]
  | looksUp {rtp : UInt32} {time : Int} (entered : s.sink = some (rtp, time)) :
    LatencyMove s .take
      { s with
        maps := { s.maps with g_decoded_return_us := s.maps.g_decoded_return_us.erase rtp }
        sink := none
        looked := rtp :: s.looked }
      ((s.maps.g_decoded_return_us.lookup rtp).toList.map fun back => .de rtp (time - back))

theorem latencyMove_of_step (run : latencyStep s e = some (t, out)) : LatencyMove s e t out := by
  cases e with
  | decoded rtp =>
    simp only [latencyStep, Option.ite_none_right_eq_some, Option.some.injEq, Prod.mk.injEq] at run
    obtain ⟨⟨_, fresh⟩, rfl, rfl⟩ := run
    exact .calls fresh
  | readClock now =>
    simp only [latencyStep] at run
    split at run
    · rename_i rtp calling
      simp only [Option.ite_none_right_eq_some, Option.some.injEq, Prod.mk.injEq] at run
      obtain ⟨later, rfl, rfl⟩ := run
      exact .reads calling later
    · cases run
  | record =>
    simp only [latencyStep] at run
    split at run
    · rename_i rtp time read
      cases run
      exact .records read
    · cases run
  | onFrame rtp now =>
    simp only [latencyStep, Option.ite_none_right_eq_some, Option.some.injEq, Prod.mk.injEq] at run
    obtain ⟨⟨_, _, _, later⟩, rfl, rfl⟩ := run
    exact .enters later
  | take =>
    simp only [latencyStep] at run
    split at run
    · rename_i rtp time entered
      simp only [decodeSinkTakeDecodedReturn, Bool.true_eq_false, if_false, take_eq] at run
      cases run
      exact .looksUp entered
    · cases run

/-! Runs in which the sink follows the worker. -/

/-- A time that was read for a frame is known, in the log and not after the
clock; what the map holds was read; a frame that was looked up was recorded. -/
structure Followed (s : Latency) (log : List LatencyAction) : Prop where
  known : ∀ rtp time, (rtp, time) ∈ s.returned → rtp ∈ s.called ∧ .returned rtp time ∈ log ∧ time ≤ s.clock
  recorded : ∀ rtp ∈ s.recorded, rtp ∈ s.called
  calling : ∀ rtp, s.worker = .calling rtp → rtp ∈ s.called ∧ rtp ∉ s.recorded ∧ ∀ time, (rtp, time) ∉ s.returned
  read : ∀ rtp time, s.worker = .read rtp time → rtp ∉ s.recorded ∧ (rtp, time) ∈ s.returned
  sink : ∀ rtp time, s.sink = some (rtp, time) → .entered rtp time ∈ log ∧ (∃ back, (rtp, back) ∈ s.returned) ∧
    ∀ back, (rtp, back) ∈ s.returned → back ≤ time
  held : ∀ rtp time, s.maps.g_decoded_return_us.lookup rtp = some time → (rtp, time) ∈ s.returned
  looked : ∀ rtp ∈ s.looked, rtp ∈ s.recorded
  meaningful : Meaningful s log

theorem Meaningful.extend (holds : Meaningful s log) (noDe : ∀ rtp us, .de rtp us ∉ out)
    (clean : ∀ rtp ∈ t.looked, rtp ∉ t.maps.g_decoded_return_us) : Meaningful t (log ++ out) := by
  refine ⟨fun rtp us member => ?_, clean⟩
  have old := (List.mem_append.mp member).resolve_right (noDe rtp us)
  obtain ⟨positive, back, here, returned, entered, same⟩ := holds.1 rtp us old
  exact ⟨positive, back, here, List.mem_append_left out returned, List.mem_append_left out entered, same⟩

theorem Followed.calls (followed : Followed s log) {rtp : UInt32} (fresh : rtp ∉ s.called) :
    Followed { s with worker := .calling rtp, called := rtp :: s.called } log where
  known other time read :=
    let ⟨called, rest⟩ := followed.known other time read
    ⟨List.mem_cons_of_mem rtp called, rest⟩
  recorded other member := List.mem_cons_of_mem rtp (followed.recorded other member)
  calling other same := by
    cases same
    exact ⟨List.mem_cons_self, fun member => fresh (followed.recorded rtp member),
      fun time read => fresh (followed.known rtp time read).1⟩
  read _ _ same := by cases same
  sink := followed.sink
  held := followed.held
  looked := followed.looked
  meaningful := followed.meaningful

theorem Followed.reads (followed : Followed s log) {rtp : UInt32} {now : Int} (calling : s.worker = .calling rtp)
    (later : s.clock ≤ now) :
    Followed { s with worker := .read rtp now, clock := now, returned := (rtp, now) :: s.returned }
      (log ++ [.returned rtp now]) where
  known other time read := by
    rcases List.mem_cons.mp read with same | old
    · cases same
      exact ⟨(followed.calling rtp calling).1, by simp, le_rfl⟩
    · obtain ⟨called, logged, before⟩ := followed.known other time old
      exact ⟨called, List.mem_append_left _ logged, before.trans later⟩
  recorded := followed.recorded
  calling _ same := by cases same
  read other time same := by
    cases same
    exact ⟨(followed.calling rtp calling).2.1, List.mem_cons_self⟩
  sink other time same := by
    obtain ⟨entered, ⟨back, read⟩, before⟩ := followed.sink other time same
    refine ⟨List.mem_append_left _ entered, ⟨back, List.mem_cons_of_mem _ read⟩, fun again member => ?_⟩
    rcases List.mem_cons.mp member with new | old
    · -- the frame of the sink has been read before, this one not yet
      cases new
      exact absurd read ((followed.calling rtp calling).2.2 back)
    · exact before again old
  held other time found := List.mem_cons_of_mem _ (followed.held other time found)
  looked := followed.looked
  meaningful := followed.meaningful.extend (by simp) followed.meaningful.2

theorem Followed.records (followed : Followed s log) {rtp : UInt32} {time : Int} (read : s.worker = .read rtp time) :
    Followed { s with
      worker := .idle, maps := decodeSinkRecordAfterDecoded s.maps rtp time, recorded := rtp :: s.recorded } log where
  known := followed.known
  recorded other member := by
    rcases List.mem_cons.mp member with rfl | old
    · exact (followed.known other time (followed.read other time read).2).1
    · exact followed.recorded other old
  calling _ same := by cases same
  read _ _ same := by cases same
  sink := followed.sink
  held other found held := by
    rcases (lookup_perform kMaxEntries s.maps.g_decoded_return_us (.record rtp time) other found).mp held with new | old
    · cases new
      exact (followed.read rtp time read).2
    · exact followed.held other found old.1
  looked other member := List.mem_cons_of_mem _ (followed.looked other member)
  meaningful := by
    refine ⟨followed.meaningful.1, fun other member => ?_⟩
    have different : other ≠ rtp := by
      rintro rfl
      exact (followed.read other time read).1 (followed.looked other member)
    exact fun present => followed.meaningful.2 other member (mem_of_mem_record different present)

theorem Followed.enters (followed : Followed s log) {rtp : UInt32} {now : Int} (later : s.clock ≤ now)
    (follows : ∃ time, (rtp, time) ∈ s.returned) :
    Followed { s with sink := some (rtp, now), clock := now, entered := rtp :: s.entered }
      (log ++ [.entered rtp now]) where
  known other time read :=
    let ⟨called, logged, before⟩ := followed.known other time read
    ⟨called, List.mem_append_left _ logged, before.trans later⟩
  recorded := followed.recorded
  calling := followed.calling
  read := followed.read
  sink other time same := by
    cases same
    exact ⟨by simp, follows, fun back read => (followed.known rtp back read).2.2.trans later⟩
  held := followed.held
  looked := followed.looked
  meaningful := followed.meaningful.extend (by simp) followed.meaningful.2

theorem Followed.looksUp (followed : Followed s log) {rtp : UInt32} {time : Int} (entered : s.sink = some (rtp, time))
    (follows : rtp ∈ s.recorded) :
    Followed { s with
        maps := { s.maps with g_decoded_return_us := s.maps.g_decoded_return_us.erase rtp }
        sink := none
        looked := rtp :: s.looked }
      (log ++ (s.maps.g_decoded_return_us.lookup rtp).toList.map fun back => .de rtp (time - back)) where
  known other time read :=
    let ⟨called, logged, before⟩ := followed.known other time read
    ⟨called, List.mem_append_left _ logged, before⟩
  recorded := followed.recorded
  calling := followed.calling
  read := followed.read
  sink _ _ same := by cases same
  held other found held := by
    by_cases same : other = rtp
    · rw [same, AList.lookup_erase] at held
      cases held
    · rw [AList.lookup_erase_ne same] at held
      exact followed.held other found held
  looked other member := by
    rcases List.mem_cons.mp member with rfl | old
    · exact follows
    · exact followed.looked other old
  meaningful := by
    refine ⟨fun other us member => ?_, fun other member => ?_⟩
    · rcases List.mem_append.mp member with old | new
      · obtain ⟨positive, back, here, returned, entered, same⟩ := followed.meaningful.1 other us old
        exact ⟨positive, back, here, List.mem_append_left _ returned, List.mem_append_left _ entered, same⟩
      · obtain ⟨back, found, same⟩ := List.mem_map.mp new
        cases same
        have read := followed.held rtp back (Option.mem_toList.mp found)
        obtain ⟨here, _, before⟩ := followed.sink rtp time entered
        have order := before back read
        exact ⟨by omega, back, time, List.mem_append_left _ (followed.known rtp back read).2.1,
          List.mem_append_left _ here, rfl⟩
    · rw [AList.mem_erase]
      rintro ⟨different, present⟩
      exact followed.meaningful.2 other ((List.mem_cons.mp member).resolve_left different) present

theorem Followed.step (followed : Followed s log) (follows : SinkFollows s e)
    (run : latencyStep s e = some (t, out)) : Followed t (log ++ out) := by
  cases latencyMove_of_step run with
  | calls fresh =>
    rw [List.append_nil]
    exact followed.calls fresh
  | reads calling later => exact followed.reads calling later
  | records read =>
    rw [List.append_nil]
    exact followed.records read
  | enters later => exact followed.enters later follows
  | looksUp entered => exact followed.looksUp entered (follows _ _ entered)

theorem Followed.start : Followed {} [] where
  known := by simp
  recorded := by simp
  calling _ same := by cases same
  read _ _ same := by cases same
  sink _ _ same := by cases same
  held _ _ found := by cases found
  looked := by simp
  meaningful := by simp [Meaningful]

/-- If the sink follows the worker, every latency is the time from the return
of `Decoded` to the entry of `OnFrame`, and nothing is left behind. -/
theorem latency_meaningful (reach : latency.Reach SinkFollows s log) : Meaningful s log := by
  have followed : Followed s log := by
    refine reach.invariant (P := Followed) .start ?_
    exact fun s log e t out followed follows run => followed.step follows run
  exact followed.meaningful

theorem latency_meaningful_frame :
    ∃ s, Meaningful s [.returned 7 10, .entered 7 12, .de 7 2] := by
  refine ⟨_, latency_meaningful (Machine.Reach.ofExec SinkFollows
    [.decoded 7, .readClock 10, .record, .onFrame 7 12, .take] rfl ?_)⟩
  simp [Machine.Meets, SinkFollows, latency, latencyStep]

/-- `OnFrame` is entered while the worker is still in `Decoded`, and finds the
record that is made before it looks. -/
theorem latency_negative : ¬ ∀ s log, latency.Reach Machine.Always s log → Meaningful s log := by
  intro always
  have reach := Machine.Reach.ofExec (M := latency) Machine.Always
    [.decoded 7, .onFrame 7 8, .readClock 10, .record, .take] rfl (Machine.meets_always _ _)
  have latency := (always _ _ reach).1 7 (-2) (by simp)
  exact absurd latency.1 (by decide)

end WebRtcDemo.Timing
