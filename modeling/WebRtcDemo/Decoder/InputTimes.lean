import WebRtcDemo.Decoder.Metadata
import WebRtcDemo.Decoder.Worker

/-! The presentation times of the input buffers. -/

namespace WebRtcDemo.Decoder

/-- A frame with the results of the codec calls; `returnOk` is the result of
the call that hands an unused input buffer back. -/
structure FrameEvent where
  frame : EncodedFrame
  script : CodecScript
  returnOk : Bool
  deriving DecidableEq, Repr

/-- `feedFrame`, with a codec that may refuse the buffer that is handed back. -/
def feedReturning (s : Impl) (frame : EncodedFrame) (r : InputResponse) (returnOk : Bool) :
    Impl × List CodecAction × Nat :=
  if s.codec = false ∨ frame.data = [] then (s, [], 0)
  else
    let feed := feedOf frame.data
    if feed = [] then (s, [], 0)
    else match r.dequeueInput with
      | none => (s, [.processing frame.metadata], 1)
      | some index =>
        let started := [.processing frame.metadata, .dequeueInputBuffer index]
        if tooSmall r.inputCap feed.length then (s, started ++ [.queueInputBuffer index 0 0 false returnOk], 0)
        else
          let pts := s.nextInputPtsUs
          let s := { s with nextInputPtsUs := pts + 1 }
          if r.queueInputOk then
            (s, started ++ [.queueInputBuffer index feed.length pts frame.isKeyframe true], 2)
          else
            (s, started ++ [.queueInputBuffer index feed.length pts frame.isKeyframe false,
              .queueInputBuffer index 0 0 false returnOk], 0)

def FrameEvent.response (e : FrameEvent) : InputResponse :=
  ⟨e.script.dequeueInput, e.script.inputCap, e.script.queueInputOk⟩

def processReturning (s : Impl) (e : FrameEvent) : Impl × List CodecAction :=
  let (t, out, drains) := feedReturning s e.frame e.response e.returnOk
  ((drainAll e.frame.metadata t e.script drains).1, out ++ (drainAll e.frame.metadata t e.script drains).2)

/-- The time of a buffer that the codec took. -/
def CodecAction.acceptedTime : CodecAction → Option Nat
  | .queueInputBuffer _ _ pts _ true => some pts
  | _ => none

def acceptedTimes (out : List CodecAction) : List Nat := out.filterMap CodecAction.acceptedTime

/-- A codec from its configuration on, with the times of the buffers that it took. -/
structure CodecInstance where
  impl : Impl
  sent : List Nat

def instanceStep (c : CodecInstance) (e : FrameEvent) : Option (CodecInstance × List CodecAction) :=
  let (t, out) := processReturning c.impl e
  some (⟨t, c.sent ++ acceptedTimes out⟩, out)

/-- `ConfigureOnWorker` starts the counter at zero. -/
def codecInstance (impl : Impl) : Machine CodecInstance FrameEvent CodecAction where
  init := ⟨{ impl with codec := true, nextInputPtsUs := 0 }, []⟩
  step := instanceStep

def TimesIncrease (c : CodecInstance) : Prop := c.sent.Pairwise (· < ·)

/-- What becomes of the input buffer of a frame: nothing that the codec takes,
a buffer handed back with the literal time 0, or the frame with the time of
the counter. -/
inductive InputPath
  | nothing
  | handedBack
  | queued
  deriving DecidableEq, Repr

def inputPath (s : Impl) (e : FrameEvent) : InputPath :=
  if s.codec = false ∨ e.frame.data = [] ∨ feedOf e.frame.data = [] ∨ e.script.dequeueInput = none then .nothing
  else if tooSmall e.script.inputCap (feedOf e.frame.data).length = false ∧ e.script.queueInputOk then .queued
  else if e.returnOk then .handedBack
  else .nothing

/-- A buffer is handed back only before the codec has taken any, and after
that no frame gets the time 0. -/
def TimelyInput (c : CodecInstance) (e : FrameEvent) : Prop :=
  match inputPath c.impl e with
  | .nothing => True
  | .handedBack => c.sent = []
  | .queued => c.impl.nextInputPtsUs = 0 → c.sent = []

/-! One frame. -/

theorem feedReturning_true (s : Impl) (frame : EncodedFrame) (r : InputResponse) :
    feedReturning s frame r true = ((feedFrame s frame r).1, (feedFrame s frame r).2.2) := by
  unfold feedReturning feedFrame
  by_cases idle : s.codec = false ∨ frame.data = []
  · simp only [idle, if_true]
  by_cases empty : feedOf frame.data = []
  · simp only [idle, empty, if_true, if_false]
  simp only [idle, empty, if_false]
  cases r.dequeueInput with
  | none => rfl
  | some index =>
    simp only []
    split
    · rfl
    · split <;> rfl

/-- A codec that takes back what it is given is the one of `processOneFrame`. -/
theorem processReturning_true (s : Impl) (frame : EncodedFrame) (script : CodecScript) :
    processReturning s ⟨frame, script, true⟩ = processOneFrame s frame script := by
  rw [processOneFrame_eq_feedFrame]
  simp only [processReturning, FrameEvent.response, feedReturning_true]

theorem acceptedTimes_append (first second : List CodecAction) :
    acceptedTimes (first ++ second) = acceptedTimes first ++ acceptedTimes second :=
  List.filterMap_append

theorem Drained.acceptedTimes {m : FrameMeta} {s t : Impl} {responses : List OutputResponse} {out : List CodecAction}
    (drained : Drained m s t responses out) : acceptedTimes out = [] := by
  refine List.filterMap_eq_nil_iff.mpr fun a member => ?_
  have kind := drained.drained a member
  cases a with
  | queueInputBuffer index size pts keyFrame accepted => cases kind
  | _ => rfl

/-- Draining takes no time from the counter and queues nothing. -/
theorem drainAll_times (m : FrameMeta) (s : Impl) (script : CodecScript) (drains : Nat) :
    (drainAll m s script drains).1.nextInputPtsUs = s.nextInputPtsUs ∧
      acceptedTimes (drainAll m s script drains).2 = [] := by
  match drains with
  | 0 => exact ⟨rfl, rfl⟩
  | 1 =>
    have spec := drainOutputs_spec m s script.drain0
    exact ⟨spec.pts, spec.acceptedTimes⟩
  | _ + 2 =>
    have spec := drainTwice_spec m s script
    exact ⟨spec.pts, spec.acceptedTimes⟩

/-- What the codec takes of a frame, by the path of its buffer. -/
def Took (s t : Impl) (times : List Nat) : InputPath → Prop
  | .nothing => times = [] ∧ s.nextInputPtsUs ≤ t.nextInputPtsUs
  | .handedBack => times = [0] ∧ s.nextInputPtsUs ≤ t.nextInputPtsUs
  | .queued => times = [s.nextInputPtsUs] ∧ t.nextInputPtsUs = s.nextInputPtsUs + 1

theorem feedReturning_took (s : Impl) (e : FrameEvent) :
    Took s (feedReturning s e.frame e.response e.returnOk).1
      (acceptedTimes (feedReturning s e.frame e.response e.returnOk).2.1) (inputPath s e) := by
  obtain ⟨frame, script, returnOk⟩ := e
  unfold feedReturning inputPath
  by_cases idle : s.codec = false ∨ frame.data = []
  · rw [if_pos idle, if_pos (by tauto)]
    exact ⟨rfl, le_rfl⟩
  by_cases empty : feedOf frame.data = []
  · simp only [idle, empty, if_true, if_false]
    simp only [true_or, or_true, if_true]
    exact ⟨rfl, le_rfl⟩
  simp only [idle, empty, if_false, FrameEvent.response]
  cases script.dequeueInput with
  | none =>
    simp only [or_true, if_true]
    exact ⟨rfl, le_rfl⟩
  | some index =>
    have busy : ¬(s.codec = false ∨ frame.data = [] ∨ False ∨ some index = none) := by
      simpa [not_or] using idle
    rw [if_neg busy]
    by_cases small : tooSmall script.inputCap (feedOf frame.data).length = true
    · simp only [small, if_true, Bool.true_eq_false, false_and, if_false]
      cases returnOk <;> exact ⟨rfl, le_rfl⟩
    · have fits : tooSmall script.inputCap (feedOf frame.data).length = false := by simpa using small
      simp only [fits, true_and, Bool.false_eq_true, if_false]
      by_cases taken : script.queueInputOk = true
      · simp only [taken, if_true]
        exact ⟨rfl, rfl⟩
      · simp only [taken]
        cases returnOk <;> exact ⟨rfl, Nat.le_succ _⟩

theorem processReturning_took (s : Impl) (e : FrameEvent) :
    Took s (processReturning s e).1 (acceptedTimes (processReturning s e).2) (inputPath s e) := by
  have fed := feedReturning_took s e
  have drained := drainAll_times e.frame.metadata (feedReturning s e.frame e.response e.returnOk).1 e.script
    (feedReturning s e.frame e.response e.returnOk).2.2
  simp only [processReturning, acceptedTimes_append, drained.2, List.append_nil]
  revert fed
  cases inputPath s e <;> simp only [Took, drained.1] <;> exact id

/-! The run. -/

variable {c d : CodecInstance} {e : FrameEvent} {out : List CodecAction}

theorem instanceStep_took (run : instanceStep c e = some (d, out)) :
    ∃ times, d.sent = c.sent ++ times ∧ Took c.impl d.impl times (inputPath c.impl e) := by
  have next : d = ⟨(processReturning c.impl e).1, c.sent ++ acceptedTimes (processReturning c.impl e).2⟩ :=
    (congrArg Prod.fst (Option.some.inj run)).symm
  subst next
  exact ⟨_, rfl, processReturning_took c.impl e⟩

/-- The times are in order, and all of them lie before the counter except a 0. -/
structure TimesOrdered (c : CodecInstance) : Prop where
  increase : TimesIncrease c
  before : ∀ p ∈ c.sent, p < c.impl.nextInputPtsUs ∨ p = 0

theorem TimesOrdered.mono (ordered : TimesOrdered c) (same : d.sent = c.sent)
    (later : c.impl.nextInputPtsUs ≤ d.impl.nextInputPtsUs) : TimesOrdered d := by
  refine ⟨?_, ?_⟩
  · rw [TimesIncrease, same]
    exact ordered.increase
  · rw [same]
    exact fun p member => (ordered.before p member).imp_left fun before => before.trans_le later

theorem TimesOrdered.step (ordered : TimesOrdered c) (timely : TimelyInput c e)
    (run : instanceStep c e = some (d, out)) : TimesOrdered d := by
  obtain ⟨times, sent, took⟩ := instanceStep_took run
  unfold TimelyInput at timely
  cases path : inputPath c.impl e with
  | nothing =>
    rw [path] at took
    obtain ⟨rfl, later⟩ := took
    exact ordered.mono (by rw [sent, List.append_nil]) later
  | handedBack =>
    rw [path] at took timely
    obtain ⟨rfl, _⟩ := took
    have first : d.sent = [0] := by rw [sent, timely, List.nil_append]
    refine ⟨?_, ?_⟩
    · rw [TimesIncrease, first]
      exact List.pairwise_singleton _ 0
    · rw [first]
      exact fun p member => .inr (List.mem_singleton.mp member)
  | queued =>
    rw [path] at took timely
    obtain ⟨rfl, next⟩ := took
    have below : ∀ p ∈ c.sent, p < c.impl.nextInputPtsUs := by
      intro p member
      rcases ordered.before p member with before | rfl
      · exact before
      · refine Nat.pos_of_ne_zero fun zero => ?_
        rw [timely zero] at member
        cases member
    refine ⟨?_, ?_⟩
    · rw [TimesIncrease, sent]
      refine List.pairwise_append.mpr ⟨ordered.increase, List.pairwise_singleton _ _, fun p member q last => ?_⟩
      rw [List.mem_singleton.mp last]
      exact below p member
    · intro p member
      rw [sent] at member
      rcases List.mem_append.mp member with old | last
      · have before := below p old
        omega
      · rw [List.mem_singleton.mp last]
        omega

/-- Nothing can come before a 0. -/
theorem sent_empty {sent : List Nat} (increase : (sent ++ [0]).Pairwise (· < ·)) : sent = [] := by
  refine List.eq_nil_iff_forall_not_mem.mpr fun p member => ?_
  have below := (List.pairwise_append.mp increase).2.2 p member 0 (List.mem_singleton_self 0)
  omega

theorem TimesIncrease.timely (increase : TimesIncrease d) (run : instanceStep c e = some (d, out)) :
    TimelyInput c e := by
  obtain ⟨times, sent, took⟩ := instanceStep_took run
  rw [TimesIncrease, sent] at increase
  unfold TimelyInput
  cases path : inputPath c.impl e with
  | nothing => trivial
  | handedBack =>
    rw [path] at took
    obtain ⟨rfl, _⟩ := took
    exact sent_empty increase
  | queued =>
    rw [path] at took
    obtain ⟨rfl, _⟩ := took
    intro zero
    rw [zero] at increase
    exact sent_empty increase

/-- The times that the codec takes increase exactly if no buffer is handed
back to it after it has taken one, and none is queued with the time of a
buffer that was handed back. -/
theorem inputTimes_increase_iff (impl : Impl) (es : List FrameEvent) :
    (codecInstance impl).Along TimesIncrease (codecInstance impl).init es ↔
      (codecInstance impl).Meets TimelyInput (codecInstance impl).init es := by
  refine Machine.along_iff_meets (I := TimesOrdered) (fun c ordered => ordered.increase) ?_ ?_ ?_ ?_ es
  · exact fun c e d out ordered timely run => ordered.step timely run
  · exact fun c e d out _ run increase => increase.timely run
  · intro c e _ blocked
    cases blocked
  · exact ⟨.nil, by simp [codecInstance]⟩

/-- A frame of one NAL unit that the codec takes, and one that does not fit
into its input buffer, which is handed back. -/
def oversizedFrame : List FrameEvent :=
  let frame : EncodedFrame := ⟨[0, 0, 0, 1, 101], ⟨0, 0, none⟩, true⟩
  [⟨frame, ⟨some 0, some 64, true, [], []⟩, true⟩, ⟨frame, ⟨some 1, some 4, true, [], []⟩, true⟩]

theorem inputTimes_handed_back : ¬ ∀ impl es, (codecInstance impl).Along TimesIncrease (codecInstance impl).init es := by
  intro always
  have increase : [0, 0].Pairwise (· < ·) := (always initialThreads.impl oversizedFrame).last rfl
  exact absurd increase (by decide)

end WebRtcDemo.Decoder
