import WebRtcDemo.Decoder.Codec

namespace WebRtcDemo.Decoder

/-- The presentation times of the inputs that the codec accepted. -/
def queued (log : List CodecAction) : List Nat :=
  log.filterMap fun a => match a with
    | .queueInputBuffer _ size pts _ accepted => if 0 < size ∧ accepted then some pts else none
    | _ => none

/-- The accepted inputs, each with the frame it was made from: that of the
call in which it was queued. -/
def inputsFrom (current : Option FrameMeta) : List CodecAction → List (Nat × FrameMeta)
  | [] => []
  | .processing m :: rest => inputsFrom (some m) rest
  | a :: rest => (queued [a]).flatMap (fun pts => (current.map fun m => (pts, m)).toList) ++ inputsFrom current rest

def inputs (log : List CodecAction) : List (Nat × FrameMeta) := inputsFrom none log

/-- Every delivered frame comes from an accepted input, and carries the
parameters of the encoded frame of that input. -/
def MetadataOwn (log : List CodecAction) : Prop :=
  ∀ frame pts, .decoded frame pts ∈ log →
    (∃ m, (pts, m) ∈ inputs log) ∧ ∀ m, (pts, m) ∈ inputs log → frame = buildFrame m

/-- How the codec behaves, given the inputs it still holds: each is output at
most once and in order, with the presentation time it was queued with. Empty
outputs may come at any time. -/
def codecTakes (inside : List Nat) : List CodecAction → Option (List Nat)
  | [] => some inside
  | .queueInputBuffer _ size pts _ accepted :: rest =>
    codecTakes (if 0 < size ∧ accepted then inside ++ [pts] else inside) rest
  | .dequeueOutputBuffer _ size pts :: rest =>
    if 0 < size then
      if pts ∈ inside then codecTakes (inside.dropWhile (· ≠ pts)).tail rest else none
    else codecTakes inside rest
  | .processing _ :: rest | .dequeueInputBuffer _ :: rest | .decoded _ _ :: rest | .recordAfterDecoded _ :: rest
  | .releaseOutputBuffer _ :: rest => codecTakes inside rest

/-- The decoder with one configured codec, and the inputs inside the codec. -/
structure DecoderState where
  impl : Impl
  inside : List Nat

inductive DecoderEvent
  | processOneFrame (frame : EncodedFrame) (script : CodecScript)
  | registerDecodeCompleteCallback (callback : Bool)

def decoderStep (s : DecoderState) : DecoderEvent → Option (DecoderState × List CodecAction)
  | .processOneFrame frame script =>
    let (impl, out) := processOneFrame s.impl frame script
    (codecTakes s.inside out).map fun inside => (⟨impl, inside⟩, out)
  | .registerDecodeCompleteCallback callback => some ({ s with impl := { s.impl with callback := callback } }, [])

/-- After `ConfigureOnWorker`, with the output format the new codec reported. -/
def configured (fmt : Option OutputFormat) : DecoderState where
  impl := refreshOutputFormat ⟨true, false, 0, 0, 0, 0, 0, 0, initialPool⟩ fmt
  inside := []

def decoder (fmt : Option OutputFormat) : Machine DecoderState DecoderEvent CodecAction :=
  ⟨configured fmt, decoderStep⟩

/-- Not the picture of another input than this one. -/
def OutputResponse.Of (pts : Nat) : OutputResponse → Prop
  | .buffer b => 0 < b.size → b.presentationTimeUs = pts
  | _ => True

instance (pts : Nat) : ∀ r : OutputResponse, Decidable (r.Of pts)
  | .buffer b => inferInstanceAs (Decidable (0 < b.size → b.presentationTimeUs = pts))
  | .formatChanged _ | .buffersChanged _ | .tryAgainLater | .error => isTrue trivial

/-- While a callback is set, the only pictures that the codec outputs during a
call are those of the input queued by this call. -/
def OwnOutputs (s : DecoderState) : DecoderEvent → Prop
  | .processOneFrame _ script => s.impl.callback = true →
    ∀ r ∈ script.drain0 ++ script.drain1, r.Of s.impl.nextInputPtsUs
  | .registerDecodeCompleteCallback _ => True

instance (s : DecoderState) : ∀ e, Decidable (OwnOutputs s e)
  | .processOneFrame _ script => inferInstanceAs
    (Decidable (s.impl.callback = true → ∀ r ∈ script.drain0 ++ script.drain1, r.Of s.impl.nextInputPtsUs))
  | .registerDecodeCompleteCallback _ => isTrue trivial

theorem refreshOutputFormat_frame (s : Impl) (fmt : Option OutputFormat) :
    (refreshOutputFormat s fmt).nextInputPtsUs = s.nextInputPtsUs ∧
      (refreshOutputFormat s fmt).callback = s.callback := by
  unfold refreshOutputFormat
  split
  · split <;> exact ⟨rfl, rfl⟩
  · exact ⟨rfl, rfl⟩

theorem copyOutput_frame (s : Impl) (b : OutputBuffer) (cap : Nat) :
    (copyOutput s b cap).1.nextInputPtsUs = s.nextInputPtsUs ∧ (copyOutput s b cap).1.callback = s.callback := by
  unfold copyOutput
  split <;> exact ⟨rfl, rfl⟩

/-- Only pictures are delivered, and only to a callback. -/
theorem deliverOutput_spec (s : Impl) (b : OutputBuffer) :
    (deliverOutput s b).1.nextInputPtsUs = s.nextInputPtsUs ∧ (deliverOutput s b).1.callback = s.callback ∧
      ((deliverOutput s b).2 = true → 0 < b.size ∧ s.callback = true) := by
  unfold deliverOutput
  split
  · rename_i fits
    split
    · exact ⟨rfl, rfl, by simp⟩
    split
    · obtain ⟨pts, callback⟩ := copyOutput_frame s b _
      exact ⟨pts, callback, fun _ => ⟨fits.1, fits.2.2.2.1⟩⟩
    · exact ⟨rfl, rfl, by simp⟩
  · exact ⟨rfl, rfl, by simp⟩

/-- Calls that a drain makes. -/
def CodecAction.drained : CodecAction → Bool
  | .processing _ | .dequeueInputBuffer _ | .queueInputBuffer _ _ _ _ _ => false
  | _ => true

/-- What a drain does: it queues nothing, and what it delivers it has taken
from the codec and labelled with its own parameters. -/
structure Drained (m : FrameMeta) (s t : Impl) (responses : List OutputResponse) (out : List CodecAction) : Prop where
  pts : t.nextInputPtsUs = s.nextInputPtsUs
  callback : t.callback = s.callback
  drained : ∀ a ∈ out, a.drained = true
  delivered : ∀ frame pts, .decoded frame pts ∈ out → s.callback = true ∧ frame = buildFrame m ∧
    ∃ b, .buffer b ∈ responses ∧ 0 < b.size ∧ b.presentationTimeUs = pts ∧
      .dequeueOutputBuffer b.index b.size pts ∈ out

theorem drainOutputs_spec (m : FrameMeta) (s : Impl) (responses : List OutputResponse) :
    Drained m s (drainOutputs m s responses).1 responses (drainOutputs m s responses).2.1 := by
  induction responses generalizing s with
  | nil => exact ⟨rfl, rfl, by simp [drainOutputs], by simp [drainOutputs]⟩
  | cons r rest ih =>
    have later (u : Impl) (pts : u.nextInputPtsUs = s.nextInputPtsUs) (callback : u.callback = s.callback) :
        Drained m s (drainOutputs m u rest).1 (r :: rest) (drainOutputs m u rest).2.1 := by
      obtain ⟨samePts, sameCallback, drained, delivered⟩ := ih u
      refine ⟨samePts.trans pts, sameCallback.trans callback, drained, ?_⟩
      intro frame pts member
      obtain ⟨set, built, b, inside, picture⟩ := delivered frame pts member
      exact ⟨callback ▸ set, built, b, List.mem_cons_of_mem _ inside, picture⟩
    cases r with
    | formatChanged fmt =>
      obtain ⟨pts, callback⟩ := refreshOutputFormat_frame s fmt
      exact later _ pts callback
    | buffersChanged fmt =>
      obtain ⟨pts, callback⟩ := refreshOutputFormat_frame s fmt
      exact later _ pts callback
    | tryAgainLater => exact ⟨rfl, rfl, by simp [drainOutputs], by simp [drainOutputs]⟩
    | error => exact ⟨rfl, rfl, by simp [drainOutputs], by simp [drainOutputs]⟩
    | buffer b =>
      simp only [drainOutputs]
      generalize atStart : (if 0 < b.size ∧ (s.outWidth ≤ 0 ∨ s.outHeight ≤ 0) then refreshOutputFormat s b.format
        else s) = u
      have frame : u.nextInputPtsUs = s.nextInputPtsUs ∧ u.callback = s.callback := by
        rw [← atStart]
        split
        · exact refreshOutputFormat_frame s b.format
        · exact ⟨rfl, rfl⟩
      obtain ⟨pts, callback, isPicture⟩ := deliverOutput_spec u b
      obtain ⟨samePts, sameCallback, drained, delivered⟩ := later (deliverOutput u b).1 (pts.trans frame.1)
        (callback.trans frame.2)
      refine ⟨samePts, sameCallback, ?_, ?_⟩
      · intro a member
        simp only [List.cons_append, List.mem_cons, List.mem_append] at member
        rcases member with rfl | shown | rfl | old
        · rfl
        · split at shown
          · simp only [List.mem_cons, List.not_mem_nil, or_false] at shown
            rcases shown with rfl | rfl <;> rfl
          · cases shown
        · rfl
        · exact drained a old
      · intro shownFrame shownPts member
        simp only [List.cons_append, List.mem_cons, List.mem_append, reduceCtorEq, false_or] at member
        rcases member with shown | old
        · split at shown
          · rename_i ok
            simp only [List.mem_cons, CodecAction.decoded.injEq, reduceCtorEq, List.not_mem_nil, or_false] at shown
            obtain ⟨rfl, rfl⟩ := shown
            obtain ⟨positive, set⟩ := isPicture ok
            exact ⟨frame.2 ▸ set, rfl, b, List.mem_cons_self, positive, rfl, List.mem_cons_self⟩
          · cases shown
        · obtain ⟨set, built, c, inside, positive, same, taken⟩ := delivered shownFrame shownPts old
          refine ⟨set, built, c, inside, positive, same, ?_⟩
          simp [taken]

theorem mem_queued {p : Nat} {out : List CodecAction} :
    p ∈ queued out ↔ ∃ index size key, 0 < size ∧ .queueInputBuffer index size p key true ∈ out := by
  unfold queued
  rw [List.mem_filterMap]
  constructor
  · rintro ⟨a, member, found⟩
    cases a with
    | queueInputBuffer index size pts key accepted =>
      simp only [Option.ite_none_right_eq_some, Option.some.injEq] at found
      obtain ⟨⟨positive, rfl⟩, rfl⟩ := found
      exact ⟨index, size, key, positive, member⟩
    | processing | dequeueInputBuffer | dequeueOutputBuffer | decoded | recordAfterDecoded | releaseOutputBuffer =>
      cases found
  · rintro ⟨index, size, key, positive, member⟩
    exact ⟨_, member, by simp [positive]⟩

theorem not_mem_queued_of_drained {out : List CodecAction} (drained : ∀ a ∈ out, a.drained = true) (p : Nat) :
    p ∉ queued out := by
  intro member
  obtain ⟨index, size, key, _, inside⟩ := mem_queued.mp member
  cases drained _ inside

/-- What a call does, when it does anything: it queues at most one input, with
the next presentation time, and what it delivers it labels as its own. -/
structure Processed (s t : Impl) (frame : EncodedFrame) (script : CodecScript) (out : List CodecAction) : Prop where
  pts : s.nextInputPtsUs ≤ t.nextInputPtsUs
  started : ∃ rest, out = .processing frame.metadata :: rest ∧ ∀ m, .processing m ∉ rest
  fresh : ∀ p ∈ queued out, p = s.nextInputPtsUs ∧ p < t.nextInputPtsUs
  delivered : ∀ shown p, .decoded shown p ∈ out → s.callback = true ∧ shown = buildFrame frame.metadata ∧
    ∃ b, .buffer b ∈ script.drain0 ++ script.drain1 ∧ 0 < b.size ∧ b.presentationTimeUs = p ∧
      .dequeueOutputBuffer b.index b.size p ∈ out

/-- Calls that are neither the start of a call nor a delivery. -/
theorem Processed.of_undelivered {s t : Impl} {frame : EncodedFrame} {script : CodecScript} {rest : List CodecAction}
    (pts : s.nextInputPtsUs ≤ t.nextInputPtsUs) (nothing : ∀ p, p ∉ queued rest) (once : ∀ m, .processing m ∉ rest)
    (undelivered : ∀ shown p, .decoded shown p ∉ rest) :
    Processed s t frame script (.processing frame.metadata :: rest) := by
  refine ⟨pts, ⟨rest, rfl, once⟩, ?_, ?_⟩
  · intro p member
    exact absurd member (nothing p)
  · intro shown p member
    rcases List.mem_cons.mp member with other | inside
    · cases other
    · exact absurd inside (undelivered shown p)

theorem drainTwice_spec (m : FrameMeta) (s : Impl) (script : CodecScript) :
    Drained m s (drainTwice m s script).1 (script.drain0 ++ script.drain1) (drainTwice m s script).2 := by
  have first := drainOutputs_spec m s script.drain0
  have second := drainOutputs_spec m (drainOutputs m s script.drain0).1 script.drain1
  refine ⟨second.pts.trans first.pts, second.callback.trans first.callback, ?_, ?_⟩
  · intro a member
    exact (List.mem_append.mp member).elim (first.drained a) (second.drained a)
  · intro frame pts member
    rcases List.mem_append.mp member with early | late
    · obtain ⟨set, built, b, inside, positive, same, taken⟩ := first.delivered frame pts early
      exact ⟨set, built, b, List.mem_append_left _ inside, positive, same, List.mem_append_left _ taken⟩
    · obtain ⟨set, built, b, inside, positive, same, taken⟩ := second.delivered frame pts late
      exact ⟨first.callback ▸ set, built, b, List.mem_append_right _ inside, positive, same,
        List.mem_append_right _ taken⟩

theorem Drained.not_processing {m other : FrameMeta} {s t : Impl} {responses : List OutputResponse}
    {out : List CodecAction} (spec : Drained m s t responses out) : .processing other ∉ out := by
  intro member
  cases spec.drained _ member

theorem processOneFrame_spec (s : Impl) (frame : EncodedFrame) (script : CodecScript) :
    processOneFrame s frame script = (s, []) ∨
      Processed s (processOneFrame s frame script).1 frame script (processOneFrame s frame script).2 := by
  unfold processOneFrame
  split
  · exact .inl rfl
  simp only
  split
  · exact .inl rfl
  refine .inr ?_
  split
  · have spec := drainOutputs_spec frame.metadata s script.drain0
    refine ⟨spec.pts.ge, ⟨_, rfl, fun m => spec.not_processing⟩, ?_, ?_⟩
    · intro p member
      exact absurd member (not_mem_queued_of_drained spec.drained p)
    · intro shown p member
      rcases List.mem_cons.mp member with other | inside
      · cases other
      · obtain ⟨set, built, b, response, positive, same, taken⟩ := spec.delivered shown p inside
        exact ⟨set, built, b, List.mem_append_left _ response, positive, same, List.mem_cons_of_mem _ taken⟩
  · rename_i index _
    split
    · exact .of_undelivered (Nat.le_refl _) (by simp [queued]) (by simp) (by simp)
    split
    · have spec := drainTwice_spec frame.metadata { s with nextInputPtsUs := s.nextInputPtsUs + 1 } script
      have pts : (drainTwice frame.metadata { s with nextInputPtsUs := s.nextInputPtsUs + 1 } script).1.nextInputPtsUs =
          s.nextInputPtsUs + 1 := spec.pts
      refine ⟨?_, ⟨.dequeueInputBuffer index ::
        .queueInputBuffer index (feedOf frame.data).length s.nextInputPtsUs frame.isKeyframe true :: _, rfl, ?_⟩, ?_, ?_⟩
      · simp only [pts]
        omega
      · intro m member
        simp only [List.mem_cons, reduceCtorEq, false_or] at member
        exact spec.not_processing member
      · intro p member
        obtain ⟨i, size, key, positive, inside⟩ := mem_queued.mp member
        simp only [List.cons_append, List.nil_append, List.mem_cons, reduceCtorEq, false_or] at inside
        simp only [pts]
        rcases inside with same | drained
        · cases same
          exact ⟨rfl, Nat.lt_succ_self _⟩
        · cases spec.drained _ drained
      · intro shown p member
        simp only [List.nil_append, List.cons_append, List.mem_cons, reduceCtorEq, false_or] at member
        obtain ⟨set, built, b, response, positive, same, taken⟩ := spec.delivered shown p member
        refine ⟨set, built, b, response, positive, same, ?_⟩
        simp [taken]
    · exact .of_undelivered (Nat.le_succ _) (by simp [queued]) (by simp) (by simp)

theorem inputsFrom_append (current : Option FrameMeta) (log rest : List CodecAction) (m : FrameMeta) :
    inputsFrom current (log ++ .processing m :: rest) = inputsFrom current log ++ inputsFrom (some m) rest := by
  induction log generalizing current with
  | nil => rfl
  | cons a log ih =>
    cases a with
    | processing m => exact ih _
    | dequeueInputBuffer | queueInputBuffer | dequeueOutputBuffer | decoded | recordAfterDecoded
    | releaseOutputBuffer =>
      simp only [List.cons_append, inputsFrom]
      rw [ih, List.append_assoc]

theorem inputsFrom_call {m : FrameMeta} {rest : List CodecAction} (once : ∀ m, .processing m ∉ rest) :
    inputsFrom (some m) rest = (queued rest).map fun pts => (pts, m) := by
  induction rest with
  | nil => rfl
  | cons a rest ih =>
    have later := ih fun other member => once other (List.mem_cons_of_mem _ member)
    have split : queued (a :: rest) = queued [a] ++ queued rest := List.filterMap_append (l := [a])
    have flat (pts : List Nat) : pts.flatMap (fun p => ((some m).map fun m => (p, m)).toList) =
        pts.map fun p => (p, m) := by
      induction pts with
      | nil => rfl
      | cons p pts ih => simp_all
    cases a with
    | processing other => exact absurd List.mem_cons_self (once other)
    | dequeueInputBuffer | queueInputBuffer | dequeueOutputBuffer | decoded | recordAfterDecoded
    | releaseOutputBuffer =>
      rw [split, List.map_append, ← later, inputsFrom, flat]
      intro other
      exact CodecAction.noConfusion

/-- The inputs of a call come after all earlier ones. -/
theorem inputs_call {log rest : List CodecAction} {m : FrameMeta} (once : ∀ m, .processing m ∉ rest) :
    inputs (log ++ .processing m :: rest) = inputs log ++ (queued rest).map fun pts => (pts, m) := by
  unfold inputs
  rw [inputsFrom_append, inputsFrom_call once]

/-- What the codec holds or outputs was there before or was queued meanwhile. -/
theorem codecTakes_spec {inside after : List Nat} {out : List CodecAction} (takes : codecTakes inside out = some after) :
    (∀ p ∈ after, p ∈ inside ∨ p ∈ queued out) ∧
      ∀ index size p, .dequeueOutputBuffer index size p ∈ out → 0 < size → p ∈ inside ∨ p ∈ queued out := by
  induction out generalizing inside with
  | nil =>
    cases takes
    exact ⟨fun p member => .inl member, by simp⟩
  | cons a out ih =>
    have split : queued (a :: out) = queued [a] ++ queued out := List.filterMap_append (l := [a])
    -- the rest of the run starts from `middle`
    have later {middle : List Nat} (step : ∀ p ∈ middle, p ∈ inside ∨ p ∈ queued [a])
        (rest : codecTakes middle out = some after) :
        (∀ p ∈ after, p ∈ inside ∨ p ∈ queued (a :: out)) ∧
          ∀ index size p, .dequeueOutputBuffer index size p ∈ out → 0 < size → p ∈ inside ∨ p ∈ queued (a :: out) := by
      obtain ⟨held, output⟩ := ih rest
      have widen {p : Nat} (origin : p ∈ middle ∨ p ∈ queued out) : p ∈ inside ∨ p ∈ queued (a :: out) := by
        rw [split, List.mem_append]
        rcases origin with old | new
        · exact (step p old).imp id .inl
        · exact .inr (.inr new)
      exact ⟨fun p member => widen (held p member), fun index size p member positive =>
        widen (output index size p member positive)⟩
    cases a with
    | queueInputBuffer index size pts key accepted =>
      have step : ∀ p ∈ (if 0 < size ∧ accepted = true then inside ++ [pts] else inside),
          p ∈ inside ∨ p ∈ queued [.queueInputBuffer index size pts key accepted] := by
        intro p member
        split at member
        · rename_i counted
          simpa [queued, counted] using member
        · exact .inl member
      obtain ⟨held, output⟩ := later step takes
      refine ⟨held, fun i n p member positive => ?_⟩
      exact output i n p (by simpa using member) positive
    | dequeueOutputBuffer index size pts =>
      simp only [codecTakes] at takes
      split at takes
      · split at takes
        · rename_i known
          obtain ⟨held, output⟩ := later (fun p member => .inl
            ((List.dropWhile_sublist _).subset (List.mem_of_mem_tail member))) takes
          refine ⟨held, fun i n p member positive => ?_⟩
          rcases List.mem_cons.mp member with same | inside
          · cases same
            exact .inl known
          · exact output i n p inside positive
        · cases takes
      · rename_i empty
        obtain ⟨held, output⟩ := later (fun p member => .inl member) takes
        refine ⟨held, fun i n p member positive => ?_⟩
        rcases List.mem_cons.mp member with same | inside
        · cases same
          exact absurd positive empty
        · exact output i n p inside positive
    | processing | dequeueInputBuffer | decoded | recordAfterDecoded | releaseOutputBuffer =>
      obtain ⟨held, output⟩ := later (fun p member => .inl member) takes
      refine ⟨held, fun i n p member positive => ?_⟩
      exact output i n p (by simpa using member) positive

/-- Presentation times are used up in order. -/
structure Labelled (s : DecoderState) (log : List CodecAction) : Prop where
  past : ∀ p m, (p, m) ∈ inputs log → p < s.impl.nextInputPtsUs
  held : ∀ p ∈ s.inside, p < s.impl.nextInputPtsUs
  own : MetadataOwn log

theorem Labelled.processOneFrame {s t : DecoderState} {log out : List CodecAction} (inv : Labelled s log)
    {frame : EncodedFrame} {script : CodecScript} (ownOutputs : OwnOutputs s (.processOneFrame frame script))
    (run : decoderStep s (.processOneFrame frame script) = some (t, out)) : Labelled t (log ++ out) := by
  have result := processOneFrame_spec s.impl frame script
  simp only [decoderStep] at run
  generalize Decoder.processOneFrame s.impl frame script = made at result run
  obtain ⟨inside, takes, same⟩ := Option.map_eq_some_iff.mp run
  cases same
  obtain ⟨heldAfter, outputs⟩ := codecTakes_spec takes
  rcases result with rfl | spec
  · cases takes
    rw [List.append_nil]
    exact inv
  obtain ⟨rest, started, once⟩ := spec.started
  have new : inputs (log ++ made.2) = inputs log ++ (queued made.2).map fun pts => (pts, frame.metadata) := by
    rw [started, inputs_call once]
    rfl
  refine ⟨?_, ?_, ?_⟩
  · intro p m member
    rw [new, List.mem_append, List.mem_map] at member
    rcases member with old | ⟨q, fresh, same⟩
    · exact Nat.lt_of_lt_of_le (inv.past p m old) spec.pts
    · cases same
      exact (spec.fresh p fresh).2
  · intro p member
    rcases heldAfter p member with old | fresh
    · exact Nat.lt_of_lt_of_le (inv.held p old) spec.pts
    · exact (spec.fresh p fresh).2
  · intro shown p member
    rw [new]
    rcases List.mem_append.mp member with old | here
    · obtain ⟨⟨m, known⟩, carries⟩ := inv.own shown p old
      refine ⟨⟨m, List.mem_append_left _ known⟩, ?_⟩
      intro other found
      rcases List.mem_append.mp found with earlier | later
      · exact carries other earlier
      · -- new inputs have a later presentation time
        obtain ⟨q, fresh, same⟩ := List.mem_map.mp later
        cases same
        have before := inv.past p m known
        have after := (spec.fresh p fresh).1
        omega
    · obtain ⟨set, rfl, b, response, positive, rfl, taken⟩ := spec.delivered shown p here
      have next : b.presentationTimeUs = s.impl.nextInputPtsUs := ownOutputs set _ response positive
      have fresh : b.presentationTimeUs ∈ queued made.2 := by
        rcases outputs _ _ _ taken positive with old | fresh
        · have before := inv.held _ old
          omega
        · exact fresh
      refine ⟨⟨frame.metadata, List.mem_append_right _ (List.mem_map.mpr ⟨_, fresh, rfl⟩)⟩, ?_⟩
      intro m found
      rcases List.mem_append.mp found with earlier | later
      · have before := inv.past _ m earlier
        omega
      · obtain ⟨q, _, same⟩ := List.mem_map.mp later
        cases same
        rfl

theorem reach_labelled {fmt : Option OutputFormat} {s : DecoderState} {log : List CodecAction}
    (reach : (decoder fmt).Reach OwnOutputs s log) : Labelled s log := by
  refine reach.invariant ⟨by simp [inputs, inputsFrom], by simp [decoder, configured], by simp [MetadataOwn]⟩ ?_
  intro s log e t out inv ownOutputs run
  cases e with
  | processOneFrame frame script => exact inv.processOneFrame ownOutputs run
  | registerDecodeCompleteCallback callback =>
    cases run
    rw [List.append_nil]
    exact ⟨inv.past, inv.held, inv.own⟩

/-- In every run in which the codec outputs pictures only during the call that
queued them, frames carry their own parameters; so frames with different RTP
timestamps are delivered with different ones. -/
theorem metadata_own {fmt : Option OutputFormat} {s : DecoderState} {log : List CodecAction}
    (reach : (decoder fmt).Reach OwnOutputs s log) :
    MetadataOwn log ∧ ∀ f p g q m n, .decoded f p ∈ log → .decoded g q ∈ log → (p, m) ∈ inputs log →
      (q, n) ∈ inputs log → m.rtpTimestamp ≠ n.rtpTimestamp → f.rtpTimestamp ≠ g.rtpTimestamp := by
  have own := (reach_labelled reach).own
  refine ⟨own, ?_⟩
  intro f p g q m n shownF shownG fromM fromN different
  rw [(own f p shownF).2 m fromM, (own g q shownG).2 n fromN]
  exact different

/-- Two frames, each output during its own call, in the first drain and in the
second. -/
theorem metadata_own_prompt_codec :
    ∃ s log, (decoder (some ⟨some 2, some 2, some 21, none, none, none⟩)).Reach OwnOutputs s log ∧
      .decoded ⟨4000, 43000, some 8⟩ 1 ∈ log ∧ MetadataOwn log := by
  have reach := Machine.Reach.ofExec (M := decoder (some ⟨some 2, some 2, some 21, none, none, none⟩)) OwnOutputs
    [.registerDecodeCompleteCallback true,
      .processOneFrame ⟨[0, 0, 0, 1, 101], ⟨10, 1000, some 7⟩, true⟩
        ⟨some 0, some 64, true, [.buffer ⟨0, 0, 6, 0, some 6, none, true, true, true⟩], []⟩,
      .processOneFrame ⟨[0, 0, 0, 1, 65], ⟨43, 4000, some 8⟩, false⟩
        ⟨some 1, some 64, true, [], [.buffer ⟨1, 0, 6, 1, some 6, none, true, true, true⟩]⟩]
    rfl (by decide)
  exact ⟨_, _, reach, by decide, (metadata_own reach).1⟩

/-- A codec that holds one frame back: the first picture comes out during the
second call and is labelled as the second frame. -/
theorem metadata_not_own_with_latency :
    ¬ ∀ fmt s log, (decoder fmt).Reach Machine.Always s log → MetadataOwn log := by
  intro always
  have reach := Machine.Reach.ofExec (M := decoder (some ⟨some 2, some 2, some 21, none, none, none⟩)) Machine.Always
    [.registerDecodeCompleteCallback true,
      .processOneFrame ⟨[0, 0, 0, 1, 101], ⟨10, 1000, some 7⟩, true⟩ ⟨some 0, some 64, true, [], []⟩,
      .processOneFrame ⟨[0, 0, 0, 1, 65], ⟨43, 4000, some 8⟩, false⟩
        ⟨some 1, some 64, true, [.buffer ⟨0, 0, 6, 0, some 6, none, true, true, true⟩], []⟩]
    rfl (Machine.meets_always _ _)
  obtain ⟨_, carries⟩ := always _ _ _ reach ⟨4000, 43000, some 8⟩ 0 (by decide)
  exact absurd (carries ⟨10, 1000, some 7⟩ (by decide)) (by decide)

end WebRtcDemo.Decoder
