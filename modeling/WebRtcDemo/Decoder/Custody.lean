import WebRtcDemo.Decoder.Codec

namespace WebRtcDemo.Decoder

/-- What the decoder holds of the codec's input buffers: at most one, and
whether the codec refused the frame in it. -/
inductive InputHeld
  | none
  | taken (index : Nat)
  | refused (index : Nat)
  deriving DecidableEq, Repr

/-- The codec's buffers that the decoder holds. -/
structure Held where
  input : InputHeld
  outputs : List Nat
  deriving DecidableEq, Repr

/-- One call on the codec. It fails on a buffer that is not held, on a buffer
that is obtained twice, and on an input that is handed back otherwise than with
the frame (`feed` bytes) or empty; a second attempt has to follow a refused
one. What the codec answers to an empty input is not looked at. -/
def custody (feed : Nat) (h : Held) : CodecAction → Option Held
  | .dequeueInputBuffer index => if h.input = .none then some { h with input := .taken index } else none
  | .queueInputBuffer index size _ _ accepted =>
    match h.input with
    | .none => none
    | .taken i =>
      if i ≠ index then none
      else if size = 0 then some { h with input := .none }
      else if size = feed then some { h with input := if accepted then .none else .refused index }
      else none
    | .refused i => if i = index ∧ size = 0 then some { h with input := .none } else none
  | .dequeueOutputBuffer index _ _ => if index ∈ h.outputs then none else some { h with outputs := index :: h.outputs }
  | .releaseOutputBuffer index =>
    if index ∈ h.outputs then some { h with outputs := h.outputs.erase index } else none
  | .processing _ | .decoded _ _ | .recordAfterDecoded _ => some h

/-- Nothing is held at the end. -/
def GivenBack (feed : Nat) (log : List CodecAction) : Prop :=
  log.foldlM (custody feed) ⟨.none, []⟩ = some ⟨.none, []⟩

/-- One round of the drain loop gives its buffer back, whatever happens to the
picture in between. -/
theorem custody_round (feed : Nat) (input : InputHeld) (b : OutputBuffer) (frame : VideoFrame) (rtpTimestamp : Nat)
    (ok : Bool) (later : List CodecAction) :
    (CodecAction.dequeueOutputBuffer b.index b.size b.presentationTimeUs ::
      (if ok then [.decoded frame b.presentationTimeUs, .recordAfterDecoded rtpTimestamp] else []) ++
      .releaseOutputBuffer b.index :: later).foldlM (custody feed) ⟨input, []⟩ =
        later.foldlM (custody feed) ⟨input, []⟩ := by
  have released : custody feed ⟨input, [b.index]⟩ (.releaseOutputBuffer b.index) = some ⟨input, []⟩ := by
    simp [custody]
  cases ok with
  | true => exact congrArg (· >>= fun h => later.foldlM (custody feed) h) released
  | false => exact congrArg (· >>= fun h => later.foldlM (custody feed) h) released

theorem drainOutputs_custody (feed : Nat) (input : InputHeld) (m : FrameMeta) (s : Impl)
    (responses : List OutputResponse) :
    (drainOutputs m s responses).2.1.foldlM (custody feed) ⟨input, []⟩ = some ⟨input, []⟩ := by
  induction responses generalizing s with
  | nil => rfl
  | cons r rest ih =>
    cases r with
    | formatChanged fmt => exact ih (refreshOutputFormat s fmt)
    | buffersChanged fmt => exact ih (refreshOutputFormat s fmt)
    | tryAgainLater => rfl
    | error => rfl
    | buffer b =>
      simp only [drainOutputs]
      generalize (if 0 < b.size ∧ (s.outWidth ≤ 0 ∨ s.outHeight ≤ 0) then refreshOutputFormat s b.format else s) = u
      rw [custody_round]
      exact ih (deliverOutput u b).1

theorem drainTwice_custody (feed : Nat) (input : InputHeld) (m : FrameMeta) (s : Impl) (script : CodecScript) :
    (drainTwice m s script).2.foldlM (custody feed) ⟨input, []⟩ = some ⟨input, []⟩ := by
  have first := drainOutputs_custody feed input m s script.drain0
  have second := drainOutputs_custody feed input m (drainOutputs m s script.drain0).1 script.drain1
  simp only [drainTwice, List.foldlM_append, first]
  exact second

end WebRtcDemo.Decoder
