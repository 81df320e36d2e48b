import WebRtcDemo.Lib.Liveness
import WebRtcDemo.Renderer.Node

/-! The item on its three threads. The track calls `OnFrame` on one of its own,
QML shows the properties on the GUI thread, and the scene graph takes the frames
while the GUI thread waits. -/

namespace WebRtcDemo.Renderer

/-- `QSizeF` -/
structure Size where
  width : ℚ
  height : ℚ
  deriving DecidableEq

structure VideoSinkWants where
  rotationApplied : Bool
  blackFrames : Bool
  isActive : Bool
  resolutionAlignment : Nat
  maxPixelCount : Int
  targetPixelCount : Int
  deriving DecidableEq, Repr

def buildVideoSinkWantsForRenderer (size : Size) : VideoSinkWants :=
  let vw := max 1 ⌊size.width⌋
  let vh := max 1 ⌊size.height⌋
  ⟨true, false, false, 2, 2 ^ 31 - 1, vw * vh⟩

structure SampledPipeline where
  highlightFrameId : Int := -1
  decodeToRenderMs : ℚ := -1
  wallOnFrameToRenderMs : ℚ := -1
  deriving DecidableEq

/-- What is posted to the GUI thread. -/
inductive Posted
  | highlightFrameIdChanged
  | hasVideoChanged
  | update
  | applySampledPipelineUi (p : SampledPipeline)
  deriving DecidableEq

/-- What an `OnFrame` has left to do after it gave up the lock. -/
inductive OnFrameRest
  | notifyId (idChanged : Bool)
  | setHasVideo
  | notifyHasVideo
  | update
  deriving DecidableEq

/-- What QML has read when it was last notified. -/
structure Shown where
  hasVideo : Bool := false
  highlight : Int × Bool := (-1, false)
  sampled : Bool × SampledPipeline := (false, {})
  deriving DecidableEq

/-- The item, with the sinks it is registered as, what is posted for it, whether
the scene graph is to update it, and the `OnFrame` under way. -/
structure Item where
  renderer : VideoRenderer := {}
  size : Size := ⟨0, 0⟩
  highlightFrameId : Int := -1
  frameIdFromTracking : Bool := false
  sampled : SampledPipeline := {}
  hasSampledPipelineUi : Bool := false
  sinks : Nat → Option VideoSinkWants := fun _ => none
  running : Option OnFrameRest := none
  posted : List Posted := []
  dirty : Bool := false
  shown : Shown := {}

inductive ItemEvent
  /-- the track calls `OnFrame`, which runs until it gives up the lock -/
  | onFrame (track number : Nat) (buffer : Option FrameBuffer) (rawId : UInt16) (nowUs : Int)
  /-- the next thing that this `OnFrame` does -/
  | resume
  /-- the GUI thread takes what was posted first -/
  | dispatch
  | setVideoTrack (track : Option Nat)
  | clearVideoTrack
  | geometryChange (size : Size)
  /-- whether the item has a window with an OpenGL scene graph then -/
  | updatePaintNode (openGl : Bool)
  /-- the render thread posts the times of a sampled frame -/
  | sampledRender (p : SampledPipeline)
  deriving DecidableEq

inductive ItemAction
  | delivered (track number : Nat)
  | taken (number : Nat)
  deriving DecidableEq, Repr

/-! The signals: QML reads the property again. -/

def Item.hasVideoChanged (s : Item) : Item := { s with shown.hasVideo := s.renderer.hasVideo }

def Item.highlightFrameIdChanged (s : Item) : Item :=
  { s with shown.highlight := (s.highlightFrameId, s.frameIdFromTracking) }

def Item.sampledPipelineStatsChanged (s : Item) : Item :=
  { s with shown.sampled := (s.hasSampledPipelineUi, s.sampled) }

/-- Frames without an id of their own are counted. -/
def nextPreviewSeq (item : VideoRenderer) (rawId : UInt16) : Nat :=
  if rawId != 0 then item.localPreviewSeq else (item.localPreviewSeq + 1) % 2 ^ 32

def displayIdOf (item : VideoRenderer) (rawId : UInt16) : Int :=
  if rawId != 0 then rawId.toNat else CInt.wrap (nextPreviewSeq item rawId)

def queueFrame (item : VideoRenderer) (number : Nat) (pending : FrameBuffer) (rawId : UInt16) (nowUs : Int) : VideoRenderer :=
  { item with
    localPreviewSeq := nextPreviewSeq item rawId
    pendingBuffer := some ⟨number, pending⟩
    pendingValid := true
    pendingTrace := ⟨nowUs, displayIdOf item rawId, rawId != 0⟩ }

/-- The part of `OnFrame` under the lock, and whether it changed the frame id. -/
def handOff (s : Item) (number : Nat) (pending : FrameBuffer) (rawId : UInt16) (nowUs : Int) : Item × Bool :=
  let displayId := displayIdOf s.renderer rawId
  let fromTracking := rawId != 0
  let s := { s with renderer := queueFrame s.renderer number pending rawId nowUs }
  if s.highlightFrameId ≠ displayId ∨ s.frameIdFromTracking ≠ fromTracking then
    ({ s with highlightFrameId := displayId, frameIdFromTracking := fromTracking }, true)
  else (s, false)

/-- `OnFrame` as far as it runs under the lock. -/
def Item.onFrame (s : Item) (number : Nat) (buffer : Option FrameBuffer) (rawId : UInt16) (nowUs : Int) : Item :=
  match pendingOf buffer with
  | none => s
  | some pending =>
    let (s, idChanged) := handOff s number pending rawId nowUs
    { s with running := some (.notifyId idChanged) }

/-- The rest of `OnFrame`, one thing at a time. -/
def Item.resume (s : Item) : OnFrameRest → Item
  | .notifyId idChanged =>
    { s with
      posted := if idChanged then s.posted ++ [.highlightFrameIdChanged] else s.posted
      running := some .setHasVideo }
  | .setHasVideo =>
    if s.renderer.hasVideo then { s with running := some .update }
    else { s with renderer := { s.renderer with hasVideo := true }, running := some .notifyHasVideo }
  | .notifyHasVideo => { s with posted := s.posted ++ [.hasVideoChanged], running := some .update }
  | .update => { s with posted := s.posted ++ [.update], running := none }

def applySampledPipelineUi (s : Item) (p : SampledPipeline) : Item :=
  Item.sampledPipelineStatsChanged { s with sampled := p, hasSampledPipelineUi := true }

def Item.dispatch (s : Item) : Posted → Item
  | .highlightFrameIdChanged => s.highlightFrameIdChanged
  | .hasVideoChanged => s.hasVideoChanged
  | .update => { s with dirty := true }
  | .applySampledPipelineUi p => applySampledPipelineUi s p

def applyVideoSinkWants (s : Item) : Item :=
  match s.renderer.track with
  | some track => { s with sinks := Function.update s.sinks track (some (buildVideoSinkWantsForRenderer s.size)) }
  | none => s

/-- `m_track->RemoveSink(this)` -/
def removeSink (s : Item) : Item :=
  match s.renderer.track with
  | some track => { s with sinks := Function.update s.sinks track none }
  | none => s

def Item.clearVideoTrack (s : Item) : Item :=
  let hadVideo := s.renderer.hasVideo
  let s := removeSink s
  let s := { s with
    renderer := Renderer.clearVideoTrack s.renderer
    highlightFrameId := -1
    frameIdFromTracking := false }
  let s := if hadVideo then s.hasVideoChanged else s
  let s := s.highlightFrameIdChanged
  let s := if s.hasSampledPipelineUi then
      Item.sampledPipelineStatsChanged { s with sampled := {}, hasSampledPipelineUi := false }
    else s
  { s with posted := s.posted ++ [.update] }

def Item.setVideoTrack (s : Item) (track : Option Nat) : Item :=
  if s.renderer.track = track then s
  else
    let s := s.clearVideoTrack
    applyVideoSinkWants { s with renderer := { s.renderer with track := track } }

/-- `sameSize` is the comparison of `QSizeF`, which is approximate. -/
def Item.geometryChange (sameSize : Size → Size → Bool) (s : Item) (size : Size) : Item :=
  let differs := !sameSize size s.size
  let s := { s with size := size }
  let s := if s.renderer.track.isSome && differs then applyVideoSinkWants s else s
  if differs then { s with dirty := true } else s

/-- `sync` takes the frame that is pending. Without OpenGL there is no node, and the frame stays. -/
def Item.updatePaintNode (s : Item) (openGl : Bool) : Item × List ItemAction :=
  if openGl then
    let (renderer, frame) := takeFrame s.renderer
    ({ s with renderer := renderer, dirty := false }, frame.toList.map fun frame => .taken frame.number)
  else ({ s with dirty := false }, [])

/-- `RemoveSink` returns only when no `OnFrame` of the track is under way. -/
def Item.removable (s : Item) : Bool := s.renderer.track.isNone || s.running.isNone

def itemStep (sameSize : Size → Size → Bool) (s : Item) : ItemEvent → Option (Item × List ItemAction)
  | .onFrame track number buffer rawId nowUs =>
    if (s.sinks track).isSome && s.running.isNone then
      some (s.onFrame number buffer rawId nowUs, [.delivered track number])
    else none
  | .resume => s.running.map fun rest => (s.resume rest, [])
  | .dispatch =>
    match s.posted with
    | [] => none
    | first :: rest => some (Item.dispatch { s with posted := rest } first, [])
  | .setVideoTrack track =>
    if s.renderer.track = track || s.removable then some (s.setVideoTrack track, []) else none
  | .clearVideoTrack => if s.removable then some (s.clearVideoTrack, []) else none
  | .geometryChange size => some (s.geometryChange sameSize size, [])
  | .updatePaintNode openGl => if s.dirty then some (s.updatePaintNode openGl) else none
  | .sampledRender p => some ({ s with posted := s.posted ++ [.applySampledPipelineUi p] }, [])

def itemMachine (sameSize : Size → Size → Bool) : Machine Item ItemEvent ItemAction := ⟨{}, itemStep sameSize⟩

variable {sameSize : Size → Size → Bool} {s t : Item} {log out : List ItemAction}

/-- Everything a step can be. -/
inductive ItemMove (sameSize : Size → Size → Bool) (s : Item) : ItemEvent → Item → List ItemAction → Prop
  | onFrame {track} (number buffer rawId nowUs) (registered : (s.sinks track).isSome = true) (free : s.running = none) :
    ItemMove sameSize s (.onFrame track number buffer rawId nowUs) (s.onFrame number buffer rawId nowUs)
      [.delivered track number]
  | resume {rest} (under : s.running = some rest) : ItemMove sameSize s .resume (s.resume rest) []
  | dispatch {first rest} (queue : s.posted = first :: rest) :
    ItemMove sameSize s .dispatch (Item.dispatch { s with posted := rest } first) []
  | keepsTrack {track} (same : s.renderer.track = track) : ItemMove sameSize s (.setVideoTrack track) s []
  | setVideoTrack {track} (other : s.renderer.track ≠ track) (removable : s.removable = true) :
    ItemMove sameSize s (.setVideoTrack track)
      (applyVideoSinkWants { s.clearVideoTrack with renderer := { s.clearVideoTrack.renderer with track := track } }) []
  | clearVideoTrack (removable : s.removable = true) : ItemMove sameSize s .clearVideoTrack s.clearVideoTrack []
  | geometryChange (size) : ItemMove sameSize s (.geometryChange size) (s.geometryChange sameSize size) []
  | updatePaintNode (openGl) (dirty : s.dirty = true) :
    ItemMove sameSize s (.updatePaintNode openGl) (s.updatePaintNode openGl).1 (s.updatePaintNode openGl).2
  | sampledRender (p) : ItemMove sameSize s (.sampledRender p) { s with posted := s.posted ++ [.applySampledPipelineUi p] } []

theorem itemMove_of_step {e : ItemEvent} (run : itemStep sameSize s e = some (t, out)) : ItemMove sameSize s e t out := by
  cases e with
  | onFrame track number buffer rawId nowUs =>
    simp only [itemStep] at run
    split at run
    · rename_i ready
      obtain ⟨registered, free⟩ := Bool.and_eq_true _ _ |>.mp ready
      cases run
      exact .onFrame number buffer rawId nowUs registered (Option.isNone_iff_eq_none.mp free)
    · cases run
  | resume =>
    obtain ⟨rest, under, same⟩ := Option.map_eq_some_iff.mp run
    cases same
    exact .resume under
  | dispatch =>
    simp only [itemStep] at run
    split at run
    · cases run
    · rename_i first rest queue
      cases run
      exact .dispatch queue
  | setVideoTrack track =>
    simp only [itemStep] at run
    split at run
    · rename_i allowed
      cases run
      by_cases same : s.renderer.track = track
      · rw [Item.setVideoTrack, if_pos same]
        exact .keepsTrack same
      · rw [Item.setVideoTrack, if_neg same]
        exact .setVideoTrack same (by simpa [same] using allowed)
    · cases run
  | clearVideoTrack =>
    simp only [itemStep] at run
    split at run
    · rename_i removable
      cases run
      exact .clearVideoTrack removable
    · cases run
  | geometryChange size =>
    cases run
    exact .geometryChange size
  | updatePaintNode openGl =>
    simp only [itemStep] at run
    split at run
    · rename_i dirty
      obtain ⟨rfl, rfl⟩ : t = (s.updatePaintNode openGl).1 ∧ out = (s.updatePaintNode openGl).2 := by
        rw [Option.some.inj run]
        exact ⟨rfl, rfl⟩
      exact .updatePaintNode openGl dirty
    · cases run
  | sampledRender p =>
    cases run
    exact .sampledRender p

/-- No notification is lost: what QML shows is the present value, or it is going
to be notified. -/
structure ItemKept (s : Item) : Prop where
  owner : s.running ≠ none → s.renderer.track ≠ none
  registered : ∀ track, s.sinks track ≠ none → s.renderer.track = some track
  held : s.renderer.pendingValid = true → s.renderer.pendingBuffer ≠ none
  hasVideo : s.shown.hasVideo = s.renderer.hasVideo ∨ .hasVideoChanged ∈ s.posted ∨ s.running = some .notifyHasVideo
  highlight : s.shown.highlight = (s.highlightFrameId, s.frameIdFromTracking) ∨ .highlightFrameIdChanged ∈ s.posted ∨
    s.running = some (.notifyId true)
  sampled : s.shown.sampled = (s.hasSampledPipelineUi, s.sampled)

theorem ItemKept.start : ItemKept {} where
  owner := fun busy => absurd rfl busy
  registered := fun _ there => absurd rfl there
  held := fun valid => by cases valid
  hasVideo := .inl rfl
  highlight := .inl rfl
  sampled := rfl

/-- The frame is queued; the id has changed exactly if that is said. -/
theorem handOff_spec (s : Item) (number : Nat) (pending : FrameBuffer) (rawId : UInt16) (nowUs : Int) :
    ∃ id fromTracking, (handOff s number pending rawId nowUs).1 =
        { s with
          renderer := queueFrame s.renderer number pending rawId nowUs
          highlightFrameId := id
          frameIdFromTracking := fromTracking } ∧
      ((handOff s number pending rawId nowUs).2 = false → (id, fromTracking) = (s.highlightFrameId, s.frameIdFromTracking)) := by
  unfold handOff
  simp only
  split
  · exact ⟨_, _, rfl, fun same => by cases same⟩
  · exact ⟨_, _, rfl, fun _ => rfl⟩

/-- With its later stages it is the `onFrame` of the mailbox. -/
theorem queueFrame_onFrame (item : VideoRenderer) (number : Nat) {buffer : Option FrameBuffer} {pending : FrameBuffer}
    (rawId : UInt16) (nowUs : Int) (kept : pendingOf buffer = some pending) :
    { queueFrame item number pending rawId nowUs with hasVideo := true } = onFrame item number buffer rawId nowUs := by
  rw [onFrame, kept]
  rfl

theorem posted_left {p first : Posted} {rest : List Posted} (queue : s.posted = first :: rest) (other : p ≠ first)
    (member : p ∈ s.posted) : p ∈ rest := by
  rw [queue] at member
  exact (List.mem_cons.mp member).resolve_left other

namespace ItemKept

theorem onFrame (kept : ItemKept s) {track : Nat} (registered : (s.sinks track).isSome = true) (free : s.running = none)
    (number : Nat) (buffer : Option FrameBuffer) (rawId : UInt16) (nowUs : Int) :
    ItemKept (s.onFrame number buffer rawId nowUs) := by
  have owner : s.renderer.track = some track := kept.registered track (Option.isSome_iff_ne_none.mp registered)
  unfold Item.onFrame
  cases pendingOf buffer with
  | none => exact kept
  | some pending =>
    obtain ⟨id, fromTracking, made, unchanged⟩ := handOff_spec s number pending rawId nowUs
    simp only [made]
    refine ⟨fun _ => ?_, kept.registered, fun _ => ?_, ?_, ?_, kept.sampled⟩
    · exact owner ▸ Option.some_ne_none track
    · exact Option.some_ne_none _
    · rcases kept.hasVideo with same | posted | under
      · exact .inl same
      · exact .inr (.inl posted)
      · rw [free] at under
        cases under
    · cases changed : (handOff s number pending rawId nowUs).2 with
      | true => exact .inr (.inr rfl)
      | false =>
        rw [unchanged changed]
        rcases kept.highlight with same | posted | under
        · exact .inl same
        · exact .inr (.inl posted)
        · rw [free] at under
          cases under

theorem resume (kept : ItemKept s) {rest : OnFrameRest} (under : s.running = some rest) : ItemKept (s.resume rest) := by
  have owner : s.renderer.track ≠ none := kept.owner (under ▸ Option.some_ne_none rest)
  have hasVideo : s.shown.hasVideo = s.renderer.hasVideo ∨ .hasVideoChanged ∈ s.posted ∨ rest = .notifyHasVideo := by
    simpa [under] using kept.hasVideo
  have highlight : s.shown.highlight = (s.highlightFrameId, s.frameIdFromTracking) ∨ .highlightFrameIdChanged ∈ s.posted ∨
      rest = .notifyId true := by
    simpa [under] using kept.highlight
  cases rest with
  | notifyId idChanged =>
    refine ⟨fun _ => owner, kept.registered, kept.held, ?_, ?_, kept.sampled⟩
    · rcases hasVideo with same | posted | other
      · exact .inl same
      · refine .inr (.inl ?_)
        change _ ∈ if idChanged = true then s.posted ++ [.highlightFrameIdChanged] else s.posted
        split
        · exact List.mem_append_left _ posted
        · exact posted
      · cases other
    · cases idChanged with
      | true => exact .inr (.inl (List.mem_append_right _ List.mem_cons_self))
      | false =>
        rcases highlight with same | posted | other
        · exact .inl same
        · exact .inr (.inl posted)
        · cases other
  | setHasVideo =>
    simp only [Item.resume]
    split
    · refine ⟨fun _ => owner, kept.registered, kept.held, ?_, ?_, kept.sampled⟩
      · exact hasVideo.imp_right fun later => .inl (later.resolve_right (by simp))
      · exact highlight.imp_right fun later => .inl (later.resolve_right (by simp))
    · refine ⟨fun _ => owner, kept.registered, kept.held, .inr (.inr rfl), ?_, kept.sampled⟩
      exact highlight.imp_right fun later => .inl (later.resolve_right (by simp))
  | notifyHasVideo =>
    refine ⟨fun _ => owner, kept.registered, kept.held, .inr (.inl (List.mem_append_right _ List.mem_cons_self)), ?_,
      kept.sampled⟩
    exact highlight.imp_right fun later => .inl (List.mem_append_left _ (later.resolve_right (by simp)))
  | update =>
    refine ⟨fun busy => absurd rfl busy, kept.registered, kept.held, ?_, ?_, kept.sampled⟩
    · exact hasVideo.imp_right fun later => .inl (List.mem_append_left _ (later.resolve_right (by simp)))
    · exact highlight.imp_right fun later => .inl (List.mem_append_left _ (later.resolve_right (by simp)))

theorem dispatch (kept : ItemKept s) {first : Posted} {rest : List Posted} (queue : s.posted = first :: rest) :
    ItemKept (Item.dispatch { s with posted := rest } first) := by
  have left {p : Posted} (other : p ≠ first) (member : p ∈ s.posted) : p ∈ rest := posted_left queue other member
  cases first with
  | highlightFrameIdChanged =>
    refine ⟨kept.owner, kept.registered, kept.held, ?_, .inl rfl, kept.sampled⟩
    · exact kept.hasVideo.imp_right fun later => later.imp_left (left (by simp))
  | hasVideoChanged =>
    refine ⟨kept.owner, kept.registered, kept.held, .inl rfl, ?_, kept.sampled⟩
    · exact kept.highlight.imp_right fun later => later.imp_left (left (by simp))
  | update =>
    refine ⟨kept.owner, kept.registered, kept.held, ?_, ?_, kept.sampled⟩
    · exact kept.hasVideo.imp_right fun later => later.imp_left (left (by simp))
    · exact kept.highlight.imp_right fun later => later.imp_left (left (by simp))
  | applySampledPipelineUi p =>
    refine ⟨kept.owner, kept.registered, kept.held, ?_, ?_, rfl⟩
    · exact kept.hasVideo.imp_right fun later => later.imp_left (left (by simp))
    · exact kept.highlight.imp_right fun later => later.imp_left (left (by simp))

theorem updatePaintNode (kept : ItemKept s) (openGl : Bool) : ItemKept (s.updatePaintNode openGl).1 := by
  unfold Item.updatePaintNode takeFrame
  cases openGl with
  | false => exact ⟨kept.owner, kept.registered, kept.held, kept.hasVideo, kept.highlight, kept.sampled⟩
  | true =>
    by_cases valid : s.renderer.pendingValid = true
    · rw [if_pos rfl, if_pos valid]
      cases there : s.renderer.pendingBuffer with
      | none => exact absurd there (kept.held valid)
      | some frame =>
        exact ⟨kept.owner, kept.registered, (fun again => by cases again), kept.hasVideo, kept.highlight, kept.sampled⟩
    · rw [if_pos rfl, if_neg valid]
      exact ⟨kept.owner, kept.registered, fun again => absurd again valid, kept.hasVideo, kept.highlight, kept.sampled⟩

/-- Nothing of the track is under way when its sink can be removed. -/
theorem idle (kept : ItemKept s) (removable : s.removable = true) : s.running = none := by
  rcases Bool.or_eq_true _ _ |>.mp removable with none | idle
  · by_contra busy
    exact kept.owner busy (Option.isNone_iff_eq_none.mp none)
  · exact Option.isNone_iff_eq_none.mp idle

end ItemKept

theorem removeSink_sinks (s : Item) (track : Nat) :
    (removeSink s).sinks track = if s.renderer.track = some track then none else s.sinks track := by
  unfold removeSink
  cases here : s.renderer.track with
  | none => rfl
  | some old =>
    change Function.update s.sinks old none track = _
    rw [Function.update_apply]
    exact if_congr (eq_comm.trans Option.some_inj.symm) rfl rfl

/-- What `clearVideoTrack` leaves. -/
structure Cleared (s t : Item) : Prop where
  renderer : t.renderer = clearVideoTrack s.renderer
  size : t.size = s.size
  sinks : t.sinks = (removeSink s).sinks
  running : t.running = s.running
  posted : t.posted = s.posted ++ [.update]
  hasVideo : t.shown.hasVideo = if s.renderer.hasVideo then false else s.shown.hasVideo
  highlight : t.shown.highlight = (t.highlightFrameId, t.frameIdFromTracking)
  sampled : s.shown.sampled = (s.hasSampledPipelineUi, s.sampled) → t.shown.sampled = (t.hasSampledPipelineUi, t.sampled)

theorem removeSink_keeps (s : Item) : removeSink s = { s with sinks := (removeSink s).sinks } := by
  unfold removeSink
  cases s.renderer.track <;> rfl

theorem cleared (s : Item) : Cleared s s.clearVideoTrack := by
  simp only [Item.clearVideoTrack]
  rw [removeSink_keeps]
  constructor
  · split <;> split <;> rfl
  · split <;> split <;> rfl
  · split <;> split <;> rfl
  · split <;> split <;> rfl
  · split <;> split <;> rfl
  · split <;> split <;> rfl
  · split <;> split <;> rfl
  · intro same
    split
    · split
      · rfl
      · exact same
    · split
      · rfl
      · exact same

theorem applyVideoSinkWants_keeps (s : Item) : applyVideoSinkWants s = { s with sinks := (applyVideoSinkWants s).sinks } := by
  unfold applyVideoSinkWants
  cases s.renderer.track <;> rfl

theorem applyVideoSinkWants_sinks (s : Item) (track : Nat) : (applyVideoSinkWants s).sinks track =
    if s.renderer.track = some track then some (buildVideoSinkWantsForRenderer s.size) else s.sinks track := by
  unfold applyVideoSinkWants
  cases here : s.renderer.track with
  | none => rfl
  | some own =>
    change Function.update s.sinks own _ track = _
    rw [Function.update_apply]
    exact if_congr (eq_comm.trans Option.some_inj.symm) rfl rfl

/-- A size that compares equal is only taken over. -/
theorem geometryChange_cases (sameSize : Size → Size → Bool) (s : Item) (size : Size) :
    (sameSize size s.size = true ∧ s.geometryChange sameSize size = { s with size := size }) ∨
      s.geometryChange sameSize size = { applyVideoSinkWants { s with size := size } with dirty := true } := by
  unfold Item.geometryChange
  cases sameSize size s.size with
  | true => exact .inl ⟨rfl, by simp⟩
  | false =>
    refine .inr ?_
    unfold applyVideoSinkWants
    cases here : s.renderer.track with
    | none => simp [here]
    | some track => simp [here]

namespace ItemKept

/-- No sink is left after the track was cleared. -/
theorem no_sinks (kept : ItemKept s) (track : Nat) : (removeSink s).sinks track = none := by
  rw [removeSink_sinks]
  split
  · rfl
  · rename_i other
    by_contra there
    exact other (kept.registered track there)

theorem clearVideoTrack (kept : ItemKept s) (removable : s.removable = true) : ItemKept s.clearVideoTrack := by
  have clear := cleared s
  have idle : s.clearVideoTrack.running = none := clear.running.trans (kept.idle removable)
  refine ⟨fun busy => absurd idle busy, fun track there => ?_, fun valid => ?_, ?_, .inl clear.highlight,
    clear.sampled kept.sampled⟩
  · rw [clear.sinks] at there
    exact absurd (kept.no_sinks track) there
  · rw [clear.renderer] at valid
    cases valid
  · rw [clear.hasVideo, clear.renderer, clear.posted]
    split
    · exact .inl rfl
    · rename_i never
      rcases kept.hasVideo with same | posted | under
      · have off : s.renderer.hasVideo = false := by simpa using never
        exact .inl (same.trans off)
      · exact .inr (.inl (List.mem_append_left _ posted))
      · rw [kept.idle removable] at under
        cases under

/-- The sinks agree with the track; nothing else depends on it. -/
theorem withTrack (kept : ItemKept s) (idle : s.running = none) (none : ∀ track, s.sinks track = none) (track : Option Nat) :
    ItemKept (applyVideoSinkWants { s with renderer := { s.renderer with track := track } }) := by
  rw [applyVideoSinkWants_keeps]
  refine ⟨fun busy => absurd idle busy, fun other there => ?_, kept.held, kept.hasVideo, kept.highlight, kept.sampled⟩
  rw [applyVideoSinkWants_sinks] at there
  split at there
  · rename_i here
    exact here
  · exact absurd (none other) there

theorem geometryChange (kept : ItemKept s) (size : Size) : ItemKept (s.geometryChange sameSize size) := by
  have sized : ItemKept { s with size := size } :=
    ⟨kept.owner, kept.registered, kept.held, kept.hasVideo, kept.highlight, kept.sampled⟩
  have wanted : ItemKept (applyVideoSinkWants { s with size := size }) := by
    rw [applyVideoSinkWants_keeps]
    refine ⟨kept.owner, fun other there => ?_, kept.held, kept.hasVideo, kept.highlight, kept.sampled⟩
    rw [applyVideoSinkWants_sinks] at there
    split at there
    · rename_i here
      exact here
    · exact kept.registered other there
  have dirtied {s : Item} (kept : ItemKept s) : ItemKept { s with dirty := true } :=
    ⟨kept.owner, kept.registered, kept.held, kept.hasVideo, kept.highlight, kept.sampled⟩
  rcases geometryChange_cases sameSize s size with ⟨_, same⟩ | changed
  · exact same ▸ sized
  · exact changed ▸ dirtied wanted

theorem step (kept : ItemKept s) {e : ItemEvent} (run : itemStep sameSize s e = some (t, out)) : ItemKept t := by
  cases itemMove_of_step run with
  | onFrame number buffer rawId nowUs registered free => exact kept.onFrame registered free number buffer rawId nowUs
  | resume under => exact kept.resume under
  | dispatch queue => exact kept.dispatch queue
  | keepsTrack => exact kept
  | setVideoTrack _ removable =>
    have clear := cleared s
    refine (kept.clearVideoTrack removable).withTrack (clear.running.trans (kept.idle removable)) (fun track => ?_) _
    rw [clear.sinks]
    exact kept.no_sinks track
  | clearVideoTrack removable => exact kept.clearVideoTrack removable
  | geometryChange size => exact kept.geometryChange size
  | updatePaintNode openGl _ => exact kept.updatePaintNode openGl
  | sampledRender p =>
    refine ⟨kept.owner, kept.registered, kept.held, ?_, ?_, kept.sampled⟩
    · exact kept.hasVideo.imp_right fun later => later.imp_left (List.mem_append_left _)
    · exact kept.highlight.imp_right fun later => later.imp_left (List.mem_append_left _)

theorem reach {ok : Item → ItemEvent → Prop} (reach : (itemMachine sameSize).Reach ok s log) : ItemKept s :=
  reach.invariant (P := fun s _ => ItemKept s) .start fun _ _ _ _ _ kept _ run => kept.step run

end ItemKept

/-- Whenever the node is updated, the item has a window with an OpenGL scene graph. -/
def OnOpenGl (_ : Item) : ItemEvent → Prop
  | .updatePaintNode openGl => openGl = true
  | _ => True

instance (s : Item) : ∀ e, Decidable (OnOpenGl s e)
  | .updatePaintNode openGl => inferInstanceAs (Decidable (openGl = true))
  | .onFrame .. | .resume | .dispatch | .setVideoTrack _ | .clearVideoTrack | .geometryChange _ | .sampledRender _ =>
    isTrue trivial

/-- A frame that waits is going to be asked for. -/
def Awaited (s : Item) : Prop :=
  s.renderer.pendingValid = true → s.running ≠ none ∨ .update ∈ s.posted ∨ s.dirty = true

namespace Awaited

/-- Until it returns, `OnFrame` has the update left to do. -/
theorem resume (rest : OnFrameRest) : Awaited (s.resume rest) := by
  cases rest with
  | notifyId | notifyHasVideo => exact fun _ => .inl (Option.some_ne_none _)
  | setHasVideo =>
    simp only [Item.resume]
    split <;> exact fun _ => .inl (Option.some_ne_none _)
  | update => exact fun _ => .inr (.inl (List.mem_append_right _ List.mem_cons_self))

theorem dispatch (awaited : Awaited s) {first : Posted} {rest : List Posted} (queue : s.posted = first :: rest) :
    Awaited (Item.dispatch { s with posted := rest } first) := by
  cases first with
  | update => exact fun _ => .inr (.inr rfl)
  | highlightFrameIdChanged | hasVideoChanged | applySampledPipelineUi =>
    exact fun valid => (awaited valid).imp_right fun later => later.imp_left (posted_left queue (by simp))

theorem of_cleared {track : Option Nat} (cleared : t.renderer = { clearVideoTrack s.renderer with track := track }) :
    Awaited t := by
  intro valid
  rw [cleared] at valid
  cases valid

theorem geometryChange (awaited : Awaited s) (size : Size) : Awaited (s.geometryChange sameSize size) := by
  rcases geometryChange_cases sameSize s size with ⟨_, same⟩ | changed
  · exact same ▸ awaited
  · exact changed ▸ fun _ => .inr (.inr rfl)

/-- With OpenGL the frame that waits is taken. -/
theorem updatePaintNode (kept : ItemKept s) : Awaited (s.updatePaintNode true).1 := by
  unfold Item.updatePaintNode takeFrame
  intro waits
  by_cases valid : s.renderer.pendingValid = true
  · rw [if_pos rfl, if_pos valid] at waits
    cases there : s.renderer.pendingBuffer with
    | none => exact absurd there (kept.held valid)
    | some frame =>
      rw [there] at waits
      cases waits
  · rw [if_pos rfl, if_neg valid] at waits
    exact absurd waits valid

theorem step (awaited : Awaited s) (kept : ItemKept s) {e : ItemEvent} (onOpenGl : OnOpenGl s e)
    (run : itemStep sameSize s e = some (t, out)) : Awaited t := by
  cases itemMove_of_step run with
  | onFrame number buffer rawId nowUs _ _ =>
    unfold Item.onFrame
    cases pendingOf buffer with
    | none => exact awaited
    | some pending => exact fun _ => .inl (Option.some_ne_none _)
  | @resume rest _ => exact resume rest
  | dispatch queue => exact awaited.dispatch queue
  | keepsTrack => exact awaited
  | @setVideoTrack track _ _ =>
    rw [applyVideoSinkWants_keeps]
    exact of_cleared (congrArg (fun item : VideoRenderer => { item with track := track }) (cleared s).renderer)
  | clearVideoTrack =>
    have none : s.clearVideoTrack.renderer = { clearVideoTrack s.renderer with track := none } := (cleared s).renderer
    exact of_cleared none
  | geometryChange size => exact awaited.geometryChange size
  | updatePaintNode openGl _ =>
    cases onOpenGl
    exact updatePaintNode kept
  | sampledRender p =>
    exact fun valid => (awaited valid).imp_right fun later => later.imp_left (List.mem_append_left _)

theorem reach {ok : Item → ItemEvent → Prop} (onOpenGl : ∀ s e, ok s e → OnOpenGl s e)
    (reach : (itemMachine sameSize).Reach ok s log) : Awaited s := by
  have both := reach.invariant (P := fun s _ => ItemKept s ∧ Awaited s) ⟨.start, fun valid => by cases valid⟩
    fun s _ e _ _ held admitted run => ⟨held.1.step run, held.2.step held.1 (onOpenGl s e admitted) run⟩
  exact both.2

end Awaited

/-- In every run, on whichever threads: QML shows the present values or is going
to be notified of them; and in every run on OpenGL a frame that waits is going to
be asked for. -/
theorem item_notifies {ok : Item → ItemEvent → Prop} (reach : (itemMachine sameSize).Reach ok s log) :
    (s.shown.hasVideo = s.renderer.hasVideo ∨ .hasVideoChanged ∈ s.posted ∨ s.running = some .notifyHasVideo) ∧
      (s.shown.highlight = (s.highlightFrameId, s.frameIdFromTracking) ∨ .highlightFrameIdChanged ∈ s.posted ∨
        s.running = some (.notifyId true)) ∧
      s.shown.sampled = (s.hasSampledPipelineUi, s.sampled) ∧
      ((∀ s e, ok s e → OnOpenGl s e) →
        s.renderer.pendingValid = true → s.running ≠ none ∨ .update ∈ s.posted ∨ s.dirty = true) := by
  have kept := ItemKept.reach reach
  exact ⟨kept.hasVideo, kept.highlight, kept.sampled, fun onOpenGl => Awaited.reach onOpenGl reach⟩

/-! When nothing else happens, the item comes to rest. -/

/-- Steps that finish what was begun, on OpenGL. -/
def Finishing : ItemEvent → Prop
  | .resume | .dispatch | .updatePaintNode true => True
  | _ => False

structure AtRest (s : Item) : Prop where
  taken : s.renderer.pendingValid = false
  returned : s.running = none
  dispatched : s.posted = []
  painted : s.dirty = false
  hasVideo : s.shown.hasVideo = s.renderer.hasVideo
  highlight : s.shown.highlight = (s.highlightFrameId, s.frameIdFromTracking)
  sampled : s.shown.sampled = (s.hasSampledPipelineUi, s.sampled)

/-- What an `OnFrame` may still post weighs more than what is posted, and this
more than an update. -/
def OnFrameRest.weight : OnFrameRest → Nat
  | .notifyId _ => 11
  | .setHasVideo => 8
  | .notifyHasVideo => 7
  | .update => 4

def Item.rank (s : Item) : Nat := s.running.elim 0 OnFrameRest.weight + 2 * s.posted.length + s.dirty.toNat

theorem rank_resume {rest : OnFrameRest} (under : s.running = some rest) : (s.resume rest).rank < s.rank := by
  have before : s.rank = rest.weight + 2 * s.posted.length + s.dirty.toNat := by rw [Item.rank, under, Option.elim_some]
  rw [before]
  cases rest with
  | notifyId idChanged =>
    cases idChanged with
    | false => simp [Item.resume, Item.rank, OnFrameRest.weight]
    | true =>
      simp [Item.resume, Item.rank, OnFrameRest.weight]
      omega
  | setHasVideo =>
    simp only [Item.resume]
    split <;> simp [Item.rank, OnFrameRest.weight]
  | notifyHasVideo | update =>
    simp [Item.resume, Item.rank, OnFrameRest.weight]
    omega

theorem rank_dispatch {first : Posted} {rest : List Posted} (queue : s.posted = first :: rest) :
    (Item.dispatch { s with posted := rest } first).rank < s.rank := by
  have before : s.rank = s.running.elim 0 OnFrameRest.weight + 2 * (rest.length + 1) + s.dirty.toNat := by
    rw [Item.rank, queue, List.length_cons]
  have after : (Item.dispatch { s with posted := rest } first).rank ≤
      s.running.elim 0 OnFrameRest.weight + 2 * rest.length + 1 := by
    have one := Bool.toNat_le (Item.dispatch { s with posted := rest } first).dirty
    cases first <;> exact Nat.add_le_add_left one _
  omega

theorem rank_updatePaintNode (dirty : s.dirty = true) : (s.updatePaintNode true).1.rank < s.rank := by
  have before : s.rank = s.running.elim 0 OnFrameRest.weight + 2 * s.posted.length + 1 := by rw [Item.rank, dirty, Bool.toNat_true]
  have after : (s.updatePaintNode true).1.rank = s.running.elim 0 OnFrameRest.weight + 2 * s.posted.length := rfl
  omega

theorem rank_lt {e : ItemEvent} (finishing : Finishing e) (run : itemStep sameSize s e = some (t, out)) : t.rank < s.rank := by
  cases itemMove_of_step run with
  | resume under => exact rank_resume under
  | dispatch queue => exact rank_dispatch queue
  | updatePaintNode openGl dirty =>
    cases openGl with
    | false => exact finishing.elim
    | true => exact rank_updatePaintNode dirty
  | onFrame | keepsTrack | setVideoTrack | clearVideoTrack | geometryChange | sampledRender => exact finishing.elim

theorem ItemKept.atRest (kept : ItemKept s) (awaited : Awaited s) (returned : s.running = none) (dispatched : s.posted = [])
    (painted : s.dirty = false) : AtRest s := by
  refine ⟨?_, returned, dispatched, painted, ?_, ?_, kept.sampled⟩
  · by_contra valid
    have waiting := awaited (by simpa using valid)
    simp [returned, dispatched, painted] at waiting
  · have hasVideo := kept.hasVideo
    simpa [returned, dispatched] using hasVideo
  · have highlight := kept.highlight
    simpa [returned, dispatched] using highlight

theorem finishing_possible (kept : ItemKept s) (awaited : Awaited s) (busy : ¬AtRest s) :
    ∃ e t out, Finishing e ∧ itemStep sameSize s e = some (t, out) := by
  cases running : s.running with
  | some rest => exact ⟨.resume, s.resume rest, [], trivial, by simp [itemStep, running]⟩
  | none =>
    cases posted : s.posted with
    | cons first rest =>
      exact ⟨.dispatch, Item.dispatch { s with posted := rest } first, [], trivial, by simp [itemStep, posted]⟩
    | nil =>
      cases dirty : s.dirty with
      | true =>
        exact ⟨.updatePaintNode true, (s.updatePaintNode true).1, (s.updatePaintNode true).2, trivial,
          by simp [itemStep, dirty]⟩
      | false => exact absurd (kept.atRest awaited running posted dirty) busy

theorem onOpenGl_of_finishing {e : ItemEvent} (finishing : Finishing e) : OnOpenGl s e := by
  cases e with
  | updatePaintNode openGl =>
    cases openGl with
    | false => exact finishing.elim
    | true => rfl
  | _ => trivial

/-- From every state of every run on OpenGL, if only what was begun is finished, in
any order, the item comes to rest: the frame is taken, and QML shows the present values. -/
theorem item_settles (reach : (itemMachine sameSize).Reach OnOpenGl s log) :
    (itemMachine sameSize).Inevitable Finishing AtRest s :=
  .of_rank (I := fun s => ItemKept s ∧ Awaited s) Item.rank (fun _ held busy => finishing_possible held.1 held.2 busy)
    (fun _ _ _ _ held _ finishing run => ⟨⟨held.1.step run, held.2.step held.1 (onOpenGl_of_finishing finishing) run⟩,
      rank_lt finishing run⟩)
    ⟨.reach reach, .reach (fun _ _ onOpenGl => onOpenGl) reach⟩

/-- A frame that was just handed off: nothing of it is shown yet. -/
def handingOff : List ItemEvent := [.setVideoTrack (some 1), .onFrame 1 0 (some (.oes 5)) 7 1000]

theorem item_notifies_handingOff : ∃ s : Item, s.renderer.pendingValid = true ∧ s.shown.highlight = (-1, false) ∧
    (s.shown.highlight = (s.highlightFrameId, s.frameIdFromTracking) ∨ .highlightFrameIdChanged ∈ s.posted ∨
      s.running = some (.notifyId true)) ∧
    (s.renderer.pendingValid = true → s.running ≠ none ∨ .update ∈ s.posted ∨ s.dirty = true) := by
  have run : (itemMachine fun a b => decide (a = b)).Reach OnOpenGl _ _ := .ofExec OnOpenGl handingOff rfl (by decide)
  obtain ⟨_, highlight, _, waiting⟩ := item_notifies run
  exact ⟨_, rfl, rfl, highlight, waiting fun _ _ onOpenGl => onOpenGl⟩

theorem item_settles_handingOff : ∃ s : Item, s.renderer.pendingValid = true ∧ s.posted = [.update] ∧
    (itemMachine fun a b => decide (a = b)).Inevitable Finishing AtRest s := by
  have run : (itemMachine fun a b => decide (a = b)).Reach OnOpenGl _ _ := .ofExec OnOpenGl handingOff rfl (by decide)
  exact ⟨_, rfl, rfl, item_settles run⟩

/-! The sinks of the tracks. -/

/-- Sizes that compare equal ask for the same pictures. -/
def SizesTold (sameSize : Size → Size → Bool) (s : Item) : ItemEvent → Prop
  | .geometryChange size => sameSize size s.size = true → buildVideoSinkWantsForRenderer size = buildVideoSinkWantsForRenderer s.size
  | _ => True

/-- The item is a sink of its track, as it wants it for its size, and of no other. -/
def Registered (s : Item) : Prop :=
  ∀ track, s.sinks track = if s.renderer.track = some track then some (buildVideoSinkWantsForRenderer s.size) else none

theorem Registered.applyVideoSinkWants (others : ∀ track, s.renderer.track ≠ some track → s.sinks track = none) :
    Registered (applyVideoSinkWants s) := by
  intro track
  rw [applyVideoSinkWants_sinks, applyVideoSinkWants_keeps]
  split
  · rfl
  · rename_i other
    exact others track other

theorem Registered.same (registered : Registered s) (sinks : t.sinks = s.sinks) (track : t.renderer.track = s.renderer.track)
    (size : t.size = s.size) : Registered t := by
  intro other
  rw [sinks, track, size]
  exact registered other

theorem Registered.others (registered : Registered s) {track : Nat} (other : s.renderer.track ≠ some track) :
    s.sinks track = none := (registered track).trans (if_neg other)

theorem Registered.geometryChange (registered : Registered s) {size : Size}
    (told : SizesTold sameSize s (.geometryChange size)) : Registered (s.geometryChange sameSize size) := by
  rcases geometryChange_cases sameSize s size with ⟨same, taken⟩ | changed
  · rw [taken]
    intro track
    rw [registered track, told same]
  · have wanted : Registered (Renderer.applyVideoSinkWants { s with size := size }) :=
      .applyVideoSinkWants fun _ other => registered.others other
    exact changed ▸ wanted.same rfl rfl rfl

theorem takeFrame_track (item : VideoRenderer) : (takeFrame item).1.track = item.track := by
  unfold takeFrame
  split
  · split <;> rfl
  · rfl

theorem Registered.step (registered : Registered s) (kept : ItemKept s) {e : ItemEvent} (told : SizesTold sameSize s e)
    (run : itemStep sameSize s e = some (t, out)) : Registered t := by
  cases itemMove_of_step run with
  | onFrame number buffer rawId nowUs _ _ =>
    unfold Item.onFrame
    cases pendingOf buffer with
    | none => exact registered
    | some pending =>
      obtain ⟨id, fromTracking, made, _⟩ := handOff_spec s number pending rawId nowUs
      simp only [made]
      exact registered.same rfl rfl rfl
  | @resume rest _ =>
    cases rest with
    | setHasVideo =>
      simp only [Item.resume]
      split <;> exact registered.same rfl rfl rfl
    | _ => exact registered.same rfl rfl rfl
  | @dispatch first _ _ => cases first <;> exact registered.same rfl rfl rfl
  | keepsTrack => exact registered
  | setVideoTrack =>
    refine .applyVideoSinkWants fun track _ => ?_
    rw [(cleared s).sinks]
    exact kept.no_sinks track
  | clearVideoTrack =>
    intro track
    rw [(cleared s).sinks, kept.no_sinks, (cleared s).renderer]
    rfl
  | geometryChange size => exact registered.geometryChange told
  | updatePaintNode openGl _ =>
    cases openGl with
    | false => exact registered.same rfl rfl rfl
    | true =>
      refine registered.same rfl ?_ rfl
      exact takeFrame_track s.renderer
  | sampledRender p => exact registered

/-- In every run whose sizes are told apart: the item is a sink of exactly the
track that it has, with what it wants for its present size. -/
theorem sinks_current (reach : (itemMachine sameSize).Reach (SizesTold sameSize) s log) (track : Nat) :
    s.sinks track = if s.renderer.track = some track then some (buildVideoSinkWantsForRenderer s.size) else none := by
  have kept : ItemKept s ∧ Registered s :=
    reach.invariant (P := fun s _ => ItemKept s ∧ Registered s) ⟨.start, fun _ => rfl⟩
      fun _ _ _ _ _ before told run => ⟨before.1.step run, before.2.step before.1 told run⟩
  exact kept.2 track

/-- A track that is replaced after the item was resized. -/
def replacing : List ItemEvent := [.setVideoTrack (some 1), .geometryChange ⟨640, 480⟩, .setVideoTrack (some 2)]

theorem sinks_current_replacing : ∃ s : Item, s.sinks 1 = none ∧
    s.sinks 2 = some ⟨true, false, false, 2, 2 ^ 31 - 1, 640 * 480⟩ := by
  have run : (itemMachine fun a b => decide (a = b)).Reach (SizesTold fun a b => decide (a = b)) _ _ :=
    .ofExec _ replacing rfl ⟨trivial, fun same => by rw [of_decide_eq_true same], trivial, trivial⟩
  exact ⟨_, sinks_current run 1, (sinks_current run 2).trans (by rfl)⟩

end WebRtcDemo.Renderer
