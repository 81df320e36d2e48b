import WebRtcDemo.Renderer.Watched

/-! The planes that are drawn together belong to one frame. -/

namespace WebRtcDemo.Renderer

open GlTexture

/-- The textures that are sampled hold the planes of one frame that was queued, in its size. -/
def DrawnCoherent (past : List Sight) : Sight → Prop
  | .did (.drew textures) => ∃ frame trace, .queued frame trace ∈ past ∧ HoldsFrame frame textures
  | _ => True

/-- The upload goes the same way for all planes: it is clean, or all planes are
staged. What it allocates is there afterwards. -/
def CoherentUpload (gl : GlResults) (node : RenderNode) (path : UploadPathKind) : Prop :=
  (CleanUpload gl node path ∨ ∀ u ∈ pathPlanes gl node path, Staged u.1 u.2) ∧ Allocating gl node path

instance (gl : GlResults) (node : RenderNode) (path : UploadPathKind) : Decidable (CoherentUpload gl node path) :=
  inferInstanceAs (Decidable ((_ ∨ _) ∧ _))

/-- Every plane of the path carries the same frame, in its buffer or in its texture. -/
structure NodeCoherent (log : List Sight) (node : RenderNode) : Prop where
  steady : NodeSteady node
  sized : NodeSized node
  held : ∀ frame, node.heldBuffer = some frame → ∃ trace, .queued frame trace ∈ log
  carried : node.supportsPixelUnpackBuffer = true →
    (∃ frame trace, .queued frame trace ∈ log ∧
      List.Forall₂ Carries (planesOf frame) (usedPlanes node node.lastUploadPath)) ∨
    node.hasData = false ∧ ∀ plane ∈ usedPlanes node node.lastUploadPath, readyBuffer plane.pbo = none
  shown : node.hasData = true → ∀ textures, draw node = .drew textures →
    ∃ frame trace, .queued frame trace ∈ log ∧ HoldsFrame frame textures

variable {log more : List Sight} {node next : RenderNode} {gl : GlResults} {android : Bool}

theorem NodeCoherent.mono (coherent : NodeCoherent log node) : NodeCoherent (log ++ more) node where
  steady := coherent.steady
  sized := coherent.sized
  held frame holding :=
    let ⟨trace, queued⟩ := coherent.held frame holding
    ⟨trace, List.mem_append_left more queued⟩
  carried buffers := (coherent.carried buffers).imp_left fun ⟨frame, trace, queued, carries⟩ =>
    ⟨frame, trace, List.mem_append_left more queued, carries⟩
  shown shown textures drawn :=
    let ⟨frame, trace, queued, holds⟩ := coherent.shown shown textures drawn
    ⟨frame, trace, List.mem_append_left more queued, holds⟩

theorem NodeCoherent.new (log : List Sight) : NodeCoherent log {} where
  steady := .new
  sized := .new
  held := nofun
  carried := nofun
  shown := nofun

theorem NodeCoherent.sync (coherent : NodeCoherent log node) {item : VideoRenderer}
    (pending : ∀ frame, item.pendingBuffer = some frame → .queued frame item.pendingTrace ∈ log) :
    NodeCoherent log (sync item node).2 := by
  have steady := coherent.steady.sync item
  have sized := coherent.sized.sync item
  rcases sync_cases item node with ⟨frame, waiting, same⟩ | same | same
  · rw [same] at steady sized ⊢
    refine ⟨steady, sized, fun other holding => ?_, coherent.carried, coherent.shown⟩
    cases holding
    exact ⟨item.pendingTrace, pending frame waiting⟩
  · rw [same] at steady sized ⊢
    exact ⟨steady, sized, coherent.held, coherent.carried, coherent.shown⟩
  · rw [same] at steady sized ⊢
    exact ⟨steady, sized, nofun, fun buffers => (coherent.carried buffers).imp_right fun idle => ⟨rfl, idle.2⟩, nofun⟩

theorem NodeCoherent.found (coherent : NodeCoherent log node) (alignment : Nat) :
    NodeCoherent log { node with unpackAlignment := alignment } :=
  ⟨⟨coherent.steady.named, coherent.steady.fresh⟩, coherent.sized.congr rfl rfl, coherent.held, coherent.carried,
    coherent.shown⟩

theorem NodeCoherent.initialize (coherent : NodeCoherent log node)
    (initialized : ensureInitialized android gl node = some next) : NodeCoherent log next := by
  obtain ⟨steady, same | ⟨hidden, held, _, _, idle⟩⟩ := coherent.steady.initialize initialized
  · rw [same]
    exact coherent
  · refine ⟨steady, coherent.sized.initialize initialized, fun frame holding => ?_, fun _ => ?_, fun shown => ?_⟩
    · rw [held] at holding
      exact coherent.held frame holding
    · exact .inr ⟨hidden, fun plane member => idle plane (usedPlanes_subset _ _ member)⟩
    · rw [hidden] at shown
      cases shown

/-- What is drawn after an upload that goes the same way for all planes is its
frame or the one that was carried before. -/
theorem CpuUpload.coherent {path : UploadPathKind} {frame : QueuedFrame} {trace : GlQueueTrace}
    (upload : CpuUpload gl path frame (clearKind node) next) (coherent : NodeCoherent log node)
    (queued : .queued frame trace ∈ log) (admitted : CoherentUpload gl node path) (shown : next.hasData = true) :
    ∃ frame trace, .queued frame trace ∈ log ∧ HoldsFrame frame ((usedPlanes next path).map Plane.tex) := by
  obtain ⟨admitted, allocating⟩ := admitted
  have sized : PathSized gl (enterCpuPath path (clearKind node)) path :=
    pathSized_of_allocating coherent.sized.planes (allocating_clearKind.mpr allocating)
  -- a frame of which a plane has to wait is not shown on a path that had nothing to show
  have hides (hidden : (enterCpuPath path (clearKind node)).hasData = false) :
      ¬ next.uploadStatsValidForLastFrame = false := by
    intro waiting
    rw [upload.shown, hidden, waiting] at shown
    cases shown
  by_cases buffers : node.supportsPixelUnpackBuffer = true
  · rcases enterCpuPath_cases path (clearKind node) with ⟨same, stays⟩ | ⟨hidden, idle⟩
    · rw [stays] at hides
      have same : node.lastUploadPath = path := same
      rcases admitted with (absent | changed | direct | ⟨hidden, waiting⟩) | staged
      · rw [buffers] at absent
        cases absent
      · exact absurd same changed
      · refine ⟨frame, trace, queued, upload.holds_direct sized (.inr ?_)⟩
        rw [stays, Direct, pathPlanes_clearKind]
        exact direct
      · refine absurd (upload.incomplete buffers ?_) (hides hidden)
        rw [stays, Incomplete, pathPlanes_clearKind]
        exact waiting
      · have carried := coherent.carried buffers
        rw [same] at carried
        rcases carried with ⟨earlier, before, known, carries⟩ | ⟨hidden, idle⟩
        · obtain ⟨steps, planes⟩ := upload.planes
          rw [stays] at planes sized
          refine ⟨earlier, before, known, planes.holds_staged sized buffers ?_ ?_⟩
          · rw [pathPlanes_clearKind]
            exact staged
          · rw [← map_pathPlanes gl, pathPlanes_clearKind, map_pathPlanes]
            exact carries
        · rcases upload.idle (fun _ => sized) buffers (by rw [stays, ← map_pathPlanes gl, pathPlanes_clearKind, map_pathPlanes]; exact idle)
            with holds | waiting
          · exact ⟨frame, trace, queued, holds⟩
          · exact absurd waiting (hides hidden)
    · rcases upload.idle (fun _ => sized) buffers idle with holds | waiting
      · exact ⟨frame, trace, queued, holds⟩
      · exact absurd waiting (hides hidden)
  · have absent : node.supportsPixelUnpackBuffer = false := by simpa using buffers
    exact ⟨frame, trace, queued, upload.holds_direct sized (.inl absent)⟩

theorem NodeCoherent.cpu {path : UploadPathKind} {frame : QueuedFrame} {trace : GlQueueTrace}
    (coherent : NodeCoherent log node) (steady : NodeSteady next) (sized : NodeSized next) (queued : .queued frame trace ∈ log)
    (upload : CpuUpload gl path frame (clearKind node) next)
    (context : next.supportsPixelUnpackBuffer = node.supportsPixelUnpackBuffer)
    (admitted : CoherentUpload gl node path) : NodeCoherent log next := by
  refine ⟨steady, sized, fun other holding => ?_, fun buffers => ?_, fun shown textures drawn => ?_⟩
  · rw [upload.taken] at holding
    cases holding
  · obtain ⟨steps, planes⟩ := upload.planes
    rw [upload.here]
    refine .inl ⟨frame, trace, queued, planes.carries ?_ ?_⟩
    · exact pathSized_of_allocating coherent.sized.planes (allocating_clearKind.mpr admitted.2)
    exact (enterCpuPath_same path (clearKind node)).buffers.trans (context.symm.trans buffers)
  · rw [upload.drawn shown, RenderAction.drew.injEq] at drawn
    rw [← drawn]
    exact upload.coherent coherent queued admitted shown

/-- An external texture has no planes. -/
theorem NodeCoherent.oes {textureId : Nat} {frame : QueuedFrame} {trace : GlQueueTrace} (queued : .queued frame trace ∈ log)
    (external : frame.buffer = .oes textureId) (steady : NodeSteady (uploadOes textureId node))
    (sized : NodeSized (uploadOes textureId node)) : NodeCoherent log (uploadOes textureId node) := by
  have absent : planesOf frame = [] := by simp [planesOf, external, resolveI420ForUpload]
  obtain ⟨here, empty⟩ := uploadOes_rest textureId node
  refine ⟨steady, sized, fun other holding => ?_, fun _ => .inl ⟨frame, trace, queued, ?_⟩, fun shown textures drawn => ?_⟩
  · rw [empty] at holding
    cases holding
  · rw [absent, here]
    exact .nil
  · rw [uploadOes_drawn shown] at drawn
    cases drawn

/-- A frame that cannot be uploaded hides the picture and changes no plane but by the change of the path. -/
theorem NodeCoherent.hidden (coherent : NodeCoherent log node)
    (steady : NodeSteady { enterCpuPath .i420 (clearKind node) with
      uploadStatsValidForLastFrame := false, hasData := false, heldBuffer := none })
    (sized : NodeSized { enterCpuPath .i420 (clearKind node) with
      uploadStatsValidForLastFrame := false, hasData := false, heldBuffer := none }) :
    NodeCoherent log { enterCpuPath .i420 (clearKind node) with
      uploadStatsValidForLastFrame := false, hasData := false, heldBuffer := none } := by
  refine ⟨steady, sized, nofun, fun buffers => ?_, nofun⟩
  have here := (enterCpuPath_flags .i420 (clearKind node)).1
  rcases enterCpuPath_cases .i420 (clearKind node) with ⟨same, stays⟩ | ⟨_, idle⟩
  · rw [stays] at buffers ⊢
    refine (coherent.carried buffers).imp (fun carried => ?_) fun idle => ⟨rfl, ?_⟩
    · exact carried
    · exact idle.2
  · refine .inr ⟨rfl, ?_⟩
    simp only [here]
    exact idle

theorem NodeCoherent.upload (coherent : NodeCoherent log node) (initialized : node.glInitialized = true)
    (admitted : ∀ path ∈ nextUploadPath android node, CoherentUpload gl node path) :
    NodeCoherent log (uploadIfPending android gl node) := by
  have steady := coherent.steady.upload initialized android gl
  have context := (uploadIfPending_same android gl node).buffers
  have sized := coherent.sized.upload initialized fun path due => (admitted path due).2
  have started : NodeCoherent log { node with pendingUpload := false } :=
    ⟨⟨coherent.steady.named, coherent.steady.fresh⟩, coherent.sized.congr rfl rfl, coherent.held, coherent.carried,
      coherent.shown⟩
  rcases uploadIfPending_cases coherent.steady.named android gl with
    ⟨_, same⟩ | same | ⟨frame, holding, ⟨textureId, external, same⟩ | ⟨path, due, upload⟩ | same⟩
  · rw [same]
    exact coherent
  · rw [same] at steady sized ⊢
    refine ⟨steady, sized, started.held, fun buffers => ?_, nofun⟩
    exact (started.carried buffers).imp_right fun idle => ⟨rfl, idle.2⟩
  · obtain ⟨trace, queued⟩ := coherent.held frame holding
    rw [same] at steady sized ⊢
    exact .oes queued external steady sized
  · obtain ⟨trace, queued⟩ := coherent.held frame holding
    exact started.cpu steady sized queued upload context (admitted path due)
  · rw [same] at steady sized ⊢
    exact started.hidden steady sized

theorem NodeCoherent.rule (android : Bool) : WatchRule android CoherentUpload NodeCoherent DrawnCoherent where
  mono _ _ _ coherent := coherent.mono
  new := .new
  synced _ _ _ coherent pending := coherent.sync pending
  found _ _ alignment coherent := coherent.found alignment
  initialized _ _ _ _ coherent initialized := coherent.initialize initialized
  uploaded _ _ _ coherent initialized admitted := coherent.upload initialized admitted
  drawn log node coherent _ shown := by
    refine ⟨?_, Machine.throughout_of_forall fun a member before => ?_⟩
    · cases drawn : draw node with
      | drew textures => exact coherent.shown shown textures drawn
      | _ => trivial
    · obtain ⟨action, timing, rfl⟩ := List.mem_map.mp member
      obtain ⟨frameId, startMonoUs, rfl⟩ := sampledTimings_quiet timing
      trivial
  quiet _ _ _ := ⟨trivial, trivial, trivial⟩

/-- No plane can be staged. -/
def failingGl : GlResults := { fullGl with y := ⟨false, false⟩, u := ⟨false, false⟩, v := ⟨false, false⟩, uv := ⟨true, false⟩ }

/-- A small frame that is queued at time 0. -/
def smallSight (number : Nat) (level : UInt8) (frameId : Int) : Sight :=
  .queued ⟨number, .nv12 (smallNv12 level)⟩ ⟨0, frameId, true⟩

end WebRtcDemo.Renderer
