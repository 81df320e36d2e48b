import WebRtcDemo.Renderer.Coherence

/-! The timing line names the frame that was drawn. -/

namespace WebRtcDemo.Renderer

open GlTexture

/-- A timing line after a draw of planes: they are those of a frame that was
queued with this id at this time. -/
def TimingTrue (past : List Sight) : Sight → Prop
  | .did (.sampledTiming frameId startMonoUs) =>
    ∀ textures, past.getLast? = some (.did (.drew textures)) →
      ∃ frame trace, .queued frame trace ∈ past ∧ trace.frameId = frameId ∧ trace.startMonoUs = startMonoUs ∧
        HoldsFrame frame textures
  | _ => True

/-- The timing line of the held trace is due. -/
def Sampled (node : RenderNode) : Prop :=
  node.haveGlFrameTrace = true ∧ node.glQueueTrace.fromTracking = true ∧
    shouldLogTrackingTimedSampleById node.glQueueTrace.frameId.toNat = true

instance (node : RenderNode) : Decidable (Sampled node) := inferInstanceAs (Decidable (_ ∧ _ ∧ _))

/-- Where the staging of every plane fails, the sizes are the cached ones. -/
def DirectSized (gl : GlResults) (node : RenderNode) (path : UploadPathKind) : Prop :=
  Direct gl (enterCpuPath path node) path → PathSized gl (enterCpuPath path node) path

instance (gl : GlResults) (node : RenderNode) (path : UploadPathKind) : Decidable (DirectSized gl node path) :=
  inferInstanceAs (Decidable (_ → _))

/-- A sampled frame does not meet another one in the buffers: it is not
uploaded through them, it changes the path, or one of its planes finds nothing
ready and has to wait. -/
def TimelyUpload (gl : GlResults) (node : RenderNode) (path : UploadPathKind) : Prop :=
  ¬ Sampled node ∨ node.supportsPixelUnpackBuffer = false ∨
    (node.lastUploadPath ≠ path ∨ Direct gl node path ∨ Incomplete gl node path) ∧ DirectSized gl node path

instance (gl : GlResults) (node : RenderNode) (path : UploadPathKind) : Decidable (TimelyUpload gl node path) :=
  inferInstanceAs (Decidable (_ ∨ _ ∨ (_ ∨ _ ∨ _) ∧ _))

/-- The trace is the one of the frame that is held, and after the upload the
one of the frame that is drawn, if its line is due. Without buffers every
allocation succeeds. -/
structure NodeTimed (log : List Sight) (node : RenderNode) : Prop where
  steady : NodeSteady node
  sized : node.glInitialized = false ∨ node.supportsPixelUnpackBuffer = false → NodeSized node
  held : node.pendingUpload = true → ∀ frame, node.heldBuffer = some frame → .queued frame node.glQueueTrace ∈ log
  timed : node.pendingUpload = false → node.hasData = true → node.uploadStatsValidForLastFrame = true → Sampled node →
    ∀ textures, draw node = .drew textures → ∃ frame, .queued frame node.glQueueTrace ∈ log ∧ HoldsFrame frame textures

variable {log more : List Sight} {node next : RenderNode} {gl : GlResults} {android : Bool}

theorem NodeTimed.mono (timed : NodeTimed log node) : NodeTimed (log ++ more) node where
  steady := timed.steady
  sized := timed.sized
  held pending frame holding := List.mem_append_left more (timed.held pending frame holding)
  timed done shown valid sampled textures drawn :=
    let ⟨frame, queued, holds⟩ := timed.timed done shown valid sampled textures drawn
    ⟨frame, List.mem_append_left more queued, holds⟩

theorem NodeTimed.new (log : List Sight) : NodeTimed log {} where
  steady := .new
  sized _ := .new
  held := nofun
  timed _ := nofun

/-- A node that shows nothing and has nothing to upload. -/
theorem NodeTimed.of_hidden (steady : NodeSteady node)
    (sized : node.glInitialized = false ∨ node.supportsPixelUnpackBuffer = false → NodeSized node)
    (done : node.pendingUpload = false) (hidden : node.hasData = false) : NodeTimed log node := by
  refine ⟨steady, sized, fun pending => ?_, fun _ shown => ?_⟩
  · rw [done] at pending
    cases pending
  · rw [hidden] at shown
    cases shown

theorem NodeTimed.sync (timed : NodeTimed log node) {item : VideoRenderer}
    (pending : ∀ frame, item.pendingBuffer = some frame → .queued frame item.pendingTrace ∈ log) :
    NodeTimed log (sync item node).2 := by
  have steady := timed.steady.sync item
  have sized (unbuffered : node.glInitialized = false ∨ node.supportsPixelUnpackBuffer = false) :
      NodeSized (Renderer.sync item node).2 := (timed.sized unbuffered).sync item
  rcases sync_cases item node with ⟨frame, waiting, same⟩ | same | same
  · simp only [same] at steady sized ⊢
    refine ⟨steady, sized, fun _ other holding => ?_, nofun⟩
    cases holding
    exact pending frame waiting
  · simp only [same] at steady sized ⊢
    exact ⟨steady, sized, timed.held, fun _ _ => nofun⟩
  · simp only [same] at steady sized ⊢
    exact .of_hidden steady sized rfl rfl

theorem NodeTimed.found (timed : NodeTimed log node) (alignment : Nat) :
    NodeTimed log { node with unpackAlignment := alignment } :=
  ⟨⟨timed.steady.named, timed.steady.fresh⟩, fun unbuffered => (timed.sized unbuffered).congr rfl rfl, timed.held,
    timed.timed⟩

theorem NodeTimed.initialize (timed : NodeTimed log node)
    (initialized : ensureInitialized android gl node = some next) : NodeTimed log next := by
  obtain ⟨steady, same | ⟨hidden, held, pending, trace, _⟩⟩ := timed.steady.initialize initialized
  · rw [same]
    exact timed
  · refine ⟨steady, fun unbuffered => ?_, ?_, fun _ shown => ?_⟩
    · by_cases already : node.glInitialized = true
      · rw [ensureInitialized, if_pos already] at initialized
        cases initialized
        exact timed.sized unbuffered
      · have sized := timed.sized (.inl (by simpa using already))
        exact sized.initialize initialized
    · rw [held, pending, trace]
      exact timed.held
    · rw [hidden] at shown
      cases shown

/-- The flags that are reset at the start of an upload do not matter. -/
theorem directSized_started {path : UploadPathKind} :
    DirectSized gl (clearKind { node with pendingUpload := false }) path ↔ DirectSized gl node path := by
  have same : enterCpuPath path (clearKind { node with pendingUpload := false }) =
      clearKind { enterCpuPath path node with pendingUpload := false } := by
    unfold enterCpuPath
    split
    · rename_i stays
      rw [if_pos (show node.lastUploadPath = path from stays)]
    · rename_i changes
      rw [if_neg (show ¬ node.lastUploadPath = path from changes)]
      rfl
  rw [DirectSized, DirectSized, PathSized, PathSized, Direct, Direct, same, pathPlanes_clearKind]
  rfl

/-- A frame that meets no other in the buffers is in the textures, or it is not complete. -/
theorem CpuUpload.current {path : UploadPathKind} {frame : QueuedFrame}
    (upload : CpuUpload gl path frame (clearKind node) next)
    (sized : node.supportsPixelUnpackBuffer = false → PathSized gl (enterCpuPath path (clearKind node)) path)
    (alone : node.supportsPixelUnpackBuffer = false ∨
      (node.lastUploadPath ≠ path ∨ Direct gl node path ∨ Incomplete gl node path) ∧ DirectSized gl (clearKind node) path) :
    HoldsFrame frame ((usedPlanes next path).map Plane.tex) ∨ next.uploadStatsValidForLastFrame = false := by
  rcases alone with absent | ⟨alone, directSized⟩
  · exact .inl (upload.holds_direct (sized absent) (.inl absent))
  by_cases buffers : node.supportsPixelUnpackBuffer = true
  · rcases enterCpuPath_cases path (clearKind node) with ⟨same, stays⟩ | ⟨_, idle⟩
    · rcases alone with changed | direct | waiting
      · exact absurd same changed
      · have direct : Direct gl (enterCpuPath path (clearKind node)) path := by
          rw [stays, Direct, pathPlanes_clearKind]
          exact direct
        exact .inl (upload.holds_direct (directSized direct) (.inr direct))
      · refine .inr (upload.incomplete buffers ?_)
        rw [stays, Incomplete, pathPlanes_clearKind]
        exact waiting
    · exact upload.idle directSized buffers idle
  · have absent : node.supportsPixelUnpackBuffer = false := by simpa using buffers
    exact .inl (upload.holds_direct (sized absent) (.inl absent))

theorem nextUploadPath_pending {path : UploadPathKind} (due : path ∈ nextUploadPath android node) :
    node.pendingUpload = true := by
  unfold nextUploadPath at due
  split at due
  · assumption
  · cases due

theorem NodeTimed.upload (timed : NodeTimed log node) (initialized : node.glInitialized = true)
    (admitted : ∀ path ∈ nextUploadPath android node, TimelyUpload gl node path) :
    NodeTimed log (uploadIfPending android gl node) := by
  have steady := timed.steady.upload initialized android gl
  have context := uploadIfPending_same android gl node
  have done := context.pending
  have sized : (uploadIfPending android gl node).glInitialized = false ∨
      (uploadIfPending android gl node).supportsPixelUnpackBuffer = false → NodeSized (uploadIfPending android gl node) := by
    rw [context.initialized, context.buffers]
    rintro (absent | absent)
    · exact absurd (initialized.symm.trans absent) (by decide)
    · refine (timed.sized (.inr absent)).upload initialized fun path _ => ?_
      exact allocating_of_unbuffered absent gl path
  rcases uploadIfPending_cases timed.steady.named android gl with
    ⟨_, same⟩ | same | ⟨frame, holding, ⟨textureId, external, same⟩ | ⟨path, due, upload⟩ | same⟩
  · rw [same]
    exact timed
  · simp only [same] at steady sized ⊢
    exact .of_hidden steady sized rfl rfl
  · simp only [same] at steady sized done ⊢
    refine ⟨steady, sized, fun pending => ?_, fun _ shown _ _ textures drawn => ?_⟩
    · rw [done] at pending
      cases pending
    · rw [uploadOes_drawn shown] at drawn
      cases drawn
  · have queued := timed.held (nextUploadPath_pending due) frame holding
    refine ⟨steady, sized, fun pending => ?_, fun _ shown valid sampled textures drawn => ?_⟩
    · rw [done] at pending
      cases pending
    · rw [Sampled, context.trace, context.haveTrace] at sampled
      rw [upload.drawn shown, RenderAction.drew.injEq] at drawn
      rw [← drawn, context.trace]
      rcases admitted path due with unsampled | alone
      · exact absurd sampled unsampled
      · have whole (absent : node.supportsPixelUnpackBuffer = false) :
            PathSized gl (enterCpuPath path (clearKind { node with pendingUpload := false })) path :=
          pathSized_of_allocating (timed.sized (.inr absent)).planes (allocating_of_unbuffered absent gl path)
        rw [← directSized_started] at alone
        rcases upload.current whole alone with holds | waiting
        · exact ⟨frame, queued, holds⟩
        · rw [waiting] at valid
          cases valid
  · simp only [same] at steady sized done ⊢
    exact .of_hidden steady sized done rfl

theorem NodeTimed.rule (android : Bool) : WatchRule android TimelyUpload NodeTimed TimingTrue where
  mono _ _ _ timed := timed.mono
  new := .new
  synced _ _ _ timed pending := timed.sync pending
  found _ _ alignment timed := timed.found alignment
  initialized _ _ _ _ timed initialized := timed.initialize initialized
  uploaded _ _ _ timed initialized admitted := timed.upload initialized admitted
  drawn log node timed done shown := by
    refine ⟨?_, ?_⟩
    · unfold draw
      split
      · trivial
      · trivial
    · unfold sampledTimings
      split
      · rename_i due
        refine ⟨fun textures last => ?_, trivial⟩
        have drawn : draw node = .drew textures := by simpa using last
        obtain ⟨frame, queued, holds⟩ := timed.timed done shown due.1 due.2 textures drawn
        exact ⟨frame, node.glQueueTrace, List.mem_append_left _ queued, rfl, rfl, holds⟩
      · trivial
  quiet _ _ _ := ⟨trivial, trivial, trivial⟩

/-- As long as no textures are deleted, every timing line is about the frame
that was drawn just before it, if no sampled frame is uploaded through buffers
that another one left ready. -/
theorem timing_true {s : State}
    (reach : (watched android).Reach (fun s e => KeepsResources s e ∧ UploadsMeet android TimelyUpload s e) s log) :
    Machine.Throughout TimingTrue [] log :=
  (NodeTimed.rule android).history reach

/-- Without buffers frame 120 is drawn at once. -/
theorem timing_true_without_buffers :
    ∃ s textures, (watched true).Reach (fun s e => KeepsResources s e ∧ UploadsMeet true TimelyUpload s e) s
        [.did .cleared, smallSight 0 16 120, .did .synced, .did (.drew textures), .did (.sampledTiming 120 0)] ∧
      Machine.Throughout TimingTrue []
        [.did .cleared, smallSight 0 16 120, .did .synced, .did (.drew textures), .did (.sampledTiming 120 0)] := by
  have reach : ∃ s textures,
      (watched true).Reach (fun s e => KeepsResources s e ∧ UploadsMeet true TimelyUpload s e) s
        [.did .cleared, smallSight 0 16 120, .did .synced, .did (.drew textures), .did (.sampledTiming 120 0)] :=
    ⟨_, _, Machine.Reach.ofExec (M := watched true) (fun s e => KeepsResources s e ∧ UploadsMeet true TimelyUpload s e)
      [.setVideoTrack (some 1), .onFrame (some (.nv12 (smallNv12 16))) 120 0, .updatePaintNode true,
        .render { fullGl with supportsPixelUnpackBuffer := false }] rfl (by decide)⟩
  obtain ⟨s, textures, reach⟩ := reach
  exact ⟨s, textures, reach, timing_true reach⟩

/-- All planes can be staged. -/
def StagingSucceeds : RenderEvent → Prop
  | .render gl => gl.y = ⟨true, true⟩ ∧ gl.u = ⟨true, true⟩ ∧ gl.v = ⟨true, true⟩ ∧ gl.uv = ⟨true, true⟩
  | _ => True

instance : DecidablePred StagingSucceeds
  | .render gl => inferInstanceAs (Decidable (gl.y = ⟨true, true⟩ ∧ gl.u = ⟨true, true⟩ ∧ gl.v = ⟨true, true⟩ ∧
      gl.uv = ⟨true, true⟩))
  | .onFrame .. | .updatePaintNode _ | .releaseResources _ | .setVideoTrack _ | .clearVideoTrack => isTrue trivial

/-- When frame 120 is staged, frame 119 is drawn, and the timing line is about 120. -/
theorem not_timing_true :
    ¬∀ (s : State) (log : List Sight), (watched true).Reach (fun s e => KeepsResources s e ∧ StagingSucceeds e) s log →
      Machine.Throughout TimingTrue [] log := by
  intro all
  have reach : ∃ s y uv, (watched true).Reach (fun s e => KeepsResources s e ∧ StagingSucceeds e) s
      ([.did .cleared, smallSight 0 16 119, .did .synced, smallSight 1 17 120, .did .synced, .did (.drew [y, uv])] ++
        [.did (.sampledTiming 120 0)]) ∧ (y.texel 0 0).map Texel.tag = some 0 :=
    ⟨_, _, _, Machine.Reach.ofExec (M := watched true) (fun s e => KeepsResources s e ∧ StagingSucceeds e)
      [.setVideoTrack (some 1), .onFrame (some (.nv12 (smallNv12 16))) 119 0, .updatePaintNode true, .render fullGl,
        .onFrame (some (.nv12 (smallNv12 17))) 120 0, .updatePaintNode true, .render fullGl] rfl (by decide), rfl⟩
  obtain ⟨s, y, uv, reach, tag⟩ := reach
  obtain ⟨frame, trace, queued, named, _, holds⟩ := (Machine.throughout_append.mp (all s _ reach)).2.1 [y, uv] rfl
  have wrong : frame = ⟨1, .nv12 (smallNv12 17)⟩ := by
    simp only [smallSight, List.nil_append, List.mem_cons, Sight.queued.injEq, reduceCtorEq, List.not_mem_nil, or_false,
      false_or] at queued
    rcases queued with ⟨_, rfl⟩ | ⟨same, _⟩
    · cases named
    · exact same
  subst wrong
  obtain ⟨_, _, luma⟩ := (List.forall₂_cons.mp holds).1
  have tag := tag.symm.trans (luma 0 0 (by decide) (by decide))
  revert tag
  decide

end WebRtcDemo.Renderer
