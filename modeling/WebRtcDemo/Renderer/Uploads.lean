import WebRtcDemo.Renderer.Freshness

namespace WebRtcDemo.Renderer

open GlTexture

variable {old newer : Nat → Prop} {results : GlResults} {node : RenderNode} {number : Nat}

/-! The invariant of the render node, through uploads, syncs and renders. -/

/-- The node never shows an old picture, as long as the first upload after a
clear is a clean one. -/
structure NodeOk (old : Nat → Prop) (awaits : Bool) (node : RenderNode) : Prop where
  sound : NodeSound node
  held : ∀ frame, node.heldBuffer = some frame → ¬ old frame.number
  current : awaits = false → Current old node
  shows : node.pendingUpload = true ∨ Shows old node

/-- What is left of it when a frame has just been uploaded. -/
structure Uploaded (old : Nat → Prop) (awaits : Bool) (node : RenderNode) : Prop where
  sound : NodeSound node
  empty : node.heldBuffer = none
  current : awaits = false → Current old node
  shows : Shows old node

theorem Uploaded.ok {awaits : Bool} (uploaded : Uploaded old awaits node) : NodeOk old awaits node where
  sound := uploaded.sound
  held frame holding := by
    rw [uploaded.empty] at holding
    cases holding
  current := uploaded.current
  shows := .inr uploaded.shows

theorem shows_of_hidden (hidden : node.hasData = false) : Shows old node := by
  intro shown
  rw [hidden] at shown
  cases shown

theorem Shows.mono (shows : Shows old node) (fewer : ∀ n, newer n → old n) : Shows newer node :=
  fun shown textures drawn tex member => (shows shown textures drawn tex member).mono fewer

theorem Current.mono (current : Current old node) (fewer : ∀ n, newer n → old n) : Current newer node := by
  intro gl
  refine (current gl).imp_left fun upToDate u member => ?_
  exact (upToDate u member).mono fewer

theorem NodeOk.mono {awaits : Bool} (ok : NodeOk old awaits node) (fewer : ∀ n, newer n → old n) :
    NodeOk newer awaits node where
  sound := ok.sound
  held frame holding stale := ok.held frame holding (fewer _ stale)
  current seen := (ok.current seen).mono fewer
  shows := ok.shows.imp_right fun shows => shows.mono fewer

/-! Uploads. -/

theorem PlaneFit.reset {inUse : Bool} {alignment : Nat} {plane : Plane} (fit : PlaneFit inUse alignment plane) :
    PlaneFit inUse alignment (resetPlane plane) :=
  ⟨⟨fit.sound.size, fun _ => readyBuffer_reset plane.pbo⟩, fit.absent, fit.packed⟩

theorem resetCpuUploadPipeline_sound (sound : NodeSound node) : NodeSound (resetCpuUploadPipeline node) :=
  ⟨sound.y.reset, sound.u.reset, sound.v.reset, sound.uv.reset⟩

theorem resetCpuUploadPipeline_idle (node : RenderNode) (gl : GlResults) (path : UploadPathKind) :
    ∀ u ∈ pathPlanes gl (resetCpuUploadPipeline node) path, readyBuffer u.2.pbo = none := by
  cases path with
  | nv12 => exact (forall_pathPlanes_nv12 ..).mpr ⟨rfl, rfl⟩
  | i420 => exact (forall_pathPlanes_i420 ..).mpr ⟨rfl, rfl, rfl⟩
  | none => exact fun u member => absurd member List.not_mem_nil
  | oes => exact fun u member => absurd member List.not_mem_nil

/-- What the change to a path leaves: it is this path, and an upload on it
shows no old picture. -/
structure Entered (old : Nat → Prop) (results : GlResults) (path : UploadPathKind) (node next : RenderNode) : Prop where
  sound : NodeSound next
  here : next.lastUploadPath = path
  oes : next.frameIsOes = node.frameIsOes
  nv12 : next.frameIsNv12 = node.frameIsNv12
  clean : next.supportsPixelUnpackBuffer = true → Clean old results next path

theorem enterCpuPath_spec (sound : NodeSound node) (path : UploadPathKind)
    (good : node.supportsPixelUnpackBuffer = true → node.lastUploadPath = path → Clean old results node path) :
    Entered old results path node (enterCpuPath path node) := by
  unfold enterCpuPath
  split
  · rename_i same
    exact ⟨sound, same, rfl, rfl, fun buffers => good buffers same⟩
  · have reset := resetCpuUploadPipeline_sound sound
    refine ⟨⟨reset.y, reset.u, reset.v, reset.uv⟩, rfl, rfl, rfl, fun _ => clean_of_idle rfl ?_⟩
    have idle := resetCpuUploadPipeline_idle node results path
    cases path <;> exact idle

theorem uploadNv12Planes_rest (gl : GlResults) (number : Nat) (b : NV12Buffer) (node : RenderNode) :
    ∃ y uv alignment, (uploadNv12Planes gl number b node).1 =
      { node with planeY := y, planeUV := uv, unpackAlignment := alignment } := by
  unfold uploadNv12Planes
  split
  · exact ⟨_, _, _, rfl⟩
  · exact ⟨_, _, _, rfl⟩

theorem uploadI420Planes_rest (gl : GlResults) (number : Nat) (b : I420Buffer) (node : RenderNode) :
    ∃ y u v alignment, (uploadI420Planes gl number b node).1 =
      { node with planeY := y, planeU := u, planeV := v, unpackAlignment := alignment } := by
  unfold uploadI420Planes
  split
  · exact ⟨_, _, _, _, rfl⟩
  · exact ⟨_, _, _, _, rfl⟩

theorem uploadNv12_spec (sound : NodeSound node) (fresh : ¬ old number) (b : NV12Buffer)
    (flat : node.frameIsOes = false)
    (good : node.supportsPixelUnpackBuffer = true → node.lastUploadPath = .nv12 → Clean old results node .nv12) :
    Uploaded old false (uploadNv12 results number b node) := by
  have entered := enterCpuPath_spec sound .nv12 good
  have planes := uploadNv12Planes_spec entered.sound fresh b entered.clean
  obtain ⟨y, uv, alignment, rest⟩ := uploadNv12Planes_rest results number b (enterCpuPath .nv12 node)
  unfold uploadNv12
  generalize uploadNv12Planes results number b (enterCpuPath .nv12 node) = made at planes rest
  obtain ⟨next, uploaded⟩ := made
  simp only at rest planes
  subst rest
  refine ⟨⟨planes.sound.y, planes.sound.u, planes.sound.v, planes.sound.uv⟩, rfl, fun _ gl => ?_, ?_⟩
  · left
    simp only [entered.here]
    exact planes.current gl
  · intro shown textures drawn
    have clean := (forall_pathPlanes_nv12 ..).mp (planes.clean shown results)
    simp only at shown
    simp only [draw, entered.oes, flat, sampledTextures, shown, Bool.false_eq_true, false_and, if_false, if_true,
      RenderAction.drew.injEq] at drawn
    subst drawn
    simpa using clean

theorem uploadI420_spec (sound : NodeSound node) (fresh : ¬ old number) {buffer : FrameBuffer} {b : I420Buffer}
    (resolved : resolveI420ForUpload buffer = some b) (flat : node.frameIsOes = false) (planar : node.frameIsNv12 = false)
    (good : node.supportsPixelUnpackBuffer = true → node.lastUploadPath = .i420 → Clean old results node .i420) :
    Uploaded old false (uploadI420 results ⟨number, buffer⟩ node) := by
  have entered := enterCpuPath_spec sound .i420 good
  have planes := uploadI420Planes_spec entered.sound fresh b entered.clean
  obtain ⟨y, u, v, alignment, rest⟩ := uploadI420Planes_rest results number b (enterCpuPath .i420 node)
  unfold uploadI420
  simp only [resolved]
  generalize uploadI420Planes results number b (enterCpuPath .i420 node) = made at planes rest
  obtain ⟨next, uploaded⟩ := made
  simp only at rest planes
  subst rest
  refine ⟨⟨planes.sound.y, planes.sound.u, planes.sound.v, planes.sound.uv⟩, rfl, fun _ gl => ?_, ?_⟩
  · left
    simp only [entered.here]
    exact planes.current gl
  · intro shown textures drawn
    have clean := (forall_pathPlanes_i420 ..).mp (planes.clean shown results)
    simp only [draw, entered.oes, entered.nv12, flat, planar, sampledTextures, Bool.false_eq_true, false_and, if_false,
      RenderAction.drew.injEq] at drawn
    subst drawn
    simpa using clean

/-- A frame without an `I420` form hides the picture and stages nothing. -/
theorem uploadI420_unresolved {awaits : Bool} (results : GlResults) (frame : QueuedFrame)
    (unresolved : resolveI420ForUpload frame.buffer = none) (sound : NodeSound node)
    (current : awaits = false → Current old node) : Uploaded old awaits (uploadI420 results frame node) := by
  unfold uploadI420 enterCpuPath
  simp only [unresolved]
  split
  · refine ⟨⟨sound.y, sound.u, sound.v, sound.uv⟩, rfl, fun seen gl => ?_, shows_of_hidden rfl⟩
    exact (current seen gl).imp_right fun idle => ⟨rfl, idle.2⟩
  · have reset := resetCpuUploadPipeline_sound sound
    refine ⟨⟨reset.y, reset.u, reset.v, reset.uv⟩, rfl, fun _ gl => ?_, shows_of_hidden rfl⟩
    exact .inr ⟨rfl, resetCpuUploadPipeline_idle node gl .i420⟩

theorem enterOesPath_spec (sound : NodeSound node) :
    NodeSound (enterOesPath node) ∧ (enterOesPath node).lastUploadPath = .oes := by
  unfold enterOesPath
  split
  · rename_i same
    exact ⟨sound, same⟩
  · have reset := resetCpuUploadPipeline_sound sound
    exact ⟨⟨reset.y, reset.u, reset.v, reset.uv⟩, rfl⟩

theorem uploadOes_spec (sound : NodeSound node) (textureId : Nat) : Uploaded old false (uploadOes textureId node) := by
  obtain ⟨sound, here⟩ := enterOesPath_spec sound
  unfold uploadOes
  generalize enterOesPath node = next at sound here
  simp only
  split
  · rename_i linked
    refine ⟨⟨sound.y, sound.u, sound.v, sound.uv⟩, rfl, fun _ gl => .inl ?_, ?_⟩
    · simp [here, pathPlanes]
    · intro _ textures drawn
      simp [draw, linked] at drawn
  · refine ⟨⟨sound.y, sound.u, sound.v, sound.uv⟩, rfl, fun _ gl => .inl ?_, shows_of_hidden rfl⟩
    simp [here, pathPlanes]

/-- The upload that ends the wait after a clear brings nothing old: it is not
made through buffers, it changes the path, all planes go directly to their
textures, or the frame stays hidden because one of its planes has to wait. -/
def CleanUpload (gl : GlResults) (node : RenderNode) (path : UploadPathKind) : Prop :=
  node.supportsPixelUnpackBuffer = false ∨ node.lastUploadPath ≠ path ∨ Direct gl node path ∨
    node.hasData = false ∧ Incomplete gl node path

theorem NodeOk.clean {awaits : Bool} {path : UploadPathKind} (ok : NodeOk old awaits node)
    (admitted : awaits = true → CleanUpload results node path) (buffers : node.supportsPixelUnpackBuffer = true)
    (same : node.lastUploadPath = path) : Clean old results node path := by
  cases awaits with
  | false =>
    rcases ok.current rfl results with current | ⟨hidden, idle⟩
    · rw [same] at current
      exact .inl current
    · rw [same] at idle
      exact clean_of_idle hidden idle
  | true =>
    rcases admitted rfl with none | changed | direct | waiting
    · rw [buffers] at none
      cases none
    · exact absurd same changed
    · exact .inr (.inl direct)
    · exact .inr (.inr waiting)

/-- The flags that the planar branches reset first do not matter. -/
theorem NodeSound.flags (sound : NodeSound node) (oes nv12 pending : Bool) :
    NodeSound { node with pendingUpload := pending, frameIsOes := oes, frameIsNv12 := nv12 } :=
  ⟨sound.y, sound.u, sound.v, sound.uv⟩

theorem uploadHeldFrame_ok {android awaits : Bool} {frame : QueuedFrame} (ok : NodeOk old awaits node)
    (fresh : ¬ old frame.number)
    (admitted : ∀ path, uploadPathOf android frame.buffer = some path → awaits = true → CleanUpload results node path) :
    Uploaded old (awaits && (uploadPathOf android frame.buffer).isNone)
      (uploadHeldFrame android results frame { node with pendingUpload := false }) := by
  obtain ⟨number, buffer⟩ := frame
  have flat := ok.sound.flags false false false
  have unresolved (absent : resolveI420ForUpload buffer = none) :=
    uploadI420_unresolved results ⟨number, buffer⟩ absent flat ok.current
  have resolved (b : I420Buffer) (found : resolveI420ForUpload buffer = some b)
      (path : uploadPathOf android buffer = some .i420) :=
    uploadI420_spec flat fresh found rfl rfl (ok.clean (admitted .i420 path))
  cases buffer with
  | oes textureId =>
    cases android with
    | true =>
      have sound : NodeSound { node with pendingUpload := false } := ⟨flat.y, flat.u, flat.v, flat.uv⟩
      rw [uploadPathOf, if_pos rfl, Option.isNone_some, Bool.and_false]
      exact uploadOes_spec sound textureId
    | false =>
      rw [uploadPathOf, if_neg Bool.false_ne_true, Option.isNone_none, Bool.and_true]
      exact unresolved rfl
  | nv12 b =>
    rw [uploadPathOf, Option.isNone_some, Bool.and_false]
    have uploaded := uploadNv12_spec flat fresh b rfl (ok.clean (admitted .nv12 rfl))
    cases android <;> exact uploaded
  | i420 b =>
    rw [show uploadPathOf android (.i420 b) = some .i420 from rfl, Option.isNone_some, Bool.and_false]
    have uploaded := resolved b rfl rfl
    cases android <;> exact uploaded
  | other toI420 =>
    cases toI420 with
    | none =>
      rw [show uploadPathOf android (.other none) = none from rfl, Option.isNone_none, Bool.and_true]
      have hidden := unresolved rfl
      cases android <;> exact hidden
    | some b =>
      rw [show uploadPathOf android (.other (some b)) = some .i420 from rfl, Option.isNone_some, Bool.and_false]
      have uploaded := resolved b rfl rfl
      cases android <;> exact uploaded

theorem uploadPendingFrame_ok {android awaits : Bool} (ok : NodeOk old awaits node) (pending : node.pendingUpload = true)
    (admitted : ∀ path, nextUploadPath android node = some path → awaits = true → CleanUpload results node path) :
    Uploaded old (awaits && (nextUploadPath android node).isNone) (uploadPendingFrame android results node) := by
  unfold uploadPendingFrame
  split
  · rename_i empty
    have nothing : nextUploadPath android node = none := by simp [nextUploadPath, empty]
    rw [nothing, Option.isNone_none, Bool.and_true]
    refine ⟨⟨ok.sound.y, ok.sound.u, ok.sound.v, ok.sound.uv⟩, empty, fun seen gl => ?_, shows_of_hidden rfl⟩
    exact (ok.current seen gl).imp_right fun idle => ⟨rfl, idle.2⟩
  · rename_i frame holding
    have path : nextUploadPath android node = uploadPathOf android frame.buffer := by
      simp [nextUploadPath, pending, holding]
    rw [path] at admitted ⊢
    exact uploadHeldFrame_ok ok (ok.held frame holding) admitted

/-! The context comes and goes. -/

/-- A plane with a new texture and nothing staged. -/
def Blank (plane : Plane) : Prop := readyBuffer plane.pbo = none ∧ plane.tex = genTexture

structure BlankNode (node : RenderNode) : Prop where
  y : Blank node.planeY
  u : Blank node.planeU
  v : Blank node.planeV
  uv : Blank node.planeUV

theorem Blank.without {plane : Plane} (blank : Blank plane) : Without old plane.tex := by
  rw [blank.2]
  exact without_genTexture old

theorem Blank.upToDate {plane : Plane} (blank : Blank plane) : UpToDate old plane :=
  (upToDate_of_idle blank.1).mpr blank.without

theorem BlankNode.current (blank : BlankNode node) : Current old node := by
  intro gl
  left
  cases node.lastUploadPath with
  | nv12 => exact (forall_pathPlanes_nv12 ..).mpr ⟨blank.y.upToDate, blank.uv.upToDate⟩
  | i420 => exact (forall_pathPlanes_i420 ..).mpr ⟨blank.y.upToDate, blank.u.upToDate, blank.v.upToDate⟩
  | none => exact fun u member => absurd member List.not_mem_nil
  | oes => exact fun u member => absurd member List.not_mem_nil

theorem BlankNode.shows (blank : BlankNode node) : Shows old node := by
  intro _ textures drawn
  unfold draw sampledTextures at drawn
  split at drawn
  · cases drawn
  · cases drawn
    split
    · simpa using ⟨blank.y.without, blank.uv.without⟩
    · simpa using ⟨blank.y.without, blank.u.without, blank.v.without⟩

theorem BlankNode.ok {awaits : Bool} (blank : BlankNode node) (sound : NodeSound node)
    (held : ∀ frame, node.heldBuffer = some frame → ¬ old frame.number) : NodeOk old awaits node :=
  ⟨sound, held, fun _ => blank.current, .inr blank.shows⟩

/-- New textures have no storage, whatever the alignment of their context is. -/
theorem PlaneFit.gen {plane : Plane} {before : Nat} (fit : PlaneFit false before plane) (inUse : Bool) (alignment : Nat) :
    PlaneFit inUse alignment (genPlane inUse plane) ∧ Blank (genPlane inUse plane) := by
  have idle := fit.sound.named (fit.absent rfl)
  unfold genPlane
  cases inUse with
  | true => exact ⟨⟨⟨.inr ⟨rfl, rfl⟩, fun _ => idle⟩, fun unused => (by cases unused), .inr ⟨rfl, rfl⟩⟩, idle, rfl⟩
  | false => exact ⟨⟨⟨.inr ⟨rfl, rfl⟩, fun _ => idle⟩, fun _ => fit.absent rfl, .inr ⟨rfl, rfl⟩⟩, idle, rfl⟩

theorem PlaneFit.delete {plane : Plane} {supported : Bool} {alignment : Nat} (fit : PlaneFit supported alignment plane) :
    PlaneFit false alignment (deletePlane supported plane) ∧ Blank (deletePlane supported plane) := by
  unfold deletePlane
  cases supported with
  | true => exact ⟨⟨⟨.inr ⟨rfl, rfl⟩, fun _ => rfl⟩, fun _ => rfl, .inr ⟨rfl, rfl⟩⟩, rfl, rfl⟩
  | false =>
    have idle := fit.sound.named (fit.absent rfl)
    exact ⟨⟨⟨.inr ⟨rfl, rfl⟩, fun _ => idle⟩, fun _ => fit.absent rfl, .inr ⟨rfl, rfl⟩⟩, idle, rfl⟩

theorem ensureInitialized_ok {android awaits : Bool} {next : RenderNode} (ok : NodeOk old awaits node)
    (initialized : ensureInitialized android results node = some next) : NodeOk old awaits next := by
  unfold ensureInitialized at initialized
  split at initialized
  · cases initialized
    exact ok
  · rename_i fresh
    split at initialized
    · have unused : buffersInUse node = false := by simp [buffersInUse, fresh]
      obtain ⟨y, u, v, uv⟩ := ok.sound
      rw [unused] at y u v uv
      cases initialized
      have gen {plane : Plane} (fit : PlaneFit false node.unpackAlignment plane) :=
        fit.gen results.supportsPixelUnpackBuffer results.unpackAlignment
      exact BlankNode.ok ⟨(gen y).2, (gen u).2, (gen v).2, (gen uv).2⟩ ⟨(gen y).1, (gen u).1, (gen v).1, (gen uv).1⟩ ok.held
    · cases initialized

theorem destroyGlResources_ok {awaits : Bool} (ok : NodeOk old awaits node) (context : Bool) :
    NodeOk old awaits (destroyGlResources context node) := by
  unfold destroyGlResources
  split
  · rename_i gone
    have supported : buffersInUse node = node.supportsPixelUnpackBuffer := by simp [buffersInUse, gone.1]
    obtain ⟨y, u, v, uv⟩ := ok.sound
    rw [supported] at y u v uv
    exact BlankNode.ok ⟨y.delete.2, u.delete.2, v.delete.2, uv.delete.2⟩
      ⟨y.delete.1, u.delete.1, v.delete.1, uv.delete.1⟩ ok.held
  · exact ok

theorem takeFrame_spec (item : VideoRenderer) :
    (takeFrame item = (item, none) ∧ ¬ (item.pendingValid = true ∧ item.pendingBuffer.isSome = true)) ∨
      ∃ frame, item.pendingBuffer = some frame ∧ (takeFrame item).2 = some frame ∧
        (takeFrame item).1.hasVideo = item.hasVideo ∧ (takeFrame item).1.pendingBuffer = none := by
  unfold takeFrame
  split
  · cases mailbox : item.pendingBuffer with
    | none => exact .inl ⟨rfl, by simp⟩
    | some frame => exact .inr ⟨frame, rfl, rfl, rfl, rfl⟩
  · rename_i invalid
    exact .inl ⟨rfl, fun full => invalid full.1⟩

/-- A sync takes the frame of the mailbox, or hides the picture, or comes
after no clear. -/
theorem sync_ok {awaits unseen : Bool} {item : VideoRenderer} (ok : NodeOk old awaits node)
    (seen : unseen = false → ∀ n, newer n → old n)
    (pending : ∀ frame, item.pendingBuffer = some frame → ¬ newer frame.number)
    (mailbox : unseen = true → item.hasVideo = true → item.pendingValid = true ∧ item.pendingBuffer.isSome = true) :
    NodeOk newer (awaits || unseen) (sync item node).2 := by
  have current (both : (awaits || unseen) = false) : Current newer node := by
    rw [Bool.or_eq_false_iff] at both
    exact (ok.current both.1).mono (seen both.2)
  obtain ⟨y, u, v, uv⟩ := ok.sound
  unfold sync
  rcases takeFrame_spec item with ⟨taken, vacant⟩ | ⟨frame, waiting, taken, _⟩
  · rw [taken]
    simp only
    by_cases video : item.hasVideo = true
    · have known : unseen = false := by
        by_contra missed
        exact vacant (mailbox (by simpa using missed) video)
      have kept := ok.mono (seen known)
      simp only [video, if_true]
      refine ⟨⟨y, u, v, uv⟩, kept.held, current, ?_⟩
      exact kept.shows
    · simp only [video]
      refine ⟨⟨y, u, v, uv⟩, ?_, fun both gl => ?_, .inr (shows_of_hidden rfl)⟩
      · intro frame holding
        cases holding
      · exact (current both gl).imp_right fun idle => ⟨rfl, idle.2⟩
  · generalize takeFrame item = next at taken
    obtain ⟨next, result⟩ := next
    simp only at taken
    subst taken
    refine ⟨⟨y, u, v, uv⟩, ?_, current, .inl rfl⟩
    intro other holding
    cases holding
    exact pending frame waiting

/-! Rendering. -/

theorem uploadIfPending_ok {android awaits : Bool} (ok : NodeOk old awaits node)
    (admitted : awaits = true → ∀ path ∈ nextUploadPath android node, CleanUpload results node path) :
    NodeOk old (awaits && !(nextUploadPath android node).isSome) (uploadIfPending android results node) ∧
      Shows old (uploadIfPending android results node) := by
  rw [Option.not_isSome]
  unfold uploadIfPending
  by_cases pending : node.pendingUpload = true
  · rw [if_pos pending]
    have uploaded := uploadPendingFrame_ok ok pending fun path due waits => admitted waits path due
    exact ⟨uploaded.ok, uploaded.shows⟩
  · have nothing : nextUploadPath android node = none := by simp [nextUploadPath, pending]
    rw [if_neg pending, nothing, Option.isNone_none, Bool.and_true]
    exact ⟨ok, ok.shows.resolve_left pending⟩

/-- What a `render` puts out: nothing, or a draw with its timing line. -/
theorem render_ok {android awaits : Bool} (ok : NodeOk old awaits node)
    (admitted : awaits = true → ∀ next ∈ ensureInitialized android results node,
      ∀ path ∈ nextUploadPath android next, CleanUpload results next path) :
    NodeOk old (awaits && !uploadsFrame android results node) (render android results node).1 ∧
      ((render android results node).2 = [] ∨
        ∃ next, (render android results node).2 = draw next :: sampledTimings next ∧
          ∀ textures, draw next = .drew textures → ∀ tex ∈ textures, Without old tex) := by
  unfold render uploadsFrame
  cases initialized : ensureInitialized android results node with
  | none =>
    refine ⟨?_, .inl rfl⟩
    rw [Bool.not_false, Bool.and_true]
    exact ok
  | some next =>
    have ready := ensureInitialized_ok ok initialized
    obtain ⟨after, shows⟩ := uploadIfPending_ok ready fun waits => admitted waits next initialized
    refine ⟨after, ?_⟩
    simp only
    split
    · rename_i shown
      exact .inr ⟨_, rfl, shows shown⟩
    · exact .inl rfl

theorem sampledTimings_quiet {a : RenderAction} (member : a ∈ sampledTimings node) :
    ∃ frameId startMonoUs, a = .sampledTiming frameId startMonoUs := by
  unfold sampledTimings at member
  split at member
  · exact ⟨_, _, List.mem_singleton.mp member⟩
  · cases member

/-- Draws and timing lines do not change what is stale. -/
theorem draw_quiet {a : RenderAction} (member : a ∈ draw node :: sampledTimings node) :
    a ≠ .cleared ∧ a ≠ .synced ∧ ∀ n, a ≠ .delivered n := by
  rcases List.mem_cons.mp member with rfl | timing
  · unfold draw
    split
    · exact ⟨nofun, nofun, fun _ => nofun⟩
    · exact ⟨nofun, nofun, fun _ => nofun⟩
  · obtain ⟨frameId, startMonoUs, rfl⟩ := sampledTimings_quiet timing
    exact ⟨nofun, nofun, fun _ => nofun⟩

end WebRtcDemo.Renderer
