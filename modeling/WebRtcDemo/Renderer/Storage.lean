import WebRtcDemo.Renderer.Clearing

/-! The cached sizes of the planes and the storage of their textures. -/

namespace WebRtcDemo.Renderer

open GlTexture

/-- The cached size is the one of the storage. Without storage it is 0 by 0. -/
def PlaneSized (plane : Plane) : Prop := plane.tex.width = plane.cached.w ∧ plane.tex.height = plane.cached.h

instance (plane : Plane) : Decidable (PlaneSized plane) := inferInstanceAs (Decidable (_ ∧ _))

def RenderNode.planes (node : RenderNode) : List Plane := [node.planeY, node.planeU, node.planeV, node.planeUV]

@[simp] theorem forall_planes {P : Plane → Prop} (node : RenderNode) :
    (∀ plane ∈ node.planes, P plane) ↔ P node.planeY ∧ P node.planeU ∧ P node.planeV ∧ P node.planeUV := by
  simp [RenderNode.planes]

def CachesAgree (s : State) : Prop := ∀ node ∈ s.node, ∀ plane ∈ node.planes, PlaneSized plane

/-- A call of `glTexSubImage2D`, with the texture that it finds. A buffer
without a store gives it nothing to read. -/
structure Transfer where
  target : Texture Nat
  w : Nat
  h : Nat
  rowLength : Nat
  bytesPerPixel : Nat
  source : Option (Block Nat)

def Transfer.result (t : Transfer) : Texture Nat :=
  match t.source with
  | none => t.target
  | some data => texSubImage2D t.target t.w t.h t.rowLength t.bytesPerPixel data

/-- The storage has exactly the size of the transfer. -/
def Transfer.Exact (t : Transfer) : Prop := t.target.width = t.w ∧ t.target.height = t.h

def tightTransfer (supportsUnpackRowLength : Bool) (p : PlaneSource) (plane : Plane) : Transfer where
  target := (allocatePlane true plane p.width p.height).tex
  w := p.width
  h := p.height
  rowLength := unpackRowLength supportsUnpackRowLength p.strideBytes p.bytesPerPixel
  bytesPerPixel := p.bytesPerPixel
  source := some p.data

def readyTransfer (supportsUnpackRowLength : Bool) (unpackAlignment : Nat) (plane : Plane) (index : Fin 2) : Transfer where
  target := (allocatePlane (allocates unpackAlignment plane.pbo index) plane plane.pbo.readyW plane.pbo.readyH).tex
  w := plane.pbo.readyW
  h := plane.pbo.readyH
  rowLength := unpackRowLength supportsUnpackRowLength plane.pbo.readyStrideBytes plane.pbo.readyBytesPerPixel
  bytesPerPixel := plane.pbo.readyBytesPerPixel
  source := plane.pbo.store index

/-- The calls of `uploadPlaneViaPboAsync`. -/
def asyncTransfers (supportsUnpackRowLength : Bool) (unpackAlignment : Nat) (gl : StageOutcome) (p : PlaneSource)
    (plane : Plane) : List Transfer :=
  if plane.pbo.ids then
    let (next, _) := uploadPlaneFromReadyPbo supportsUnpackRowLength unpackAlignment plane
    let (pbo, staged) := stagePlaneIntoPbo supportsUnpackRowLength gl p next.pbo
    (readyBuffer plane.pbo).toList.map (readyTransfer supportsUnpackRowLength unpackAlignment plane) ++
      if staged then [] else [tightTransfer supportsUnpackRowLength p { next with pbo := resetPlaneUploadPbo pbo }]
  else [tightTransfer supportsUnpackRowLength p plane]

def nv12Transfers (gl : GlResults) (number : Nat) (b : NV12Buffer) (node : RenderNode) : List Transfer :=
  let rowLength := node.supportsUnpackRowLength
  if node.supportsPixelUnpackBuffer then
    let alignmentUV := alignmentAfter gl.y node.planeY node.unpackAlignment
    asyncTransfers rowLength node.unpackAlignment gl.y (nv12PlaneY number b) node.planeY ++
      asyncTransfers rowLength alignmentUV gl.uv (nv12PlaneUV number b) node.planeUV
  else
    [tightTransfer rowLength (nv12TightY rowLength number b) node.planeY,
      tightTransfer rowLength (nv12TightUV rowLength number b) node.planeUV]

def i420Transfers (gl : GlResults) (number : Nat) (b : I420Buffer) (node : RenderNode) : List Transfer :=
  let rowLength := node.supportsUnpackRowLength
  if node.supportsPixelUnpackBuffer then
    let alignmentU := alignmentAfter gl.y node.planeY node.unpackAlignment
    let alignmentV := alignmentAfter gl.u node.planeU alignmentU
    asyncTransfers rowLength node.unpackAlignment gl.y (i420PlaneY number b) node.planeY ++
      asyncTransfers rowLength alignmentU gl.u (i420PlaneU number b) node.planeU ++
      asyncTransfers rowLength alignmentV gl.v (i420PlaneV number b) node.planeV
  else
    [tightTransfer rowLength (i420Tight rowLength (i420PlaneY number b)) node.planeY,
      tightTransfer rowLength (i420Tight rowLength (i420PlaneU number b)) node.planeU,
      tightTransfer rowLength (i420Tight rowLength (i420PlaneV number b)) node.planeV]

/-- An external texture has none. -/
def frameTransfers (gl : GlResults) (node : RenderNode) (frame : QueuedFrame) : List Transfer :=
  match frame.buffer with
  | .nv12 b => nv12Transfers gl frame.number b (enterCpuPath .nv12 node)
  | buffer =>
    (resolveI420ForUpload buffer).toList.flatMap fun b => i420Transfers gl frame.number b (enterCpuPath .i420 node)

def renderTransfers (android : Bool) (gl : GlResults) (node : RenderNode) : List Transfer :=
  (ensureInitialized android gl node).toList.flatMap fun node =>
    if node.pendingUpload then node.heldBuffer.toList.flatMap (frameTransfers gl node) else []

/-- The calls of `glTexSubImage2D` that a step makes. -/
def transfers (android : Bool) (s : State) : RenderEvent → List Transfer
  | .render gl => (s.found (.render gl)).node.toList.flatMap (renderTransfers android gl)
  | _ => []

def TransfersExact (android : Bool) (s : State) (e : RenderEvent) : Prop := ∀ t ∈ transfers android s e, t.Exact

/-- Textures are only deleted while nothing has a cached size. -/
def ReleasedUnused (s : State) : RenderEvent → Prop
  | .releaseResources context => ∀ node ∈ s.node, node.glInitialized = true → context = true →
      ∀ plane ∈ node.planes, plane.cached = {}
  | _ => True

/-- Storage for what is ready is there, or its allocation succeeds. -/
def AllocatesReady (unpackAlignment : Nat) (plane : Plane) : Prop :=
  plane.pbo.ids = true → ∀ index ∈ readyBuffer plane.pbo,
    plane.cached = ⟨plane.pbo.readyW, plane.pbo.readyH⟩ ∨ allocates unpackAlignment plane.pbo index = true

instance (unpackAlignment : Nat) (plane : Plane) : Decidable (AllocatesReady unpackAlignment plane) :=
  inferInstanceAs (Decidable (_ → ∀ index ∈ readyBuffer plane.pbo, _ ∨ _))

/-- Planes that are uploaded one after the other meet a rule, each with the
unpack alignment that it finds. -/
def EachFinds (rule : Nat → Plane → Prop) : Nat → List (StageOutcome × Plane) → Prop
  | _, [] => True
  | alignment, (gl, plane) :: planes => rule alignment plane ∧ EachFinds rule (alignmentAfter gl plane alignment) planes

instance decidableEachFinds (rule : Nat → Plane → Prop) [∀ alignment plane, Decidable (rule alignment plane)] :
    ∀ alignment planes, Decidable (EachFinds rule alignment planes)
  | _, [] => isTrue trivial
  | alignment, (gl, plane) :: planes =>
    have := decidableEachFinds rule (alignmentAfter gl plane alignment) planes
    inferInstanceAs (Decidable (rule alignment plane ∧ EachFinds rule (alignmentAfter gl plane alignment) planes))

/-- The planes of an upload through buffers that finds something ready, which
is one that stays on its path. -/
def PathFinds (rule : Nat → Plane → Prop) (gl : GlResults) (node : RenderNode) (path : UploadPathKind) : Prop :=
  node.supportsPixelUnpackBuffer = true → node.lastUploadPath = path →
    EachFinds rule node.unpackAlignment (pathPlanes gl node path)

instance (rule : Nat → Plane → Prop) [∀ alignment plane, Decidable (rule alignment plane)] (gl : GlResults)
    (node : RenderNode) (path : UploadPathKind) : Decidable (PathFinds rule gl node path) :=
  inferInstanceAs (Decidable (_ → _ → _))

/-- No call of `glTexImage2D` reads past the buffer that is bound. -/
def Allocating : GlResults → RenderNode → UploadPathKind → Prop := PathFinds AllocatesReady

instance (gl : GlResults) (node : RenderNode) (path : UploadPathKind) : Decidable (Allocating gl node path) :=
  inferInstanceAs (Decidable (PathFinds AllocatesReady gl node path))

/-- A condition on the uploads of frames, in the state of the node in which they are made. -/
def UploadsMeet (android : Bool) (ok : GlResults → RenderNode → UploadPathKind → Prop) (s : State) : RenderEvent → Prop
  | .render gl => ∀ node ∈ (s.found (.render gl)).node.bind (ensureInitialized android gl),
      ∀ path ∈ nextUploadPath android node, ok gl node path
  | _ => True

instance (android : Bool) (ok : GlResults → RenderNode → UploadPathKind → Prop) [∀ gl node path, Decidable (ok gl node path)]
    (s : State) : DecidablePred (UploadsMeet android ok s)
  | .render gl => inferInstanceAs (Decidable (∀ node ∈ (s.found (.render gl)).node.bind (ensureInitialized android gl),
      ∀ path ∈ nextUploadPath android node, ok gl node path))
  | .onFrame .. | .updatePaintNode _ | .releaseResources _ | .setVideoTrack _ | .clearVideoTrack => isTrue trivial

variable {plane : Plane} {rowLength succeeds : Bool} {gl : StageOutcome} {p : PlaneSource} {alignment : Nat}

theorem allocatePlane_size {w h : Nat} (sized : PlaneSized plane) (allocated : plane.cached = ⟨w, h⟩ ∨ succeeds = true) :
    (allocatePlane succeeds plane w h).tex.width = w ∧ (allocatePlane succeeds plane w h).tex.height = h ∧
      (allocatePlane succeeds plane w h).cached = ⟨w, h⟩ := by
  unfold allocatePlane
  split
  · rename_i same
    obtain ⟨rfl, rfl⟩ := same
    exact ⟨sized.1, sized.2, rfl⟩
  · rename_i other
    rcases allocated with cached | rfl
    · exact absurd ⟨congrArg PlaneTexCache.w cached, congrArg PlaneTexCache.h cached⟩ other
    · exact ⟨rfl, rfl, rfl⟩

theorem PlaneSized.allocate {w h : Nat} (sized : PlaneSized plane) (allocated : plane.cached = ⟨w, h⟩ ∨ succeeds = true) :
    PlaneSized (allocatePlane succeeds plane w h) := by
  obtain ⟨width, height, cached⟩ := allocatePlane_size sized allocated
  rw [PlaneSized, cached]
  exact ⟨width, height⟩

theorem PlaneSized.tight (sized : PlaneSized plane) (rowLength : Bool) (p : PlaneSource) :
    PlaneSized (uploadPlaneTight rowLength p plane) := by
  have allocated : PlaneSized (allocatePlane true plane p.width p.height) := sized.allocate (.inr rfl)
  simp only [PlaneSized, uploadPlaneTight, texSubImage2D_width, texSubImage2D_height]
  exact allocated

theorem PlaneSized.transferFromStore (sized : PlaneSized plane) (rowLength : Bool) (data : Option (Block Nat)) :
    PlaneSized (transferFromStore rowLength plane data) := by
  cases data with
  | none => exact sized
  | some block =>
    simp only [PlaneSized, Renderer.transferFromStore, texSubImage2D_width, texSubImage2D_height]
    exact sized

theorem PlaneSized.ready (sized : PlaneSized plane) (rowLength : Bool) (allocates : AllocatesReady alignment plane)
    (ids : plane.pbo.ids = true) : PlaneSized (uploadPlaneFromReadyPbo rowLength alignment plane).1 := by
  unfold uploadPlaneFromReadyPbo
  split
  · exact sized
  · rename_i index waiting
    exact (sized.allocate (allocates ids index waiting)).transferFromStore rowLength _

theorem PlaneSized.async (sized : PlaneSized plane) (rowLength : Bool) (gl : StageOutcome) (p : PlaneSource)
    (allocates : AllocatesReady alignment plane) : PlaneSized (uploadPlaneViaPboAsync rowLength alignment gl p plane).1 := by
  unfold uploadPlaneViaPboAsync
  split
  · rename_i ids
    have ready := sized.ready rowLength allocates ids
    simp only
    split
    · exact ready
    · have reset (pbo : PlaneUploadPbo) :
          PlaneSized { (uploadPlaneFromReadyPbo rowLength alignment plane).1 with pbo := pbo } := ready
      exact (reset _).tight rowLength p
  · exact sized.tight rowLength p

theorem allocatePlane_pbo (succeeds : Bool) (plane : Plane) (w h : Nat) :
    (allocatePlane succeeds plane w h).pbo = plane.pbo := by
  unfold allocatePlane
  split <;> rfl

theorem uploadPlaneFromReadyPbo_tex (rowLength : Bool) (alignment : Nat) (plane : Plane) :
    (uploadPlaneFromReadyPbo rowLength alignment plane).1.tex =
      (((readyBuffer plane.pbo).toList.map (readyTransfer rowLength alignment plane)).getLast?.map Transfer.result).getD
        plane.tex := by
  unfold uploadPlaneFromReadyPbo
  cases readyBuffer plane.pbo with
  | none => rfl
  | some index =>
    simp only [Option.toList_some, List.map_cons, List.map_nil, List.getLast?_singleton, Option.map_some, Option.getD_some,
      Transfer.result, readyTransfer, allocatePlane_pbo]
    cases plane.pbo.store index with
    | none => rfl
    | some data => simp only [transferFromStore, allocatePlane_pbo]

/-- The texture that an upload leaves is what the last of its calls made of it. -/
theorem uploadPlaneViaPboAsync_tex (rowLength : Bool) (alignment : Nat) (gl : StageOutcome) (p : PlaneSource) (plane : Plane) :
    (uploadPlaneViaPboAsync rowLength alignment gl p plane).1.tex =
      ((asyncTransfers rowLength alignment gl p plane).getLast?.map Transfer.result).getD plane.tex := by
  unfold uploadPlaneViaPboAsync asyncTransfers
  split
  · simp only
    split
    · rw [List.append_nil]
      exact uploadPlaneFromReadyPbo_tex rowLength alignment plane
    · rw [List.getLast?_concat]
      rfl
  · rfl

/-- On a plane whose cached size is right, every call finds storage of its size. -/
theorem PlaneSized.tightTransfer_exact (sized : PlaneSized plane) (rowLength : Bool) (p : PlaneSource) :
    (tightTransfer rowLength p plane).Exact := by
  obtain ⟨width, height, _⟩ : (allocatePlane true plane p.width p.height).tex.width = p.width ∧ _ ∧ _ :=
    allocatePlane_size sized (.inr rfl)
  exact ⟨width, height⟩

/-- A failed allocation leaves storage of another size. -/
theorem PlaneSized.readyTransfer_exact_iff (sized : PlaneSized plane) (rowLength : Bool) (alignment : Nat) (index : Fin 2) :
    (readyTransfer rowLength alignment plane index).Exact ↔
      plane.cached = ⟨plane.pbo.readyW, plane.pbo.readyH⟩ ∨ allocates alignment plane.pbo index = true := by
  constructor
  · intro exact
    by_contra neither
    obtain ⟨other, failed⟩ := not_or.mp neither
    have different : ¬ (plane.cached.w = plane.pbo.readyW ∧ plane.cached.h = plane.pbo.readyH) :=
      fun same => other ((PlaneTexCache.mk.injEq ..).mpr same)
    have left : (readyTransfer rowLength alignment plane index).target = plane.tex := by
      simp only [readyTransfer, allocatePlane, if_neg different, if_neg failed]
    rw [Transfer.Exact, left, sized.1, sized.2] at exact
    exact different exact
  · intro allocated
    obtain ⟨width, height, _⟩ := allocatePlane_size sized allocated
    exact ⟨width, height⟩

theorem PlaneSized.asyncTransfers_exact_iff (sized : PlaneSized plane) (rowLength : Bool) (alignment : Nat)
    (gl : StageOutcome) (p : PlaneSource) :
    (∀ t ∈ asyncTransfers rowLength alignment gl p plane, t.Exact) ↔ AllocatesReady alignment plane := by
  unfold asyncTransfers
  split
  · rename_i ids
    have first : (∀ t ∈ (readyBuffer plane.pbo).toList.map (readyTransfer rowLength alignment plane), t.Exact) ↔
        AllocatesReady alignment plane := by
      cases waiting : readyBuffer plane.pbo with
      | none => simp [AllocatesReady, waiting]
      | some index => simp [AllocatesReady, ids, waiting, sized.readyTransfer_exact_iff]
    simp only [List.forall_mem_append, first]
    refine and_iff_left_of_imp fun allocates => ?_
    have ready (pbo : PlaneUploadPbo) :
        PlaneSized { (uploadPlaneFromReadyPbo rowLength alignment plane).1 with pbo := pbo } :=
      sized.ready rowLength allocates ids
    split
    · exact fun _ member => absurd member List.not_mem_nil
    · exact List.forall_mem_singleton.mpr ((ready _).tightTransfer_exact rowLength p)
  · rename_i absent
    exact iff_of_true (List.forall_mem_singleton.mpr (sized.tightTransfer_exact rowLength p)) fun ids => absurd ids absent

/-! The node. -/

/-- All four planes have the right size. Before the textures are made none has one. -/
structure NodeSized (node : RenderNode) : Prop where
  planes : ∀ plane ∈ node.planes, PlaneSized plane
  unused : node.glInitialized = false → ∀ plane ∈ node.planes, plane.cached = {}

variable {node : RenderNode} {results : GlResults} {number : Nat}

theorem NodeSized.new : NodeSized {} := by
  constructor
  · simp [PlaneSized, genTexture]
  · simp

/-- Steps that leave the planes and the context alone. -/
theorem NodeSized.congr {next : RenderNode} (sized : NodeSized node) (planes : next.planes = node.planes)
    (initialized : next.glInitialized = node.glInitialized) : NodeSized next := by
  constructor
  · rw [planes]
    exact sized.planes
  · rw [planes, initialized]
    exact sized.unused

/-- What a sync leaves: the frame of the mailbox with its trace, or nothing new, or a hidden picture. -/
theorem sync_cases (item : VideoRenderer) (node : RenderNode) :
    (∃ frame, item.pendingBuffer = some frame ∧ (sync item node).2 =
        { node with
          heldBuffer := some frame, pendingUpload := true, glQueueTrace := item.pendingTrace, haveGlFrameTrace := true }) ∨
      (sync item node).2 = { node with uploadStatsValidForLastFrame := false, haveGlFrameTrace := false } ∨
      (sync item node).2 =
        { node with
          hasData := false, heldBuffer := none, pendingUpload := false, uploadStatsValidForLastFrame := false,
          haveGlFrameTrace := false } := by
  unfold sync takeFrame
  by_cases valid : item.pendingValid = true
  · rw [if_pos valid]
    cases mailbox : item.pendingBuffer with
    | none =>
      by_cases video : item.hasVideo = true
      · exact .inr (.inl (by simp [video]))
      · exact .inr (.inr (by simp [video]))
    | some frame => exact .inl ⟨frame, rfl, rfl⟩
  · rw [if_neg valid]
    by_cases video : item.hasVideo = true
    · exact .inr (.inl (by simp [video]))
    · exact .inr (.inr (by simp [video]))

theorem NodeSized.sync (sized : NodeSized node) (item : VideoRenderer) : NodeSized (Renderer.sync item node).2 := by
  rcases sync_cases item node with ⟨frame, _, same⟩ | same | same
  · rw [same]
    exact sized.congr rfl rfl
  · rw [same]
    exact sized.congr rfl rfl
  · rw [same]
    exact sized.congr rfl rfl

/-! What holds of every plane through uploads. -/

theorem eachFinds_of_forall {rule : Nat → Plane → Prop} {planes : List (StageOutcome × Plane)}
    (all : ∀ u ∈ planes, ∀ alignment, rule alignment u.2) (alignment : Nat) : EachFinds rule alignment planes := by
  induction planes generalizing alignment with
  | nil => trivial
  | cons u planes ih =>
    obtain ⟨first, rest⟩ := List.forall_mem_cons.mp all
    exact ⟨first alignment, ih rest _⟩

/-- After the change to the path nothing is ready. -/
theorem pathFinds_entered {rule : Nat → Plane → Prop}
    (idle : ∀ alignment plane, readyBuffer plane.pbo = none → rule alignment plane) (gl : GlResults) (node : RenderNode)
    (path : UploadPathKind) :
    ((enterCpuPath path node).supportsPixelUnpackBuffer = true →
      EachFinds rule (enterCpuPath path node).unpackAlignment (pathPlanes gl (enterCpuPath path node) path)) ↔
      PathFinds rule gl node path := by
  unfold enterCpuPath PathFinds
  split
  · rename_i same
    simp only [same, forall_const]
  · rename_i other
    have nothing := resetCpuUploadPipeline_idle node gl path
    refine iff_of_true (fun _ => eachFinds_of_forall (fun u member alignment => idle alignment u.2 ?_) _)
      fun _ same => absurd same other
    cases path <;> exact nothing u member

/-- A property of planes that the uploads keep as long as they meet a rule,
which they do where nothing is ready. -/
structure KeptByUploads (rule : Nat → Plane → Prop) (P : Plane → Prop) : Prop where
  idle : ∀ alignment plane, readyBuffer plane.pbo = none → rule alignment plane
  reset : ∀ plane, P plane → P (resetPlane plane)
  tight : ∀ rowLength p plane, P plane → P (uploadPlaneTight rowLength p plane)
  async : ∀ rowLength alignment gl p plane, rule alignment plane → P plane →
    P (uploadPlaneViaPboAsync rowLength alignment gl p plane).1

/-- For properties that every upload keeps. -/
def Anyhow (_ : Nat) (_ : Plane) : Prop := True

theorem pathFinds_anyhow (gl : GlResults) (node : RenderNode) (path : UploadPathKind) : PathFinds Anyhow gl node path :=
  fun _ _ => eachFinds_of_forall (fun _ _ _ => trivial) _

section kept
variable {rule : Nat → Plane → Prop} {P : Plane → Prop} (kept : KeptByUploads rule P)
include kept

theorem KeptByUploads.resetCpuUploadPipeline (held : ∀ plane ∈ node.planes, P plane) :
    ∀ plane ∈ (resetCpuUploadPipeline node).planes, P plane := by
  rw [forall_planes] at held ⊢
  obtain ⟨y, u, v, uv⟩ := held
  exact ⟨kept.reset _ y, kept.reset _ u, kept.reset _ v, kept.reset _ uv⟩

theorem KeptByUploads.enterCpuPath (path : UploadPathKind) (held : ∀ plane ∈ node.planes, P plane) :
    ∀ plane ∈ (enterCpuPath path node).planes, P plane := by
  unfold Renderer.enterCpuPath
  split
  · exact held
  · exact kept.resetCpuUploadPipeline held

theorem KeptByUploads.enterOesPath (held : ∀ plane ∈ node.planes, P plane) :
    ∀ plane ∈ (enterOesPath node).planes, P plane := by
  unfold Renderer.enterOesPath
  split
  · exact held
  · exact kept.resetCpuUploadPipeline held

theorem KeptByUploads.uploadNv12 (gl : GlResults) (number : Nat) (b : NV12Buffer) (finds : PathFinds rule gl node .nv12)
    (held : ∀ plane ∈ node.planes, P plane) : ∀ plane ∈ (uploadNv12 gl number b node).planes, P plane := by
  have entered := kept.enterCpuPath .nv12 held
  have finds := (pathFinds_entered kept.idle gl node .nv12).mpr finds
  change ∀ plane ∈ (uploadNv12Planes gl number b (Renderer.enterCpuPath .nv12 node)).1.planes, P plane
  rw [forall_planes] at entered ⊢
  obtain ⟨y, u, v, uv⟩ := entered
  unfold uploadNv12Planes
  split
  · rename_i buffers
    obtain ⟨findsY, findsUV, _⟩ := finds buffers
    exact ⟨kept.async _ _ _ _ _ findsY y, u, v, kept.async _ _ _ _ _ findsUV uv⟩
  · exact ⟨kept.tight _ _ _ y, u, v, kept.tight _ _ _ uv⟩

theorem KeptByUploads.uploadI420 (gl : GlResults) (frame : QueuedFrame)
    (finds : ∀ b, resolveI420ForUpload frame.buffer = some b → PathFinds rule gl node .i420)
    (held : ∀ plane ∈ node.planes, P plane) : ∀ plane ∈ (uploadI420 gl frame node).planes, P plane := by
  have entered := kept.enterCpuPath .i420 held
  unfold Renderer.uploadI420
  simp only
  split
  · exact entered
  · rename_i b resolved
    have finds := (pathFinds_entered kept.idle gl node .i420).mpr (finds b resolved)
    change ∀ plane ∈ (uploadI420Planes gl frame.number b (Renderer.enterCpuPath .i420 node)).1.planes, P plane
    rw [forall_planes] at entered ⊢
    obtain ⟨y, u, v, uv⟩ := entered
    unfold uploadI420Planes
    split
    · rename_i buffers
      obtain ⟨findsY, findsU, findsV, _⟩ := finds buffers
      exact ⟨kept.async _ _ _ _ _ findsY y, kept.async _ _ _ _ _ findsU u, kept.async _ _ _ _ _ findsV v, uv⟩
    · exact ⟨kept.tight _ _ _ y, kept.tight _ _ _ u, kept.tight _ _ _ v, uv⟩

theorem KeptByUploads.uploadOes (textureId : Nat) (held : ∀ plane ∈ node.planes, P plane) :
    ∀ plane ∈ (uploadOes textureId node).planes, P plane := by
  have entered := kept.enterOesPath held
  unfold Renderer.uploadOes
  simp only
  split
  · exact entered
  · exact entered

omit kept in
theorem uploadPathOf_resolved (android : Bool) {buffer : FrameBuffer} {b : I420Buffer}
    (resolved : resolveI420ForUpload buffer = some b) : uploadPathOf android buffer = some .i420 := by
  cases buffer with
  | oes textureId => cases resolved
  | nv12 b => cases resolved
  | i420 b => rfl
  | other toI420 => simp [uploadPathOf, resolved]

theorem KeptByUploads.uploadHeldFrame (android : Bool) (gl : GlResults) (frame : QueuedFrame)
    (finds : ∀ path ∈ uploadPathOf android frame.buffer, PathFinds rule gl node path)
    (held : ∀ plane ∈ node.planes, P plane) : ∀ plane ∈ (uploadHeldFrame android gl frame node).planes, P plane := by
  unfold Renderer.uploadHeldFrame
  split
  · exact kept.uploadOes _ held
  · rename_i b same
    rw [same] at finds
    exact kept.uploadNv12 gl frame.number b (finds .nv12 rfl) held
  · exact kept.uploadI420 gl frame (fun b resolved => finds .i420 (uploadPathOf_resolved _ resolved)) held

theorem KeptByUploads.uploadIfPending (android : Bool) (gl : GlResults)
    (finds : ∀ path ∈ nextUploadPath android node, PathFinds rule gl node path)
    (held : ∀ plane ∈ node.planes, P plane) : ∀ plane ∈ (uploadIfPending android gl node).planes, P plane := by
  unfold Renderer.uploadIfPending uploadPendingFrame
  split
  · rename_i pending
    split
    · exact held
    · rename_i frame holding
      refine kept.uploadHeldFrame android gl frame (fun path due => ?_) held
      have next : nextUploadPath android node = uploadPathOf android frame.buffer := by
        simp [nextUploadPath, pending, holding]
      rw [next] at finds
      exact finds path due
  · exact held

end kept

theorem allocatesReady_of_idle (alignment : Nat) (plane : Plane) (idle : readyBuffer plane.pbo = none) :
    AllocatesReady alignment plane := by
  simp [AllocatesReady, idle]

theorem planeSized_kept : KeptByUploads AllocatesReady PlaneSized where
  idle := allocatesReady_of_idle
  reset _ sized := sized
  tight rowLength p _ sized := sized.tight rowLength p
  async rowLength _ gl p _ allocates sized := sized.async rowLength gl p allocates

/-- What no upload changes. -/
structure SameContext (node next : RenderNode) : Prop where
  initialized : next.glInitialized = node.glInitialized
  buffers : next.supportsPixelUnpackBuffer = node.supportsPixelUnpackBuffer
  trace : next.glQueueTrace = node.glQueueTrace
  haveTrace : next.haveGlFrameTrace = node.haveGlFrameTrace
  pending : next.pendingUpload = node.pendingUpload

theorem SameContext.trans {middle next : RenderNode} (first : SameContext node middle) (second : SameContext middle next) :
    SameContext node next where
  initialized := second.initialized.trans first.initialized
  buffers := second.buffers.trans first.buffers
  trace := second.trace.trans first.trace
  haveTrace := second.haveTrace.trans first.haveTrace
  pending := second.pending.trans first.pending

theorem enterCpuPath_same (path : UploadPathKind) (node : RenderNode) : SameContext node (enterCpuPath path node) := by
  unfold enterCpuPath
  split
  · exact ⟨rfl, rfl, rfl, rfl, rfl⟩
  · exact ⟨rfl, rfl, rfl, rfl, rfl⟩

theorem enterOesPath_same (node : RenderNode) : SameContext node (enterOesPath node) := by
  unfold enterOesPath
  split
  · exact ⟨rfl, rfl, rfl, rfl, rfl⟩
  · exact ⟨rfl, rfl, rfl, rfl, rfl⟩

theorem uploadNv12_same (gl : GlResults) (number : Nat) (b : NV12Buffer) (node : RenderNode) :
    SameContext node (uploadNv12 gl number b node) := by
  obtain ⟨y, uv, alignment, rest⟩ := uploadNv12Planes_rest gl number b (enterCpuPath .nv12 node)
  refine (enterCpuPath_same .nv12 node).trans ?_
  unfold uploadNv12
  simp only [rest]
  exact ⟨rfl, rfl, rfl, rfl, rfl⟩

theorem uploadI420_same (gl : GlResults) (frame : QueuedFrame) (node : RenderNode) :
    SameContext node (uploadI420 gl frame node) := by
  refine (enterCpuPath_same .i420 node).trans ?_
  unfold uploadI420
  simp only
  split
  · exact ⟨rfl, rfl, rfl, rfl, rfl⟩
  · rename_i b _
    obtain ⟨y, u, v, alignment, rest⟩ := uploadI420Planes_rest gl frame.number b (enterCpuPath .i420 node)
    simp only [rest]
    exact ⟨rfl, rfl, rfl, rfl, rfl⟩

theorem uploadOes_same (textureId : Nat) (node : RenderNode) : SameContext node (uploadOes textureId node) := by
  refine (enterOesPath_same node).trans ?_
  unfold uploadOes
  simp only
  split
  · exact ⟨rfl, rfl, rfl, rfl, rfl⟩
  · exact ⟨rfl, rfl, rfl, rfl, rfl⟩

theorem uploadHeldFrame_same (android : Bool) (gl : GlResults) (frame : QueuedFrame) (node : RenderNode) :
    SameContext node (uploadHeldFrame android gl frame node) := by
  have flat : SameContext node { node with frameIsOes := false, frameIsNv12 := false } := ⟨rfl, rfl, rfl, rfl, rfl⟩
  unfold uploadHeldFrame
  split
  · exact uploadOes_same _ node
  · exact flat.trans (uploadNv12_same gl frame.number _ _)
  · exact flat.trans (uploadI420_same gl frame _)

theorem uploadIfPending_same (android : Bool) (gl : GlResults) (node : RenderNode) :
    SameContext { node with pendingUpload := false } (uploadIfPending android gl node) := by
  unfold uploadIfPending uploadPendingFrame
  split
  · split
    · exact ⟨rfl, rfl, rfl, rfl, rfl⟩
    · exact uploadHeldFrame_same android gl _ _
  · rename_i done
    exact ⟨rfl, rfl, rfl, rfl, by simpa using done⟩

theorem ensureInitialized_initialized {android : Bool} {next : RenderNode}
    (initialized : ensureInitialized android results node = some next) : next.glInitialized = true := by
  unfold ensureInitialized at initialized
  split at initialized
  · rename_i already
    cases initialized
    exact already
  · split at initialized
    · cases initialized
      rfl
    · cases initialized

theorem NodeSized.initialize {android : Bool} {next : RenderNode} (sized : NodeSized node)
    (initialized : ensureInitialized android results node = some next) :
    NodeSized next := by
  unfold ensureInitialized at initialized
  split at initialized
  · cases initialized
    exact sized
  · rename_i fresh
    split at initialized
    · cases initialized
      have unused := sized.unused (by simpa using fresh)
      rw [forall_planes] at unused
      obtain ⟨y, u, v, uv⟩ := unused
      refine ⟨?_, nofun⟩
      simp [PlaneSized, genPlane, genTexture, y, u, v, uv]
    · cases initialized

theorem NodeSized.upload {android : Bool} {gl : GlResults} (sized : NodeSized node) (initialized : node.glInitialized = true)
    (allocating : ∀ path ∈ nextUploadPath android node, Allocating gl node path) :
    NodeSized (uploadIfPending android gl node) := by
  refine ⟨planeSized_kept.uploadIfPending android gl allocating sized.planes, fun absent => ?_⟩
  rw [(uploadIfPending_same android gl node).initialized.trans initialized] at absent
  cases absent

theorem NodeSized.render {android : Bool} {gl : GlResults} (sized : NodeSized node)
    (allocating : ∀ next ∈ ensureInitialized android gl node, ∀ path ∈ nextUploadPath android next, Allocating gl next path) :
    NodeSized (Renderer.render android gl node).1 := by
  unfold Renderer.render
  split
  · exact sized
  · rename_i next initialized
    have ready := sized.initialize initialized
    exact ready.upload (ensureInitialized_initialized initialized) (allocating next initialized)

/-! The calls of an upload. -/

section exact
variable (sized : ∀ plane ∈ node.planes, PlaneSized plane)
include sized

theorem nv12Transfers_exact_iff (gl : GlResults) (number : Nat) (b : NV12Buffer) :
    (∀ t ∈ nv12Transfers gl number b node, t.Exact) ↔ (node.supportsPixelUnpackBuffer = true →
      EachFinds AllocatesReady node.unpackAlignment (pathPlanes gl node .nv12)) := by
  rw [forall_planes] at sized
  obtain ⟨y, _, _, uv⟩ := sized
  unfold nv12Transfers
  split
  · rename_i buffers
    simp only [List.forall_mem_append, y.asyncTransfers_exact_iff, uv.asyncTransfers_exact_iff]
    simp [buffers, pathPlanes, EachFinds]
  · rename_i absent
    simp [absent, y.tightTransfer_exact, uv.tightTransfer_exact]

theorem i420Transfers_exact_iff (gl : GlResults) (number : Nat) (b : I420Buffer) :
    (∀ t ∈ i420Transfers gl number b node, t.Exact) ↔ (node.supportsPixelUnpackBuffer = true →
      EachFinds AllocatesReady node.unpackAlignment (pathPlanes gl node .i420)) := by
  rw [forall_planes] at sized
  obtain ⟨y, u, v, _⟩ := sized
  unfold i420Transfers
  split
  · rename_i buffers
    simp only [List.forall_mem_append, y.asyncTransfers_exact_iff, u.asyncTransfers_exact_iff, v.asyncTransfers_exact_iff]
    simp [buffers, pathPlanes, EachFinds, and_assoc]
  · rename_i absent
    simp [absent, y.tightTransfer_exact, u.tightTransfer_exact, v.tightTransfer_exact]

/-- A frame without planes has nothing to allocate. -/
theorem frameTransfers_exact_iff (android : Bool) (gl : GlResults) (frame : QueuedFrame) :
    (∀ t ∈ frameTransfers gl node frame, t.Exact) ↔ ∀ path ∈ uploadPathOf android frame.buffer, Allocating gl node path := by
  obtain ⟨number, buffer⟩ := frame
  have nv12 (b : NV12Buffer) :
      (∀ t ∈ nv12Transfers gl number b (enterCpuPath .nv12 node), t.Exact) ↔ Allocating gl node .nv12 :=
    (nv12Transfers_exact_iff (planeSized_kept.enterCpuPath .nv12 sized) gl number b).trans
      (pathFinds_entered allocatesReady_of_idle gl node .nv12)
  have i420 (b : I420Buffer) :
      (∀ t ∈ i420Transfers gl number b (enterCpuPath .i420 node), t.Exact) ↔ Allocating gl node .i420 :=
    (i420Transfers_exact_iff (planeSized_kept.enterCpuPath .i420 sized) gl number b).trans
      (pathFinds_entered allocatesReady_of_idle gl node .i420)
  cases buffer with
  | oes textureId =>
    have external : Allocating gl node .oes := fun _ _ => trivial
    cases android <;> simp [frameTransfers, resolveI420ForUpload, uploadPathOf, external]
  | nv12 b => simpa [frameTransfers, uploadPathOf] using nv12 b
  | i420 b => simpa [frameTransfers, uploadPathOf, resolveI420ForUpload] using i420 b
  | other toI420 =>
    cases toI420 with
    | none => simp [frameTransfers, uploadPathOf, resolveI420ForUpload]
    | some b => simpa [frameTransfers, uploadPathOf, resolveI420ForUpload] using i420 b

end exact

theorem NodeSized.renderTransfers_exact_iff (sized : NodeSized node) (android : Bool) (gl : GlResults) :
    (∀ t ∈ renderTransfers android gl node, t.Exact) ↔
      ∀ next ∈ ensureInitialized android gl node, ∀ path ∈ nextUploadPath android next, Allocating gl next path := by
  unfold renderTransfers
  cases initialized : ensureInitialized android gl node with
  | none => simp
  | some next =>
    have ready := sized.initialize initialized
    by_cases pending : next.pendingUpload = true
    · cases holding : next.heldBuffer with
      | none => simp [nextUploadPath, pending, holding]
      | some frame =>
        simpa [nextUploadPath, pending, holding] using frameTransfers_exact_iff ready.planes android gl frame
    · simp [nextUploadPath, pending]

/-! Runs. -/

/-- What holds as long as nothing is deleted that has a cached size. -/
def StateSized (s : State) : Prop := ∀ node ∈ s.node, NodeSized node

variable {android : Bool} {s t : State} {e : RenderEvent} {out : List RenderAction}

theorem StateSized.agree (sized : StateSized s) : CachesAgree s := fun node there => (sized node there).planes

/-- The alignment that is found changes no size. -/
theorem StateSized.found (sized : StateSized s) (event : RenderEvent) : StateSized (s.found event) := by
  cases event with
  | render gl =>
    intro node there
    obtain ⟨before, had, rfl⟩ := Option.map_eq_some_iff.mp there
    exact (sized before had).congr rfl rfl
  | onFrame | updatePaintNode | releaseResources | setVideoTrack | clearVideoTrack => exact sized

theorem StateSized.transfersExact_iff (sized : StateSized s) (android : Bool) (e : RenderEvent) :
    TransfersExact android s e ↔ UploadsMeet android Allocating s e := by
  cases e with
  | render gl =>
    have found := sized.found (.render gl)
    cases there : (s.found (.render gl)).node with
    | none => simp [TransfersExact, transfers, UploadsMeet, there]
    | some node =>
      simpa [TransfersExact, transfers, UploadsMeet, there] using (found node there).renderTransfers_exact_iff android gl
  | onFrame | updatePaintNode | releaseResources | setVideoTrack | clearVideoTrack =>
    exact iff_of_true (fun _ member => absurd member List.not_mem_nil) trivial

theorem NodeSized.destroy (sized : NodeSized node) {context : Bool}
    (unused : node.glInitialized = true → context = true → ∀ plane ∈ node.planes, plane.cached = {}) :
    NodeSized (destroyGlResources context node) := by
  unfold destroyGlResources
  split
  · rename_i gone
    have blank := unused gone.1 gone.2
    rw [forall_planes] at blank
    obtain ⟨y, u, v, uv⟩ := blank
    refine ⟨?_, fun _ => ?_⟩
    · simp [PlaneSized, deletePlane, genTexture, y, u, v, uv]
    · simp [deletePlane, y, u, v, uv]
  · exact sized

/-- A texture that was deleted has no storage, so that its cached size is the right one only if it is 0 by 0. -/
theorem unused_of_destroy {context : Bool} (initialized : node.glInitialized = true) (current : context = true)
    (agree : ∀ plane ∈ (destroyGlResources context node).planes, PlaneSized plane) :
    ∀ plane ∈ node.planes, plane.cached = {} := by
  have blank (plane : Plane) (supported : Bool) (sized : PlaneSized (deletePlane supported plane)) :
      plane.cached = {} := by
    obtain ⟨width, height⟩ := sized
    exact (PlaneTexCache.mk.injEq ..).mpr ⟨width.symm, height.symm⟩
  unfold destroyGlResources at agree
  rw [if_pos ⟨initialized, current⟩, forall_planes] at agree
  obtain ⟨y, u, v, uv⟩ := agree
  rw [forall_planes]
  exact ⟨blank _ _ y, blank _ _ u, blank _ _ v, blank _ _ uv⟩

theorem StateSized.synced (sized : StateSized s) (openGl : Bool) : StateSized (updatePaintNode s openGl).1 := by
  intro next there
  cases openGl with
  | true =>
    cases there
    cases before : s.node with
    | none => exact NodeSized.new.sync s.item
    | some node => exact (sized node before).sync s.item
  | false => cases there

theorem StateSized.rendered {gl : GlResults} (sized : StateSized s) (allocating : UploadsMeet android Allocating s (.render gl)) :
    StateSized (renderNode android (s.found (.render gl)) gl).1 := by
  have found := sized.found (.render gl)
  unfold renderNode
  split
  · exact found
  · rename_i node before
    intro next there
    cases there
    refine (found node before).render fun ready initialized => allocating ready ?_
    rw [before]
    exact initialized

theorem StateSized.step (sized : StateSized s) (released : ReleasedUnused s e) (allocating : UploadsMeet android Allocating s e)
    (run : (shared android).step s e = some (t, out)) : StateSized t := by
  cases renderMove_of_step run with
  | syncs => exact sized.synced true
  | renders gl => exact sized.rendered allocating
  | releases context =>
    intro node there
    obtain ⟨before, had, rfl⟩ := Option.map_eq_some_iff.mp there
    exact (sized before had).destroy (released before had)
  | drops => exact sized.synced false
  | delivers | keeps | replaces | clears => exact sized

theorem releasedUnused_of_agree (run : (shared android).step s e = some (t, out)) (agree : CachesAgree t) :
    ReleasedUnused s e := by
  cases e with
  | releaseResources context =>
    cases run
    intro node there initialized current
    exact unused_of_destroy initialized current (agree _ (Option.map_eq_some_iff.mpr ⟨node, there, rfl⟩))
  | onFrame | updatePaintNode | render | setVideoTrack | clearVideoTrack => trivial

theorem releasedUnused_of_blocked (blocked : (shared android).step s e = none) : ReleasedUnused s e := by
  cases e with
  | releaseResources context => cases blocked
  | onFrame | updatePaintNode | render | setVideoTrack | clearVideoTrack => trivial

/-- In every run, whatever unpack alignments others leave, the cached sizes agree
with the storage in every state and every transfer finds storage of its size
exactly if textures are only deleted while no plane has a cached size, and no
allocation reads past the buffer that is bound. -/
theorem cachesAgree_iff (android : Bool) (events : List RenderEvent) :
    ((shared android).Along CachesAgree {} events ∧ (shared android).Meets (TransfersExact android) {} events) ↔
      (shared android).Meets (fun s e => ReleasedUnused s e ∧ UploadsMeet android Allocating s e) {} events := by
  have start : StateSized {} := fun node there => absurd there (Option.not_mem_none node)
  refine Machine.along_and_meets_iff (I := StateSized) (fun s sized => sized.agree) ?_ ?_ ?_ ?_ start events
  · intro s e t out sized admitted run
    exact sized.step admitted.1 admitted.2 run
  · intro s e sized admitted
    exact (sized.transfersExact_iff android e).mpr admitted.2
  · intro s e t out sized run agree exact
    exact ⟨releasedUnused_of_agree run agree, (sized.transfersExact_iff android e).mp exact⟩
  · intro s e sized blocked exact
    exact ⟨releasedUnused_of_blocked blocked, (sized.transfersExact_iff android e).mp exact⟩

/-- The context is lost after a frame of four by two pixels. The texture that
is made next has no storage, but its cached size is still the one of the frame,
so that a frame of the same size is transferred to nowhere. -/
theorem not_cachesAgree_released :
    ¬∀ android events, (shared android).Along CachesAgree {} events ∧
      (shared android).Meets (TransfersExact android) {} events := by
  intro all
  have run : (shared false).exec {} [.setVideoTrack (some 1), .onFrame (some (.nv12 (smallNv12 16))) 0 0,
    .updatePaintNode true, .render { fullGl with supportsPixelUnpackBuffer := false }, .releaseResources true] =
      some (_, _) := rfl
  have agree := (all false _).1.last run
  have wrong := (agree _ rfl _ List.mem_cons_self).1
  revert wrong
  decide

end WebRtcDemo.Renderer
