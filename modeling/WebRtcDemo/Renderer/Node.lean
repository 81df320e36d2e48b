import WebRtcDemo.Lib.CInt
import WebRtcDemo.Lib.Machine
import WebRtcDemo.Renderer.Planes

namespace WebRtcDemo.Renderer

open GlTexture

structure NV12Buffer where
  width : Nat
  height : Nat
  strideY : Nat
  strideUV : Nat
  dataY : Bytes
  dataUV : Bytes
  deriving DecidableEq, Repr

structure I420Buffer where
  width : Nat
  height : Nat
  strideY : Nat
  strideU : Nat
  strideV : Nat
  dataY : Bytes
  dataU : Bytes
  dataV : Bytes
  deriving DecidableEq, Repr

/-- The buffers that WebRTC delivers: an external texture, one with planes, or
one of another kind with what its `ToI420` returns. -/
inductive FrameBuffer
  | oes (textureId : Nat)
  | nv12 (b : NV12Buffer)
  | i420 (b : I420Buffer)
  | other (toI420 : Option I420Buffer)
  deriving DecidableEq, Repr

def NV12Buffer.chromaWidth (b : NV12Buffer) : Nat := (b.width + 1) / 2
def NV12Buffer.chromaHeight (b : NV12Buffer) : Nat := (b.height + 1) / 2

/-- An external texture has no `I420` form. NV12 buffers are handled before this is called. -/
def resolveI420ForUpload : FrameBuffer → Option I420Buffer
  | .i420 b => some b
  | .other toI420 => toI420
  | .oes _ => none
  | .nv12 _ => none

/-! The item: the sink of the track and the mailbox. -/

/-- A buffer with the number of its delivery. -/
structure QueuedFrame where
  number : Nat
  buffer : FrameBuffer
  deriving DecidableEq, Repr

structure GlQueueTrace where
  startMonoUs : Int := 0
  frameId : Int := -1
  fromTracking : Bool := false
  deriving DecidableEq, Repr

structure VideoRenderer where
  track : Option Nat := none
  hasVideo : Bool := false
  pendingBuffer : Option QueuedFrame := none
  pendingValid : Bool := false
  pendingTrace : GlQueueTrace := {}
  lastTakenTrace : GlQueueTrace := {}
  localPreviewSeq : Nat := 0
  deriving DecidableEq, Repr

/-- The buffer that `OnFrame` hands on; `none` where it returns early. -/
def pendingOf : Option FrameBuffer → Option FrameBuffer
  | none => none
  | some (.oes id) => some (.oes id)
  | some (.nv12 b) => some (.nv12 b)
  | some (.i420 b) => some (.i420 b)
  | some (.other toI420) =>
    match toI420 with
    | none => none
    | some b => if b.width = 0 ∨ b.height = 0 then none else some (.i420 b)

/-- `rawId` is `frame.id()`, with 0 for `kNotSetId`. -/
def onFrame (item : VideoRenderer) (number : Nat) (buffer : Option FrameBuffer) (rawId : UInt16) (nowUs : Int) :
    VideoRenderer :=
  match pendingOf buffer with
  | none => item
  | some pending =>
    let fromTracking := rawId != 0
    let seq := if fromTracking then item.localPreviewSeq else (item.localPreviewSeq + 1) % 2 ^ 32
    let displayId : Int := if fromTracking then rawId.toNat else CInt.wrap seq
    { item with
      localPreviewSeq := seq
      pendingBuffer := some ⟨number, pending⟩
      pendingValid := true
      pendingTrace := ⟨nowUs, displayId, fromTracking⟩
      hasVideo := true }

def takeFrame (item : VideoRenderer) : VideoRenderer × Option QueuedFrame :=
  if item.pendingValid then
    match item.pendingBuffer with
    | none => (item, none)
    | some frame =>
      ({ item with lastTakenTrace := item.pendingTrace, pendingBuffer := none, pendingValid := false }, some frame)
  else (item, none)

def clearVideoTrack (item : VideoRenderer) : VideoRenderer :=
  { item with
    track := none
    pendingBuffer := none
    pendingValid := false
    localPreviewSeq := 0
    pendingTrace := {}
    lastTakenTrace := {}
    hasVideo := false }

/-! The render node. -/

inductive UploadPathKind
  | none
  | oes
  | nv12
  | i420
  deriving DecidableEq, Repr

/-- `unpackAlignment` is the `GL_UNPACK_ALIGNMENT` of the context, which is not
a member of the class; GL starts with 4. -/
structure RenderNode where
  glInitialized : Bool := false
  unpackAlignment : Nat := 4
  supportsUnpackRowLength : Bool := false
  supportsPixelUnpackBuffer : Bool := false
  frameIsNv12 : Bool := false
  frameIsOes : Bool := false
  lastUploadPath : UploadPathKind := .none
  oesProgramLinked : Bool := false
  oesTextureId : Nat := 0
  heldBuffer : Option QueuedFrame := none
  pendingUpload : Bool := false
  planeY : Plane := {}
  planeU : Plane := {}
  planeV : Plane := {}
  planeUV : Plane := {}
  hasData : Bool := false
  uploadStatsValidForLastFrame : Bool := false
  glQueueTrace : GlQueueTrace := {}
  haveGlFrameTrace : Bool := false

/-- What the GL calls of one `render` find: a current context, with the unpack
alignment that it has then, what it can do, and whether the staging of each
plane succeeds. -/
structure GlResults where
  context : Bool
  unpackAlignment : Nat
  supportsUnpackRowLength : Bool
  supportsPixelUnpackBuffer : Bool
  oesProgramLinked : Bool
  y : StageOutcome
  u : StageOutcome
  v : StageOutcome
  uv : StageOutcome
  deriving DecidableEq, Repr

/-- What can be observed. `drew` lists the plane textures that the program
sampled. -/
inductive RenderAction
  | delivered (number : Nat)
  | cleared
  | synced
  | drew (textures : List (Texture Nat))
  | drewOes (textureId : Nat)
  | sampledTiming (frameId startMonoUs : Int)

def sync (item : VideoRenderer) (node : RenderNode) : VideoRenderer × RenderNode :=
  match takeFrame item with
  | (item, none) =>
    let node := if item.hasVideo then node
      else { node with hasData := false, heldBuffer := none, pendingUpload := false }
    (item, { node with uploadStatsValidForLastFrame := false, haveGlFrameTrace := false })
  | (item, some frame) =>
    (item, { node with
      heldBuffer := some frame, pendingUpload := true, glQueueTrace := item.lastTakenTrace, haveGlFrameTrace := true })

/-- New names for the texture and, where they are used, for the buffers. -/
def genPlane (supportsPixelUnpackBuffer : Bool) (plane : Plane) : Plane :=
  { plane with
    tex := genTexture
    pbo := if supportsPixelUnpackBuffer then { plane.pbo with ids := true } else plane.pbo }

/-- `none` where it returns false. The OES program is only there on Android. -/
def ensureInitialized (android : Bool) (gl : GlResults) (node : RenderNode) : Option RenderNode :=
  if node.glInitialized then some node
  else if gl.context then
    some { node with
      unpackAlignment := gl.unpackAlignment
      supportsUnpackRowLength := gl.supportsUnpackRowLength
      supportsPixelUnpackBuffer := gl.supportsPixelUnpackBuffer
      planeY := genPlane gl.supportsPixelUnpackBuffer node.planeY
      planeU := genPlane gl.supportsPixelUnpackBuffer node.planeU
      planeV := genPlane gl.supportsPixelUnpackBuffer node.planeV
      planeUV := genPlane gl.supportsPixelUnpackBuffer node.planeUV
      oesProgramLinked := android && gl.oesProgramLinked
      glInitialized := true }
  else none

def deletePlane (supportsPixelUnpackBuffer : Bool) (plane : Plane) : Plane :=
  { plane with tex := genTexture, pbo := if supportsPixelUnpackBuffer then {} else plane.pbo }

def destroyGlResources (context : Bool) (node : RenderNode) : RenderNode :=
  if node.glInitialized ∧ context then
    { node with
      planeY := deletePlane node.supportsPixelUnpackBuffer node.planeY
      planeU := deletePlane node.supportsPixelUnpackBuffer node.planeU
      planeV := deletePlane node.supportsPixelUnpackBuffer node.planeV
      planeUV := deletePlane node.supportsPixelUnpackBuffer node.planeUV
      oesTextureId := 0
      oesProgramLinked := false
      glInitialized := false }
  else node

def resetPlane (plane : Plane) : Plane := { plane with pbo := resetPlaneUploadPbo plane.pbo }

def resetCpuUploadPipeline (node : RenderNode) : RenderNode :=
  { node with
    planeY := resetPlane node.planeY
    planeU := resetPlane node.planeU
    planeV := resetPlane node.planeV
    planeUV := resetPlane node.planeUV }

/-- The change to one of the paths with planes. -/
def enterCpuPath (path : UploadPathKind) (node : RenderNode) : RenderNode :=
  if node.lastUploadPath = path then node
  else { resetCpuUploadPipeline node with lastUploadPath := path, hasData := false }

/-- The change to the external texture, which leaves `m_hasData`. -/
def enterOesPath (node : RenderNode) : RenderNode :=
  if node.lastUploadPath = .oes then node else { resetCpuUploadPipeline node with lastUploadPath := .oes }

def uploadOes (textureId : Nat) (node : RenderNode) : RenderNode :=
  let node := enterOesPath node
  if node.oesProgramLinked then
    { node with
      frameIsOes := true
      oesTextureId := textureId
      uploadStatsValidForLastFrame := true
      hasData := true
      heldBuffer := none }
  else { node with frameIsOes := false, uploadStatsValidForLastFrame := false, hasData := false, heldBuffer := none }

def nv12PlaneY (number : Nat) (b : NV12Buffer) : PlaneSource := ⟨b.width, b.height, 1, ⟨number, b.dataY⟩, b.strideY⟩

def nv12PlaneUV (number : Nat) (b : NV12Buffer) : PlaneSource :=
  ⟨b.chromaWidth, b.chromaHeight, 2, ⟨number, b.dataUV⟩, b.strideUV⟩

/-- The planes as they are uploaded without buffers. -/
def nv12TightY (supportsUnpackRowLength : Bool) (number : Nat) (b : NV12Buffer) : PlaneSource :=
  { nv12PlaneY number b with
    data := prepareTightPlaneIfNeeded ⟨number, b.dataY⟩ b.strideY b.width b.height supportsUnpackRowLength
    strideBytes := if supportsUnpackRowLength then b.strideY else b.width }

def nv12TightUV (supportsUnpackRowLength : Bool) (number : Nat) (b : NV12Buffer) : PlaneSource :=
  let uvRowBytes := b.chromaWidth * 2
  { nv12PlaneUV number b with
    data := ⟨number, if supportsUnpackRowLength = false ∧ b.strideUV ≠ uvRowBytes
      then tightRows b.dataUV b.strideUV uvRowBytes b.chromaHeight else b.dataUV⟩
    strideBytes := if supportsUnpackRowLength then b.strideUV else uvRowBytes }

/-- The two planes of a frame; returns whether both textures were uploaded. -/
def uploadNv12Planes (gl : GlResults) (number : Nat) (b : NV12Buffer) (node : RenderNode) : RenderNode × Bool :=
  let rowLength := node.supportsUnpackRowLength
  if node.supportsPixelUnpackBuffer then
    let alignment := node.unpackAlignment
    let (planeY, yUploaded) := uploadPlaneViaPboAsync rowLength alignment gl.y (nv12PlaneY number b) node.planeY
    let alignment := alignmentAfter gl.y node.planeY alignment
    let (planeUV, uvUploaded) := uploadPlaneViaPboAsync rowLength alignment gl.uv (nv12PlaneUV number b) node.planeUV
    let alignment := alignmentAfter gl.uv node.planeUV alignment
    ({ node with planeY := planeY, planeUV := planeUV, unpackAlignment := alignment }, yUploaded && uvUploaded)
  else
    ({ node with
      planeY := uploadPlaneTight rowLength (nv12TightY rowLength number b) node.planeY
      planeUV := uploadPlaneTight rowLength (nv12TightUV rowLength number b) node.planeUV
      unpackAlignment := 1 }, true)

def uploadNv12 (gl : GlResults) (number : Nat) (b : NV12Buffer) (node : RenderNode) : RenderNode :=
  let (node, uploaded) := uploadNv12Planes gl number b (enterCpuPath .nv12 node)
  { node with
    uploadStatsValidForLastFrame := uploaded
    hasData := node.hasData || uploaded
    frameIsNv12 := node.hasData || uploaded
    heldBuffer := none }

def i420PlaneY (number : Nat) (b : I420Buffer) : PlaneSource := ⟨b.width, b.height, 1, ⟨number, b.dataY⟩, b.strideY⟩

def i420PlaneU (number : Nat) (b : I420Buffer) : PlaneSource :=
  ⟨b.width / 2, b.height / 2, 1, ⟨number, b.dataU⟩, b.strideU⟩

def i420PlaneV (number : Nat) (b : I420Buffer) : PlaneSource :=
  ⟨b.width / 2, b.height / 2, 1, ⟨number, b.dataV⟩, b.strideV⟩

/-- A plane as it is uploaded without buffers. The stride is passed on as it is. -/
def i420Tight (supportsUnpackRowLength : Bool) (p : PlaneSource) : PlaneSource :=
  { p with data := prepareTightPlaneIfNeeded p.data p.strideBytes p.width p.height supportsUnpackRowLength }

def uploadI420Planes (gl : GlResults) (number : Nat) (b : I420Buffer) (node : RenderNode) : RenderNode × Bool :=
  let rowLength := node.supportsUnpackRowLength
  if node.supportsPixelUnpackBuffer then
    let alignment := node.unpackAlignment
    let (planeY, yUploaded) := uploadPlaneViaPboAsync rowLength alignment gl.y (i420PlaneY number b) node.planeY
    let alignment := alignmentAfter gl.y node.planeY alignment
    let (planeU, uUploaded) := uploadPlaneViaPboAsync rowLength alignment gl.u (i420PlaneU number b) node.planeU
    let alignment := alignmentAfter gl.u node.planeU alignment
    let (planeV, vUploaded) := uploadPlaneViaPboAsync rowLength alignment gl.v (i420PlaneV number b) node.planeV
    let alignment := alignmentAfter gl.v node.planeV alignment
    ({ node with planeY := planeY, planeU := planeU, planeV := planeV, unpackAlignment := alignment },
      yUploaded && uUploaded && vUploaded)
  else
    ({ node with
      planeY := uploadPlaneTight rowLength (i420Tight rowLength (i420PlaneY number b)) node.planeY
      planeU := uploadPlaneTight rowLength (i420Tight rowLength (i420PlaneU number b)) node.planeU
      planeV := uploadPlaneTight rowLength (i420Tight rowLength (i420PlaneV number b)) node.planeV
      unpackAlignment := 1 }, true)

def uploadI420 (gl : GlResults) (frame : QueuedFrame) (node : RenderNode) : RenderNode :=
  let node := enterCpuPath .i420 node
  match resolveI420ForUpload frame.buffer with
  | none => { node with uploadStatsValidForLastFrame := false, hasData := false, heldBuffer := none }
  | some b =>
    let (node, uploaded) := uploadI420Planes gl frame.number b node
    { node with
      uploadStatsValidForLastFrame := uploaded, hasData := node.hasData || uploaded, heldBuffer := none }

/-- The held frame. The external texture has a branch of its own on Android only. -/
def uploadHeldFrame (android : Bool) (gl : GlResults) (frame : QueuedFrame) (node : RenderNode) : RenderNode :=
  match android, frame.buffer with
  | true, .oes textureId => uploadOes textureId node
  | _, .nv12 b => uploadNv12 gl frame.number b { node with frameIsOes := false, frameIsNv12 := false }
  | _, _ => uploadI420 gl frame { node with frameIsOes := false, frameIsNv12 := false }

def uploadPendingFrame (android : Bool) (gl : GlResults) (node : RenderNode) : RenderNode :=
  match node.heldBuffer with
  | none => { node with pendingUpload := false, uploadStatsValidForLastFrame := false, hasData := false }
  | some frame => uploadHeldFrame android gl frame { node with pendingUpload := false }

/-- The plane textures of the active program. -/
def sampledTextures (node : RenderNode) : List (Texture Nat) :=
  if node.frameIsNv12 then [node.planeY.tex, node.planeUV.tex]
  else [node.planeY.tex, node.planeU.tex, node.planeV.tex]

def shouldLogTrackingTimedSampleById (id : Nat) : Bool := id % 120 = 0

/-- The timing line of the frame whose trace is held. -/
def sampledTimings (node : RenderNode) : List RenderAction :=
  if node.uploadStatsValidForLastFrame ∧ node.haveGlFrameTrace ∧ node.glQueueTrace.fromTracking ∧
      shouldLogTrackingTimedSampleById node.glQueueTrace.frameId.toNat then
    [.sampledTiming node.glQueueTrace.frameId node.glQueueTrace.startMonoUs]
  else []

def draw (node : RenderNode) : RenderAction :=
  if node.frameIsOes ∧ node.oesProgramLinked then .drewOes node.oesTextureId else .drew (sampledTextures node)

/-- The upload at the start of `render`, if one is due. -/
def uploadIfPending (android : Bool) (gl : GlResults) (node : RenderNode) : RenderNode :=
  if node.pendingUpload then uploadPendingFrame android gl node else node

def render (android : Bool) (gl : GlResults) (node : RenderNode) : RenderNode × List RenderAction :=
  match ensureInitialized android gl node with
  | none => (node, [])
  | some node =>
    let node := uploadIfPending android gl node
    (node, if node.hasData then draw node :: sampledTimings node else [])

/-! The item and its node together. -/

/-- The path that the frame's planes or texture take; `none` when nothing of
it can be uploaded. -/
def uploadPathOf (android : Bool) : FrameBuffer → Option UploadPathKind
  | .oes _ => if android then some .oes else none
  | .nv12 _ => some .nv12
  | buffer => (resolveI420ForUpload buffer).map fun _ => .i420

/-- The path of the upload that `render` is going to make. -/
def nextUploadPath (android : Bool) (node : RenderNode) : Option UploadPathKind :=
  if node.pendingUpload then node.heldBuffer.bind fun frame => uploadPathOf android frame.buffer else none

/-- Whether `render` is going to upload the planes or the texture of a frame. -/
def uploadsFrame (android : Bool) (gl : GlResults) (node : RenderNode) : Bool :=
  match ensureInitialized android gl node with
  | none => false
  | some node => (nextUploadPath android node).isSome

/-- `delivered` counts the calls of `OnFrame`. The last two fields are history:
a clear that no sync has seen yet, and one that a sync has seen but no upload
came after. -/
structure State where
  item : VideoRenderer := {}
  node : Option RenderNode := none
  delivered : Nat := 0
  clearUnseen : Bool := false
  awaitsUpload : Bool := false

/-- `updatePaintNode` without a window, or without OpenGL, deletes the node. -/
inductive RenderEvent
  | onFrame (buffer : Option FrameBuffer) (rawId : UInt16) (nowUs : Int)
  | updatePaintNode (openGl : Bool)
  | render (gl : GlResults)
  | releaseResources (context : Bool)
  | setVideoTrack (track : Option Nat)
  | clearVideoTrack

def updatePaintNode (s : State) (openGl : Bool) : State × List RenderAction :=
  if openGl then
    let (item, node) := sync s.item (s.node.getD {})
    ({ s with
      item := item
      node := some node
      clearUnseen := false
      awaitsUpload := s.awaitsUpload || s.clearUnseen }, [.synced])
  else ({ s with node := none }, [])

def clearTrack (s : State) : State := { s with item := clearVideoTrack s.item, clearUnseen := true }

def setVideoTrack (s : State) (track : Option Nat) : State × List RenderAction :=
  if s.item.track = track then (s, [])
  else
    let s := clearTrack s
    ({ s with item := { s.item with track := track } }, [.cleared])

/-- The upload, if there is one, ends the wait. -/
def renderNode (android : Bool) (s : State) (gl : GlResults) : State × List RenderAction :=
  match s.node with
  | none => (s, [])
  | some node =>
    let (next, out) := render android gl node
    ({ s with node := some next, awaitsUpload := s.awaitsUpload && !uploadsFrame android gl node }, out)

/-- A frame is only delivered while a track is attached. -/
def step (android : Bool) (s : State) : RenderEvent → Option (State × List RenderAction)
  | .onFrame buffer rawId nowUs =>
    if s.item.track.isSome then
      some ({ s with item := onFrame s.item s.delivered buffer rawId nowUs, delivered := s.delivered + 1 },
        [.delivered s.delivered])
    else none
  | .updatePaintNode openGl => some (updatePaintNode s openGl)
  | .render gl => some (renderNode android s gl)
  | .releaseResources context => some ({ s with node := s.node.map (destroyGlResources context) }, [])
  | .setVideoTrack track => some (setVideoTrack s track)
  | .clearVideoTrack => some (clearTrack s, [.cleared])

/-- The renderer as it is compiled for Android or for the desktop, alone in its
context: no other code sets the unpack alignment once the node is initialized. -/
def renderer (android : Bool) : Machine State RenderEvent RenderAction := ⟨{}, step android⟩

/-- Others use the context between the renders, so that each finds an unpack
alignment of theirs. -/
def State.found (s : State) : RenderEvent → State
  | .render gl => { s with node := s.node.map fun node => { node with unpackAlignment := gl.unpackAlignment } }
  | _ => s

/-- The renderer in a context that it shares with others. -/
def shared (android : Bool) : Machine State RenderEvent RenderAction := ⟨{}, fun s e => step android (s.found e) e⟩

theorem found_rest (s : State) (event : RenderEvent) :
    (s.found event).item = s.item ∧ (s.found event).delivered = s.delivered := by
  cases event <;> exact ⟨rfl, rfl⟩

/-- What a node keeps at every alignment, the node that is found has. -/
theorem found_node {P : RenderNode → Prop} {s : State} (event : RenderEvent) (holds : P (s.node.getD {}))
    (keeps : ∀ alignment node, P node → P { node with unpackAlignment := alignment }) :
    P ((s.found event).node.getD {}) := by
  cases event with
  | render gl =>
    cases there : s.node with
    | none =>
      rw [there] at holds
      simp only [State.found, there, Option.map_none]
      exact holds
    | some node =>
      rw [there] at holds
      simp only [State.found, there, Option.map_some, Option.getD_some]
      exact keeps gl.unpackAlignment node holds
  | onFrame | updatePaintNode | releaseResources | setVideoTrack | clearVideoTrack => exact holds

/-- Everything a step of the renderer can be. -/
inductive RenderMove (android : Bool) (s : State) : RenderEvent → State → List RenderAction → Prop
  | delivers (buffer rawId nowUs) (attached : s.item.track.isSome) :
    RenderMove android s (.onFrame buffer rawId nowUs)
      { s with item := onFrame s.item s.delivered buffer rawId nowUs, delivered := s.delivered + 1 }
      [.delivered s.delivered]
  | syncs : RenderMove android s (.updatePaintNode true) (updatePaintNode s true).1 [.synced]
  | drops : RenderMove android s (.updatePaintNode false) { s with node := none } []
  | renders (gl) : RenderMove android s (.render gl) (renderNode android s gl).1 (renderNode android s gl).2
  | releases (context) :
    RenderMove android s (.releaseResources context) { s with node := s.node.map (destroyGlResources context) } []
  | keeps (track) (same : s.item.track = track) : RenderMove android s (.setVideoTrack track) s []
  | replaces (track) (other : s.item.track ≠ track) :
    RenderMove android s (.setVideoTrack track)
      { clearTrack s with item := { (clearTrack s).item with track := track } } [.cleared]
  | clears : RenderMove android s .clearVideoTrack (clearTrack s) [.cleared]

theorem renderMove_of_step {android : Bool} {s t : State} {e : RenderEvent} {out : List RenderAction}
    (run : step android s e = some (t, out)) : RenderMove android s e t out := by
  cases e with
  | onFrame buffer rawId nowUs =>
    simp only [step] at run
    split at run
    · rename_i attached
      cases run
      exact .delivers buffer rawId nowUs attached
    · cases run
  | updatePaintNode openGl =>
    cases openGl with
    | true =>
      cases run
      exact .syncs
    | false =>
      cases run
      exact .drops
  | render gl =>
    have made : renderNode android s gl = (t, out) := Option.some.inj run
    have move : RenderMove android s (.render gl) (renderNode android s gl).1 (renderNode android s gl).2 := .renders gl
    rw [made] at move
    exact move
  | releaseResources context =>
    cases run
    exact .releases context
  | setVideoTrack track =>
    simp only [step, setVideoTrack] at run
    split at run
    · rename_i same
      cases run
      exact .keeps track same
    · rename_i other
      cases run
      exact .replaces track other
  | clearVideoTrack =>
    cases run
    exact .clears

end WebRtcDemo.Renderer
