import WebRtcDemo.Lib.GlObjects
import WebRtcDemo.Renderer.Pictures

/-! The GL calls of the render node, with the names it was given, next to what
`Renderer.Node` says of its textures and buffers. -/

namespace WebRtcDemo.Renderer

open GlObjects

abbrev Call := GlObjects.Call Nat
abbrev Pixels := GlObjects.Pixels Nat

/-- `m_tex*` and the `ids` of `m_pbo*`. -/
structure PlaneNames where
  tex : Nat := 0
  ids : Fin 2 → Nat := fun _ => 0

structure NodeNames where
  y : PlaneNames := {}
  u : PlaneNames := {}
  v : PlaneNames := {}
  uv : PlaneNames := {}

def PlaneNames.buffers (names : PlaneNames) : List Nat := [names.ids 0, names.ids 1]

def NodeNames.textures (names : NodeNames) : List Nat := [names.y.tex, names.u.tex, names.v.tex, names.uv.tex]

def NodeNames.buffers (names : NodeNames) : List Nat :=
  names.y.buffers ++ names.u.buffers ++ names.v.buffers ++ names.uv.buffers

def allocateCalls (plane : Plane) (w h bytesPerPixel : Nat) : List Call :=
  if plane.cached.w = w ∧ plane.cached.h = h then [] else [.texImage2D w h bytesPerPixel]

/-- The transfer, with the pixel store parameters around it. -/
def transferCalls (rowLength : Bool) (w h bytesPerPixel strideBytes : Nat) (pixels : Pixels) : List Call :=
  .unpackAlignment 1 :: (if rowLength then [.unpackRowLength (strideBytes / bytesPerPixel)] else []) ++
    .texSubImage2D w h bytesPerPixel pixels :: if rowLength then [.unpackRowLength 0] else []

/-- `UploadPlaneTight` -/
def tightCalls (rowLength : Bool) (names : PlaneNames) (p : PlaneSource) (plane : Plane) : List Call :=
  .bindTexture names.tex :: allocateCalls plane p.width p.height p.bytesPerPixel ++
    transferCalls rowLength p.width p.height p.bytesPerPixel p.strideBytes (.client p.data)

/-- The buffer is bound before the storage is allocated. -/
def bufferCalls (rowLength : Bool) (names : PlaneNames) (plane : Plane) (index : Fin 2) : List Call :=
  let pbo := plane.pbo
  [.bindUnpackBuffer (names.ids index), .bindTexture names.tex] ++
    allocateCalls plane pbo.readyW pbo.readyH pbo.readyBytesPerPixel ++
    transferCalls rowLength pbo.readyW pbo.readyH pbo.readyBytesPerPixel pbo.readyStrideBytes .offset ++
    [.bindUnpackBuffer 0]

/-- `UploadPlaneFromReadyPbo` -/
def readyCalls (rowLength : Bool) (names : PlaneNames) (plane : Plane) : List Call :=
  (readyBuffer plane.pbo).elim [] (bufferCalls rowLength names plane)

/-- `StagePlaneIntoPbo` -/
def stageCalls (rowLength : Bool) (gl : StageOutcome) (names : PlaneNames) (p : PlaneSource) (pbo : PlaneUploadPbo) :
    List Call :=
  if pbo.ids then
    let bytes := uploadBytes rowLength p
    [.bindUnpackBuffer (names.ids pbo.nextStageIndex), .bufferData bytes, .mapBufferRange bytes gl.mapped] ++
      (if gl.mapped then
        [.write bytes ⟨p.data.tag, copyPlaneForUpload p rowLength⟩, .unmapBuffer gl.unmapped] ++ if gl.unmapped && rowLength then [.unpackRowLength 0] else []
      else []) ++
      [.bindUnpackBuffer 0]
  else []

/-- `UploadPlaneViaPboAsync` -/
def asyncCalls (rowLength : Bool) (unpackAlignment : Nat) (gl : StageOutcome) (names : PlaneNames) (p : PlaneSource)
    (plane : Plane) : List Call :=
  if plane.pbo.ids then
    let (next, _) := uploadPlaneFromReadyPbo rowLength unpackAlignment plane
    let (pbo, staged) := stagePlaneIntoPbo rowLength gl p next.pbo
    readyCalls rowLength names plane ++ stageCalls rowLength gl names p next.pbo ++
      if staged then [] else tightCalls rowLength names p { next with pbo := resetPlaneUploadPbo pbo }
  else tightCalls rowLength names p plane

def nv12Calls (gl : GlResults) (names : NodeNames) (number : Nat) (b : NV12Buffer) (node : RenderNode) : List Call :=
  let rowLength := node.supportsUnpackRowLength
  if node.supportsPixelUnpackBuffer then
    let alignmentUV := alignmentAfter gl.y node.planeY node.unpackAlignment
    asyncCalls rowLength node.unpackAlignment gl.y names.y (nv12PlaneY number b) node.planeY ++
      asyncCalls rowLength alignmentUV gl.uv names.uv (nv12PlaneUV number b) node.planeUV
  else
    tightCalls rowLength names.y (nv12TightY rowLength number b) node.planeY ++
      tightCalls rowLength names.uv (nv12TightUV rowLength number b) node.planeUV

def i420Calls (gl : GlResults) (names : NodeNames) (number : Nat) (b : I420Buffer) (node : RenderNode) : List Call :=
  let rowLength := node.supportsUnpackRowLength
  if node.supportsPixelUnpackBuffer then
    let alignmentU := alignmentAfter gl.y node.planeY node.unpackAlignment
    let alignmentV := alignmentAfter gl.u node.planeU alignmentU
    asyncCalls rowLength node.unpackAlignment gl.y names.y (i420PlaneY number b) node.planeY ++
      asyncCalls rowLength alignmentU gl.u names.u (i420PlaneU number b) node.planeU ++
      asyncCalls rowLength alignmentV gl.v names.v (i420PlaneV number b) node.planeV
  else
    tightCalls rowLength names.y (i420Tight rowLength (i420PlaneY number b)) node.planeY ++
      tightCalls rowLength names.u (i420Tight rowLength (i420PlaneU number b)) node.planeU ++
      tightCalls rowLength names.v (i420Tight rowLength (i420PlaneV number b)) node.planeV

/-- The external texture is not a name of the node. -/
def frameCalls (android : Bool) (gl : GlResults) (names : NodeNames) (frame : QueuedFrame) (node : RenderNode) : List Call :=
  match android, frame.buffer with
  | true, .oes _ => []
  | _, .nv12 b => nv12Calls gl names frame.number b (enterCpuPath .nv12 node)
  | _, buffer =>
    (resolveI420ForUpload buffer).toList.flatMap fun b => i420Calls gl names frame.number b (enterCpuPath .i420 node)

/-- The calls of `uploadPendingFrame`, if there is something to upload. -/
def uploadCalls (android : Bool) (gl : GlResults) (names : NodeNames) (node : RenderNode) : List Call :=
  if node.pendingUpload then node.heldBuffer.toList.flatMap fun frame => frameCalls android gl names frame node else []

/-- `initTextures` and `initUploadPbos` -/
def initCalls (supportsPixelUnpackBuffer : Bool) (names : NodeNames) : List Call :=
  [.genTextures [names.y.tex, names.u.tex, names.v.tex], .genTextures [names.uv.tex], .bindTexture names.y.tex,
    .bindTexture names.u.tex, .bindTexture names.v.tex, .bindTexture names.uv.tex] ++
    if supportsPixelUnpackBuffer then
      [.genBuffers names.y.buffers, .genBuffers names.u.buffers, .genBuffers names.v.buffers, .genBuffers names.uv.buffers]
    else []

def destroyCalls (context : Bool) (names : NodeNames) (node : RenderNode) : List Call :=
  if node.glInitialized && context then
    [.deleteTextures [names.y.tex], .deleteTextures [names.u.tex], .deleteTextures [names.v.tex],
      .deleteTextures [names.uv.tex]] ++
      if node.supportsPixelUnpackBuffer then
        [.deleteBuffers names.y.buffers, .deleteBuffers names.u.buffers, .deleteBuffers names.v.buffers,
          .deleteBuffers names.uv.buffers]
      else []
  else []

def drawCalls (names : NodeNames) (node : RenderNode) : List Call :=
  if node.frameIsOes && node.oesProgramLinked then [.draw []]
  else
    let planes := if node.frameIsNv12 then [names.y.tex, names.uv.tex] else [names.y.tex, names.u.tex, names.v.tex]
    planes.map .bindTexture ++ [.draw planes]

/-- The calls of `render`, from the names that it leaves. -/
def renderCalls (android : Bool) (gl : GlResults) (names : NodeNames) (node : RenderNode) : List Call :=
  match ensureInitialized android gl node with
  | none => []
  | some ready =>
    let done := uploadIfPending android gl ready
    (if node.glInitialized then [] else initCalls ready.supportsPixelUnpackBuffer names) ++
      uploadCalls android gl names ready ++ if done.hasData then drawCalls names done else []

/-- The renderer, the names of its node and the context. -/
structure Surface where
  renderer : State := {}
  names : NodeNames := {}
  gl : Gl := {}
  contents : Contents Nat := {}

/-- An event, with the names that GL gives if it is asked for some, and whether
there is a context if the node is deleted. -/
structure SurfaceEvent where
  event : RenderEvent
  names : NodeNames
  context : Bool

/-- Buffer names are only made where buffers are used. -/
def PlaneNames.given (supportsPixelUnpackBuffer : Bool) (names : PlaneNames) : PlaneNames :=
  { names with ids := if supportsPixelUnpackBuffer then names.ids else fun _ => 0 }

def NodeNames.given (supportsPixelUnpackBuffer : Bool) (names : NodeNames) : NodeNames where
  y := names.y.given supportsPixelUnpackBuffer
  u := names.u.given supportsPixelUnpackBuffer
  v := names.v.given supportsPixelUnpackBuffer
  uv := names.uv.given supportsPixelUnpackBuffer

/-- The names that the node has after the event. -/
def namesAfter (s : Surface) (e : SurfaceEvent) (node : RenderNode) : NodeNames :=
  match e.event with
  | .render gl => if !node.glInitialized && gl.context then e.names.given gl.supportsPixelUnpackBuffer else s.names
  | .releaseResources context => if node.glInitialized && context then {} else s.names
  | .updatePaintNode false => {}
  | _ => s.names

/-- The calls of the node; its destructor releases what it has. -/
def nodeCalls (android : Bool) (names : NodeNames) (context : Bool) (node : RenderNode) : RenderEvent → List Call
  | .render gl => renderCalls android gl names node
  | .releaseResources context => destroyCalls context names node
  | .updatePaintNode false => destroyCalls context names node
  | _ => []

/-- The calls of a `render` use the names that it makes, others those there were. -/
def surfaceCalls (android : Bool) (s : Surface) (e : SurfaceEvent) (node : RenderNode) : List Call :=
  let names := match e.event with
    | .render _ => namesAfter s e node
    | _ => s.names
  nodeCalls android names e.context node e.event

/-- What others did before the event. -/
def foundCalls : RenderEvent → List Call
  | .render gl => [.unpackAlignment gl.unpackAlignment]
  | _ => []

def surfaceStep (android : Bool) (s : Surface) (e : SurfaceEvent) : Option (Surface × List Call) :=
  let found := s.renderer.found e.event
  (step android found e.event).map fun (renderer, _) =>
    let calls := foundCalls e.event ++ found.node.elim [] (surfaceCalls android s e)
    ({ renderer := renderer
       names := found.node.elim s.names (namesAfter s e)
       gl := s.gl.afterAll calls
       contents := s.contents.afterAll s.gl calls }, calls)

def surface (android : Bool) : Machine Surface SurfaceEvent Call := ⟨{}, surfaceStep android⟩

/-! The transfers among the calls are those of the node's textures. -/

def transferOf : Call → Option (Nat × Nat × Nat)
  | .texSubImage2D w h bytesPerPixel _ => some (w, h, bytesPerPixel)
  | _ => none

def sizeOf (t : Transfer) : Nat × Nat × Nat := (t.w, t.h, t.bytesPerPixel)

theorem tightCalls_transfers (rowLength : Bool) (names : PlaneNames) (p : PlaneSource) (plane : Plane) :
    (tightCalls rowLength names p plane).filterMap transferOf = [tightTransfer rowLength p plane].map sizeOf := by
  unfold tightCalls allocateCalls transferCalls
  cases rowLength <;> split <;> rfl

theorem readyCalls_transfers (rowLength : Bool) (alignment : Nat) (names : PlaneNames) (plane : Plane) :
    (readyCalls rowLength names plane).filterMap transferOf =
      ((readyBuffer plane.pbo).toList.map (readyTransfer rowLength alignment plane)).map sizeOf := by
  unfold readyCalls
  cases readyBuffer plane.pbo with
  | none => rfl
  | some index =>
    simp only [Option.elim_some, bufferCalls, allocateCalls, transferCalls]
    split <;> cases rowLength <;> rfl

theorem stageCalls_transfers (rowLength : Bool) (gl : StageOutcome) (names : PlaneNames) (p : PlaneSource) (pbo : PlaneUploadPbo) :
    (stageCalls rowLength gl names p pbo).filterMap transferOf = [] := by
  obtain ⟨mapped, intact⟩ := gl
  unfold stageCalls
  split
  · cases mapped <;> cases intact <;> cases rowLength <;> rfl
  · rfl

theorem asyncCalls_transfers (rowLength : Bool) (alignment : Nat) (gl : StageOutcome) (names : PlaneNames) (p : PlaneSource)
    (plane : Plane) :
    (asyncCalls rowLength alignment gl names p plane).filterMap transferOf =
      (asyncTransfers rowLength alignment gl p plane).map sizeOf := by
  unfold asyncCalls asyncTransfers
  split
  · simp only [List.filterMap_append, readyCalls_transfers rowLength alignment, stageCalls_transfers, List.append_nil, List.map_append]
    split
    · rfl
    · rw [tightCalls_transfers]
  · exact tightCalls_transfers rowLength names p plane

theorem nv12Calls_transfers (gl : GlResults) (names : NodeNames) (number : Nat) (b : NV12Buffer) (node : RenderNode) :
    (nv12Calls gl names number b node).filterMap transferOf = (nv12Transfers gl number b node).map sizeOf := by
  unfold nv12Calls nv12Transfers
  split
  · simp only [List.filterMap_append, asyncCalls_transfers, List.map_append]
  · simp only [List.filterMap_append, tightCalls_transfers, List.map_cons, List.map_nil, List.cons_append, List.nil_append]

theorem i420Calls_transfers (gl : GlResults) (names : NodeNames) (number : Nat) (b : I420Buffer) (node : RenderNode) :
    (i420Calls gl names number b node).filterMap transferOf = (i420Transfers gl number b node).map sizeOf := by
  unfold i420Calls i420Transfers
  split
  · simp only [List.filterMap_append, asyncCalls_transfers, List.map_append]
  · simp only [List.filterMap_append, tightCalls_transfers, List.map_cons, List.map_nil, List.cons_append, List.nil_append]

theorem frameCalls_transfers (android : Bool) (gl : GlResults) (names : NodeNames) (frame : QueuedFrame) (node : RenderNode) :
    (frameCalls android gl names frame node).filterMap transferOf = (frameTransfers gl node frame).map sizeOf := by
  obtain ⟨number, buffer⟩ := frame
  cases buffer with
  | oes textureId => cases android <;> rfl
  | nv12 b => cases android <;> exact nv12Calls_transfers gl names number b _
  | i420 b =>
    cases android <;> simpa [frameCalls, frameTransfers, resolveI420ForUpload] using i420Calls_transfers gl names number b _
  | other toI420 =>
    cases toI420 with
    | none => cases android <;> rfl
    | some b =>
      cases android <;> simpa [frameCalls, frameTransfers, resolveI420ForUpload] using i420Calls_transfers gl names number b _

theorem initCalls_transfers (supported : Bool) (names : NodeNames) : (initCalls supported names).filterMap transferOf = [] := by
  cases supported <;> rfl

theorem drawCalls_transfers (names : NodeNames) (node : RenderNode) : (drawCalls names node).filterMap transferOf = [] := by
  unfold drawCalls
  split
  · rfl
  · cases node.frameIsNv12 <;> rfl

/-- `render` makes the transfers that give the textures their texels, and no others. -/
theorem renderCalls_transfers (android : Bool) (gl : GlResults) (names : NodeNames) (node : RenderNode) :
    (renderCalls android gl names node).filterMap transferOf = (renderTransfers android gl node).map sizeOf := by
  unfold renderCalls renderTransfers
  cases ensureInitialized android gl node with
  | none => rfl
  | some ready =>
    have draws : (if (uploadIfPending android gl ready).hasData then drawCalls names (uploadIfPending android gl ready)
        else []).filterMap transferOf = [] := by
      split
      · exact drawCalls_transfers ..
      · rfl
    have inits : (if node.glInitialized then [] else initCalls ready.supportsPixelUnpackBuffer names).filterMap transferOf = [] := by
      split
      · rfl
      · exact initCalls_transfers ..
    simp only [List.filterMap_append, draws, inits, List.append_nil, List.nil_append, Option.toList_some, List.flatMap_cons,
      List.flatMap_nil, uploadCalls]
    split
    · cases ready.heldBuffer with
      | none => rfl
      | some frame => simpa using frameCalls_transfers android gl names frame ready
    · rfl

/-! Whose names are used, and what is left bound. -/

/-- Calls that use what is there and leave the unpack state clean. -/
structure Tidy (gl : Gl) (calls : List Call) : Prop where
  allowed : Follows Allowed gl calls
  textures : (gl.afterAll calls).textures = gl.textures
  buffers : (gl.afterAll calls).buffers = gl.buffers
  clean : (gl.afterAll calls).Clean

variable {gl : Gl} {xs ys : List Call} {names : PlaneNames} {plane : Plane} {p : PlaneSource} {rowLength : Bool}
  {outcome : StageOutcome} {alignment : Nat}

theorem Tidy.nil (clean : gl.Clean) : Tidy gl [] := ⟨trivial, rfl, rfl, clean⟩

theorem Tidy.append (first : Tidy gl xs) (second : Tidy (gl.afterAll xs) ys) : Tidy gl (xs ++ ys) := by
  refine ⟨first.allowed.append second.allowed, ?_, ?_, ?_⟩
  · rw [afterAll_append, second.textures, first.textures]
  · rw [afterAll_append, second.buffers, first.buffers]
  · rw [afterAll_append]
    exact second.clean

theorem Tidy.both (first : Tidy gl xs) (second : Tidy gl xs → Tidy (gl.afterAll xs) ys) : Tidy gl (xs ++ ys) :=
  first.append (second first)

/-- The names of a plane are there. -/
structure Named (gl : Gl) (names : PlaneNames) (plane : Plane) : Prop where
  tex : names.tex ∈ gl.textures
  ids : plane.pbo.ids = true → ∀ i, names.ids i ∈ gl.buffers

theorem Named.after (named : Named gl names plane) (tidy : Tidy gl xs) : Named (gl.afterAll xs) names plane :=
  ⟨tidy.textures ▸ named.tex, tidy.buffers ▸ named.ids⟩

theorem tightCalls_tidy (clean : gl.Clean) (tex : names.tex ∈ gl.textures) : Tidy gl (tightCalls rowLength names p plane) := by
  obtain ⟨unbound, unmapped, unset⟩ := clean
  unfold tightCalls allocateCalls transferCalls
  by_cases same : plane.cached.w = p.width ∧ plane.cached.h = p.height
  · simp only [if_pos same]
    cases rowLength <;> refine ⟨?_, rfl, rfl, unbound, unmapped, by first | rfl | exact unset⟩ <;>
      simp [Follows, Allowed, Gl.after, tex, unbound]
  · simp only [if_neg same]
    cases rowLength <;> refine ⟨?_, rfl, rfl, unbound, unmapped, by first | rfl | exact unset⟩ <;>
      simp [Follows, Allowed, Gl.after, tex, unbound, unmapped]

theorem bufferCalls_tidy (clean : gl.Clean) (tex : names.tex ∈ gl.textures) {index : Fin 2}
    (there : names.ids index ∈ gl.buffers) : Tidy gl (bufferCalls rowLength names plane index) := by
  obtain ⟨_, unmapped, unset⟩ := clean
  unfold bufferCalls allocateCalls transferCalls
  by_cases same : plane.cached.w = plane.pbo.readyW ∧ plane.cached.h = plane.pbo.readyH
  · simp only [if_pos same]
    cases rowLength <;> refine ⟨?_, rfl, rfl, rfl, unmapped, by first | rfl | exact unset⟩ <;>
      simp [Follows, Allowed, Gl.after, tex, there, unmapped]
  · simp only [if_neg same]
    cases rowLength <;> refine ⟨?_, rfl, rfl, rfl, unmapped, by first | rfl | exact unset⟩ <;>
      simp [Follows, Allowed, Gl.after, tex, there, unmapped]

theorem readyCalls_tidy (clean : gl.Clean) (tex : names.tex ∈ gl.textures) (ids : ∀ i, names.ids i ∈ gl.buffers) :
    Tidy gl (readyCalls rowLength names plane) := by
  unfold readyCalls
  cases readyBuffer plane.pbo with
  | none => exact .nil clean
  | some index => exact bufferCalls_tidy clean tex (ids index)

theorem stageCalls_tidy (clean : gl.Clean) {pbo : PlaneUploadPbo} (ids : pbo.ids = true → ∀ i, names.ids i ∈ gl.buffers) :
    Tidy gl (stageCalls rowLength outcome names p pbo) := by
  obtain ⟨unbound, unmapped, unset⟩ := clean
  unfold stageCalls
  split
  · rename_i generated
    have there := ids generated pbo.nextStageIndex
    obtain ⟨mapped, intact⟩ := outcome
    constructor
    · cases mapped <;> cases intact <;> cases rowLength <;> simp [Follows, Allowed, Gl.after, there, unmapped]
    · cases mapped <;> cases intact <;> cases rowLength <;> rfl
    · cases mapped <;> cases intact <;> cases rowLength <;> rfl
    · cases mapped <;> cases intact <;> cases rowLength <;> exact ⟨rfl, by first | rfl | exact unmapped, by first | rfl | exact unset⟩
  · exact .nil ⟨unbound, unmapped, unset⟩

theorem asyncCalls_tidy (clean : gl.Clean) (named : Named gl names plane) :
    Tidy gl (asyncCalls rowLength alignment outcome names p plane) := by
  unfold asyncCalls
  split
  · rename_i generated
    have ready : Tidy gl (readyCalls rowLength names plane) := readyCalls_tidy clean named.tex (named.ids generated)
    have staged : Tidy gl (readyCalls rowLength names plane ++
        stageCalls rowLength outcome names p (uploadPlaneFromReadyPbo rowLength alignment plane).1.pbo) := by
      refine ready.append (stageCalls_tidy ready.clean fun _ => ?_)
      rw [ready.buffers]
      exact named.ids generated
    simp only
    split
    · rw [List.append_nil]
      exact staged
    · exact staged.append (tightCalls_tidy staged.clean (staged.textures ▸ named.tex))
  · exact tightCalls_tidy clean named.tex

/-- The names of the node are there. -/
structure AllNamed (gl : Gl) (names : NodeNames) (node : RenderNode) : Prop where
  y : Named gl names.y node.planeY
  u : Named gl names.u node.planeU
  v : Named gl names.v node.planeV
  uv : Named gl names.uv node.planeUV

/-- It depends on whether buffers were generated, and on nothing else of the planes. -/
theorem AllNamed.congr {names : NodeNames} {node next : RenderNode} (named : AllNamed gl names node)
    (y : next.planeY.pbo.ids = node.planeY.pbo.ids) (u : next.planeU.pbo.ids = node.planeU.pbo.ids)
    (v : next.planeV.pbo.ids = node.planeV.pbo.ids) (uv : next.planeUV.pbo.ids = node.planeUV.pbo.ids) :
    AllNamed gl names next :=
  ⟨⟨named.y.tex, y ▸ named.y.ids⟩, ⟨named.u.tex, u ▸ named.u.ids⟩, ⟨named.v.tex, v ▸ named.v.ids⟩,
    ⟨named.uv.tex, uv ▸ named.uv.ids⟩⟩

section Node
variable {names : NodeNames} {node : RenderNode} {results : GlResults}

theorem AllNamed.enterCpuPath (named : AllNamed gl names node) (path : UploadPathKind) :
    AllNamed gl names (Renderer.enterCpuPath path node) := by
  unfold Renderer.enterCpuPath
  split
  · exact named
  · exact named.congr rfl rfl rfl rfl

theorem nv12Calls_tidy (clean : gl.Clean) (named : AllNamed gl names node) (number : Nat) (b : NV12Buffer) :
    Tidy gl (nv12Calls results names number b node) := by
  unfold nv12Calls
  split
  · exact (asyncCalls_tidy clean named.y).both fun y => asyncCalls_tidy y.clean (named.uv.after y)
  · exact (tightCalls_tidy clean named.y.tex).both fun y => tightCalls_tidy y.clean (named.uv.after y).tex

theorem i420Calls_tidy (clean : gl.Clean) (named : AllNamed gl names node) (number : Nat) (b : I420Buffer) :
    Tidy gl (i420Calls results names number b node) := by
  unfold i420Calls
  split
  · refine Tidy.both ?_ fun u => asyncCalls_tidy u.clean (named.v.after u)
    exact (asyncCalls_tidy clean named.y).both fun y => asyncCalls_tidy y.clean (named.u.after y)
  · refine Tidy.both ?_ fun u => tightCalls_tidy u.clean (named.v.after u).tex
    exact (tightCalls_tidy clean named.y.tex).both fun y => tightCalls_tidy y.clean (named.u.after y).tex

theorem frameCalls_tidy (clean : gl.Clean) (named : AllNamed gl names node) (android : Bool) (frame : QueuedFrame) :
    Tidy gl (frameCalls android results names frame node) := by
  unfold frameCalls
  split
  · exact .nil clean
  · exact nv12Calls_tidy clean (named.enterCpuPath .nv12) _ _
  · cases resolveI420ForUpload frame.buffer with
    | none => exact .nil clean
    | some b => simpa using i420Calls_tidy clean (named.enterCpuPath .i420) _ b

theorem drawCalls_tidy (clean : gl.Clean) (named : AllNamed gl names node) : Tidy gl (drawCalls names node) := by
  have y := named.y.tex
  have u := named.u.tex
  have v := named.v.tex
  have uv := named.uv.tex
  unfold drawCalls
  constructor
  · split
    · simp [Follows, Allowed]
    · cases node.frameIsNv12 <;> simp [Follows, Allowed, Gl.after, y, u, v, uv]
  · split
    · rfl
    · cases node.frameIsNv12 <;> rfl
  · split
    · rfl
    · cases node.frameIsNv12 <;> rfl
  · split
    · exact clean
    · cases node.frameIsNv12 <;> exact clean

end Node

/-! The names of the node. -/

/-- The context has the names of the node and no others. -/
structure NodeOwned (gl : Gl) (names : NodeNames) (node : RenderNode) : Prop where
  textures : gl.textures = if node.glInitialized then names.textures else []
  buffers : gl.buffers = if buffersInUse node then names.buffers else []
  textures_nodup : node.glInitialized = true → names.textures.Nodup
  buffers_nodup : buffersInUse node = true → (0 :: names.buffers).Nodup
  ids : ∀ plane ∈ node.planes, plane.pbo.ids = true → buffersInUse node = true
  clean : gl.Clean

theorem NodeOwned.new : NodeOwned {} {} {} where
  textures := rfl
  buffers := rfl
  textures_nodup there := by cases there
  buffers_nodup there := by cases there
  ids := by simp [forall_planes]
  clean := ⟨rfl, rfl, rfl⟩

section Owned
variable {names : NodeNames} {node next : RenderNode} {results : GlResults}

theorem NodeOwned.named (owned : NodeOwned gl names node) (initialized : node.glInitialized = true) :
    AllNamed gl names node := by
  have textures := owned.textures
  rw [if_pos initialized] at textures
  have ids := owned.ids
  rw [forall_planes] at ids
  obtain ⟨y, u, v, uv⟩ := ids
  have buffers (inUse : buffersInUse node = true) : gl.buffers = names.buffers := by rw [owned.buffers, if_pos inUse]
  refine ⟨⟨?_, fun there i => ?_⟩, ⟨?_, fun there i => ?_⟩, ⟨?_, fun there i => ?_⟩, ⟨?_, fun there i => ?_⟩⟩
  · simp [textures, NodeNames.textures]
  · rw [buffers (y there)]
    fin_cases i <;> simp [NodeNames.buffers, PlaneNames.buffers]
  · simp [textures, NodeNames.textures]
  · rw [buffers (u there)]
    fin_cases i <;> simp [NodeNames.buffers, PlaneNames.buffers]
  · simp [textures, NodeNames.textures]
  · rw [buffers (v there)]
    fin_cases i <;> simp [NodeNames.buffers, PlaneNames.buffers]
  · simp [textures, NodeNames.textures]
  · rw [buffers (uv there)]
    fin_cases i <;> simp [NodeNames.buffers, PlaneNames.buffers]

/-- Calls that only use names, for a node that has the same ones. -/
theorem NodeOwned.used (owned : NodeOwned gl names node) (tidy : Tidy gl xs)
    (initialized : next.glInitialized = node.glInitialized) (inUse : buffersInUse next = buffersInUse node)
    (ids : ∀ plane ∈ next.planes, plane.pbo.ids = true → buffersInUse node = true) :
    NodeOwned (gl.afterAll xs) names next where
  textures := by rw [tidy.textures, initialized, owned.textures]
  buffers := by rw [tidy.buffers, inUse, owned.buffers]
  textures_nodup := initialized ▸ owned.textures_nodup
  buffers_nodup := inUse ▸ owned.buffers_nodup
  ids := inUse ▸ ids
  clean := tidy.clean

/-- Uploads make and delete no names. -/
theorem ids_kept (inUse : Bool) : KeptByUploads Anyhow fun plane => plane.pbo.ids = true → inUse = true where
  idle _ _ _ := trivial
  reset _ held := held
  tight rowLength p plane held there := by
    rw [uploadPlaneTight_pbo] at there
    exact held there
  async rowLength alignment outcome p plane _ held there := by
    rw [uploadPlaneViaPboAsync_ids] at there
    exact held there

theorem NodeOwned.initialize (owned : NodeOwned gl names node) (new : node.glInitialized = false) {given : NodeNames}
    {android : Bool} (initialized : ensureInitialized android results node = some next)
    (textures : given.textures.Nodup) (buffers : (0 :: given.buffers).Nodup) :
    Follows Allowed gl (initCalls next.supportsPixelUnpackBuffer (given.given next.supportsPixelUnpackBuffer)) ∧
      NodeOwned (gl.afterAll (initCalls next.supportsPixelUnpackBuffer (given.given next.supportsPixelUnpackBuffer)))
        (given.given next.supportsPixelUnpackBuffer) next := by
  obtain ⟨unbound, unmapped, unset⟩ := owned.clean
  have noTextures : gl.textures = [] := by rw [owned.textures, new]; rfl
  have notInUse : buffersInUse node = false := by rw [buffersInUse, new]; rfl
  have noBuffers : gl.buffers = [] := by rw [owned.buffers, notInUse]; rfl
  have noIds := owned.ids
  rw [forall_planes] at noIds
  simp only [notInUse, Bool.false_eq_true, imp_false, Bool.not_eq_true] at noIds
  obtain ⟨y, u, v, uv⟩ := noIds
  unfold ensureInitialized at initialized
  rw [if_neg (by simp [new])] at initialized
  split at initialized
  · cases initialized
    cases results.supportsPixelUnpackBuffer with
    | false =>
      refine ⟨?_, ?_, ?_, fun _ => textures, fun inUse => ?_, ?_, unbound, unmapped, unset⟩
      · simp [initCalls, Follows, Allowed, Gl.after]
      · simp [initCalls, Gl.afterAll, Gl.after, noTextures, NodeNames.textures]
      · simp [initCalls, Gl.afterAll, Gl.after, noBuffers, buffersInUse]
      · simp [buffersInUse] at inUse
      · rw [forall_planes]
        simpa [genPlane, buffersInUse] using ⟨y, u, v, uv⟩
    | true =>
      refine ⟨?_, ?_, ?_, fun _ => textures, fun _ => buffers, ?_, unbound, unmapped, unset⟩
      · simp [initCalls, Follows, Allowed, Gl.after]
      · simp [initCalls, Gl.afterAll, Gl.after, noTextures, NodeNames.textures]
      · simp [initCalls, Gl.afterAll, Gl.after, noBuffers, buffersInUse, NodeNames.buffers]
      · rw [forall_planes]
        simp [genPlane, buffersInUse]
  · cases initialized

/-- The destroyed node has no names, and the context has none of it. -/
theorem NodeOwned.destroy (owned : NodeOwned gl names node) (context : Bool) :
    Follows Allowed gl (destroyCalls context names node) ∧
      NodeOwned (gl.afterAll (destroyCalls context names node)) (if node.glInitialized && context then {} else names)
        (destroyGlResources context node) := by
  unfold destroyCalls destroyGlResources
  by_cases gone : node.glInitialized = true ∧ context = true
  · have both : (node.glInitialized && context) = true := by simpa using gone
    rw [if_pos both, if_pos both, if_pos gone]
    have textures : gl.textures = [[names.y.tex], [names.u.tex], [names.v.tex], [names.uv.tex]].flatten := by
      rw [owned.textures, if_pos gone.1]
      rfl
    obtain ⟨texturesAllowed, noTextures⟩ := deleteTextures_all textures (owned.textures_nodup gone.1)
    simp only [List.map_cons, List.map_nil] at texturesAllowed noTextures
    have buffers := owned.buffers
    have distinct := owned.buffers_nodup
    have ids := owned.ids
    obtain ⟨unbound, unmapped, unset⟩ := owned.clean
    rw [forall_planes] at ids
    cases supported : node.supportsPixelUnpackBuffer with
    | false =>
      have unused : buffersInUse node = false := by simp [buffersInUse, supported]
      simp only [unused, Bool.false_eq_true, if_false, imp_false, Bool.not_eq_true] at buffers ids
      simp only [Bool.false_eq_true, if_false, List.append_nil]
      refine ⟨texturesAllowed, ?_⟩
      rw [noTextures]
      refine ⟨rfl, buffers, fun there => ?_, fun there => ?_, ?_, unbound, unmapped, unset⟩
      · cases there
      · cases there
      · rw [forall_planes]
        simp [deletePlane, ids]
    | true =>
      have inUse : buffersInUse node = true := by simp [buffersInUse, gone.1, supported]
      have parts : names.buffers = [names.y.buffers, names.u.buffers, names.v.buffers, names.uv.buffers].flatten := by
        simp [NodeNames.buffers]
      rw [if_pos inUse, parts] at buffers
      rw [parts] at distinct
      obtain ⟨buffersAllowed, noBuffers⟩ := deleteBuffers_all ((congrArg Gl.buffers noTextures).trans buffers)
        (List.nodup_cons.mp (distinct inUse)).2
      simp only [List.map_cons, List.map_nil] at buffersAllowed noBuffers
      simp only [if_true]
      refine ⟨texturesAllowed.append buffersAllowed, ?_⟩
      rw [afterAll_append, noBuffers, noTextures]
      refine ⟨rfl, rfl, fun there => ?_, fun there => ?_, ?_, unbound, unmapped, unset⟩
      · cases there
      · cases there
      · rw [forall_planes]
        simp [deletePlane]
  · have other : ¬(node.glInitialized && context) = true := by simpa using gone
    rw [if_neg other, if_neg other, if_neg gone]
    exact ⟨trivial, owned⟩

/-- The node changes in nothing that names depend on. -/
theorem NodeOwned.kept (owned : NodeOwned gl names node) (initialized : next.glInitialized = node.glInitialized)
    (inUse : buffersInUse next = buffersInUse node) (planes : next.planes = node.planes) : NodeOwned gl names next :=
  owned.used (.nil owned.clean) initialized inUse (planes ▸ owned.ids)

/-- A node that is not initialized has no names, and neither has the one that
will come next. -/
theorem NodeOwned.fresh (owned : NodeOwned gl names node) (absent : node.glInitialized = false) (given : NodeNames) :
    NodeOwned gl given {} where
  textures := by
    rw [owned.textures, absent]
    rfl
  buffers := by
    rw [owned.buffers, buffersInUse, absent]
    rfl
  textures_nodup there := by cases there
  buffers_nodup there := by cases there
  ids := by simp [forall_planes]
  clean := owned.clean

theorem SameContext.inUse (same : SameContext node next) : buffersInUse next = buffersInUse node := by
  rw [buffersInUse, buffersInUse, same.initialized, same.buffers]

theorem NodeOwned.upload (owned : NodeOwned gl names node) (initialized : node.glInitialized = true) (android : Bool)
    (results : GlResults) : Tidy gl (uploadCalls android results names node) := by
  unfold uploadCalls
  split
  · cases node.heldBuffer with
    | none => exact .nil owned.clean
    | some frame => simpa using frameCalls_tidy owned.clean (owned.named initialized) android frame
  · exact .nil owned.clean

theorem NodeOwned.uploaded (owned : NodeOwned gl names node) (tidy : Tidy gl xs) (android : Bool) (results : GlResults) :
    NodeOwned (gl.afterAll xs) names (uploadIfPending android results node) := by
  have same := uploadIfPending_same android results node
  refine owned.used tidy same.initialized same.inUse ?_
  exact (ids_kept _).uploadIfPending android results (fun path _ => pathFinds_anyhow results node path) owned.ids

/-- A node that is ready draws what it has. -/
theorem NodeOwned.rendered (owned : NodeOwned gl names node) (initialized : node.glInitialized = true) (android : Bool)
    (results : GlResults) :
    Tidy gl (uploadCalls android results names node ++
      if (uploadIfPending android results node).hasData then drawCalls names (uploadIfPending android results node) else []) := by
  refine (owned.upload initialized android results).both fun upload => ?_
  have done := owned.uploaded upload android results
  split
  · have same := uploadIfPending_same android results node
    exact drawCalls_tidy done.clean (done.named (same.initialized.trans initialized))
  · exact .nil done.clean

/-- What is set when the node is initialized, and what is left as it is. -/
theorem ensureInitialized_new {android : Bool} (new : node.glInitialized = false)
    (initialized : ensureInitialized android results node = some next) :
    results.context = true ∧ next.supportsPixelUnpackBuffer = results.supportsPixelUnpackBuffer ∧
      next.pendingUpload = node.pendingUpload ∧ next.heldBuffer = node.heldBuffer ∧
      next.planes = node.planes.map (genPlane results.supportsPixelUnpackBuffer) := by
  unfold ensureInitialized at initialized
  rw [if_neg (by simp [new])] at initialized
  split at initialized
  · rename_i context
    cases initialized
    exact ⟨context, rfl, rfl, rfl, rfl⟩
  · cases initialized

theorem NodeOwned.render (owned : NodeOwned gl names node) (android : Bool) (results : GlResults) {given : NodeNames}
    (textures : given.textures.Nodup) (buffers : (0 :: given.buffers).Nodup) :
    let after := if !node.glInitialized && results.context then given.given results.supportsPixelUnpackBuffer else names
    Follows Allowed gl (renderCalls android results after node) ∧
      NodeOwned (gl.afterAll (renderCalls android results after node)) after (Renderer.render android results node).1 := by
  unfold renderCalls Renderer.render
  cases there : node.glInitialized with
  | true =>
    have ready : ensureInitialized android results node = some node := by simp [ensureInitialized, there]
    have tidy := owned.rendered there android results
    simp only [ready, Bool.not_true, Bool.false_and, Bool.false_eq_true, if_false, if_true, List.nil_append]
    exact ⟨tidy.allowed, owned.uploaded tidy android results⟩
  | false =>
    cases ready : ensureInitialized android results node with
    | none =>
      have noContext : results.context = false := by simpa [ensureInitialized, there] using ready
      simp only [noContext, Bool.and_false, Bool.false_eq_true, if_false]
      exact ⟨trivial, owned⟩
    | some next =>
      obtain ⟨context, supported, _⟩ := ensureInitialized_new there ready
      obtain ⟨allowed, made⟩ := owned.initialize there ready textures buffers
      have tidy := made.rendered (ensureInitialized_initialized ready) android results
      rw [supported] at allowed made tidy
      simp only [context, supported, Bool.not_false, Bool.and_true, Bool.false_eq_true, if_false, if_true, List.append_assoc]
      refine ⟨allowed.append tidy.allowed, ?_⟩
      rw [afterAll_append]
      exact made.uploaded tidy android results

end Owned

/-! The calls of a whole run. -/

theorem NodeOwned.sync {names : NodeNames} {node : RenderNode} (owned : NodeOwned gl names node) (item : VideoRenderer) :
    NodeOwned gl names (Renderer.sync item node).2 := by
  rcases sync_cases item node with ⟨frame, _, taken⟩ | unchanged | emptied
  · rw [taken]
    exact owned.kept rfl rfl rfl
  · rw [unchanged]
    exact owned.kept rfl rfl rfl
  · rw [emptied]
    exact owned.kept rfl rfl rfl

theorem renderNode_node (android : Bool) (s : State) (results : GlResults) :
    (renderNode android s results).1.node = s.node.map fun node => (render android results node).1 := by
  unfold renderNode
  split
  · rename_i absent
    rw [absent]
    rfl
  · rename_i node there
    rw [there]
    rfl

/-- GL gives names that differ, 0 not among those of buffers, and has a context
where the node is deleted. -/
structure GlBehaves (e : SurfaceEvent) : Prop where
  textures : e.names.textures.Nodup
  buffers : (0 :: e.names.buffers).Nodup
  context : e.context = true

instance (e : SurfaceEvent) : Decidable (GlBehaves e) :=
  decidable_of_iff (e.names.textures.Nodup ∧ (0 :: e.names.buffers).Nodup ∧ e.context = true)
    ⟨fun ⟨textures, buffers, context⟩ => ⟨textures, buffers, context⟩, fun ⟨textures, buffers, context⟩ =>
      ⟨textures, buffers, context⟩⟩

def SurfaceOwned (s : Surface) : Prop := NodeOwned s.gl s.names (s.renderer.node.getD {})

section Surface
variable {android : Bool} {s t : Surface} {e : SurfaceEvent} {out log : List Call}

/-- The alignment that others leave concerns no name. -/
theorem SurfaceOwned.found (owned : SurfaceOwned s) (event : RenderEvent) :
    Follows Allowed s.gl (foundCalls event) ∧
      NodeOwned (s.gl.afterAll (foundCalls event)) s.names ((s.renderer.found event).node.getD {}) := by
  have aligned : Follows Allowed s.gl (foundCalls event) ∧
      NodeOwned (s.gl.afterAll (foundCalls event)) s.names (s.renderer.node.getD {}) := by
    obtain ⟨textures, buffers, texturesOnce, buffersOnce, ids, unbound, unmapped, unset⟩ := owned
    cases event with
    | render results =>
      exact ⟨⟨trivial, trivial⟩, textures, buffers, texturesOnce, buffersOnce, ids, unbound, unmapped, unset⟩
    | onFrame | updatePaintNode | releaseResources | setVideoTrack | clearVideoTrack =>
      exact ⟨trivial, textures, buffers, texturesOnce, buffersOnce, ids, unbound, unmapped, unset⟩
  exact ⟨aligned.1, found_node event aligned.2 fun _ _ owned =>
    ⟨owned.textures, owned.buffers, owned.textures_nodup, owned.buffers_nodup, owned.ids, owned.clean⟩⟩

/-- Where there is no node nothing is called for it. -/
theorem nodeOwned_without {s t : State} {event : RenderEvent} {effects : List RenderAction} {gl : Gl} {names : NodeNames}
    (owned : NodeOwned gl names (s.node.getD {})) (absent : s.node = none) (moved : step android s event = some (t, effects)) :
    NodeOwned gl names (t.node.getD {}) := by
  cases renderMove_of_step moved with
  | delivers buffer rawId nowUs attached => exact owned
  | syncs => exact owned.sync s.item
  | drops =>
    rw [absent] at owned
    exact owned
  | renders results =>
    rw [absent] at owned
    simp only [renderNode_node, absent, Option.map_none]
    exact owned
  | releases context =>
    rw [absent] at owned
    simp only [absent]
    exact owned
  | keeps track same => exact owned
  | replaces track other => exact owned
  | clears => exact owned

theorem surfaceCalls_allowed {r next : State} {effects : List RenderAction} {gl : Gl} {node : RenderNode}
    (owned : NodeOwned gl s.names (r.node.getD {})) (there : r.node = some node) (behaves : GlBehaves e)
    (moved : step android r e.event = some (next, effects)) :
    Follows Allowed gl (surfaceCalls android s e node) ∧
      NodeOwned (gl.afterAll (surfaceCalls android s e node)) (namesAfter s e node) (next.node.getD {}) := by
  obtain ⟨event, given, context⟩ := e
  obtain ⟨textures, buffers, rfl⟩ := behaves
  cases renderMove_of_step moved with
  | delivers buffer rawId nowUs attached => exact ⟨trivial, owned⟩
  | syncs => exact ⟨trivial, owned.sync r.item⟩
  | drops =>
    rw [there] at owned
    obtain ⟨allowed, gone⟩ := owned.destroy true
    refine ⟨allowed, gone.fresh ?_ {}⟩
    unfold destroyGlResources
    split
    · rfl
    · rename_i other
      simpa using other
  | renders results =>
    rw [there] at owned
    rw [renderNode_node, there]
    exact owned.render android results textures buffers
  | releases context =>
    rw [there] at owned
    simp only [there]
    exact owned.destroy context
  | keeps track same => exact ⟨trivial, owned⟩
  | replaces track other => exact ⟨trivial, owned⟩
  | clears => exact ⟨trivial, owned⟩

theorem surface_step (owned : SurfaceOwned s) (behaves : GlBehaves e) (run : surfaceStep android s e = some (t, out)) :
    Follows Allowed s.gl out ∧ SurfaceOwned t := by
  obtain ⟨⟨next, effects⟩, moved, made⟩ := Option.map_eq_some_iff.mp run
  obtain ⟨allowed, found⟩ := owned.found e.event
  cases there : (s.renderer.found e.event).node with
  | none =>
    rw [there] at made
    cases made
    rw [SurfaceOwned, Option.elim_none, List.append_nil]
    exact ⟨allowed, nodeOwned_without found there moved⟩
  | some node =>
    rw [there] at made
    cases made
    obtain ⟨called, kept⟩ := surfaceCalls_allowed found there behaves moved
    refine ⟨allowed.append called, ?_⟩
    rw [SurfaceOwned, Option.elim_some, afterAll_append]
    exact kept

end Surface

/-- Two frames of different sizes, and the node is deleted. -/
def twoSizes : List SurfaceEvent :=
  [.setVideoTrack (some 1), .onFrame (some (.nv12 (smallNv12 16))) 1 0, .updatePaintNode true, .render fullGl,
    .onFrame (some (.nv12 ⟨8, 2, 8, 8, List.replicate 16 17, List.replicate 8 128⟩)) 2 0, .updatePaintNode true, .render fullGl,
    .updatePaintNode false].map fun event =>
      ⟨event, ⟨⟨1, (11 + ·)⟩, ⟨2, (13 + ·)⟩, ⟨3, (15 + ·)⟩, ⟨4, (17 + ·)⟩⟩, true⟩

end WebRtcDemo.Renderer
