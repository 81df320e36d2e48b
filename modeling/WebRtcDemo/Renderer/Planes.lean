import WebRtcDemo.Lib.GlTexture

namespace WebRtcDemo.Renderer

open GlTexture

/-- One plane of a frame, as the upload functions are given it; one byte for
each pixel stands for `GL_LUMINANCE` and two for `GL_LUMINANCE_ALPHA`. Frames
are told apart by the number of their delivery. -/
structure PlaneSource where
  width : Nat
  height : Nat
  bytesPerPixel : Nat
  data : Block Nat
  strideBytes : Nat

structure PlaneTexCache where
  w : Nat := 0
  h : Nat := 0
  deriving DecidableEq, Repr

/-- There are two buffers, so that the numbers of them start at `0`. -/
instance neZero_buffers : NeZero 2 := ⟨by decide⟩

/-- `PlaneUploadPbo`. `ids` says whether the two buffer names were generated,
and `store` is what GL holds under them. -/
structure PlaneUploadPbo where
  ids : Bool := false
  store : Fin 2 → Option (Block Nat) := fun _ => none
  capacities : Fin 2 → Nat := fun _ => 0
  nextStageIndex : Fin 2 := 0
  readyIndex : Option (Fin 2) := none
  readyW : Nat := 0
  readyH : Nat := 0
  readyStrideBytes : Nat := 0
  readyBytesPerPixel : Nat := 1
  ready : Bool := false

/-- What belongs to one of `Y`, `U`, `V` and `UV`: `m_tex*`, `m_planeCache*` and `m_pbo*`. -/
structure Plane where
  tex : Texture Nat := genTexture
  cached : PlaneTexCache := {}
  pbo : PlaneUploadPbo := {}

/-- What `glMapBufferRange` and `glUnmapBuffer` return when a plane is staged. -/
structure StageOutcome where
  mapped : Bool
  unmapped : Bool
  deriving DecidableEq, Repr

/-- The rows of a plane, without what pads them. -/
def tightRows (src : Bytes) (stride rowBytes rows : Nat) : Bytes :=
  (List.range rows).flatMap fun y => (src.drop (y * stride)).take rowBytes

def prepareTightPlaneIfNeeded (src : Block Nat) (srcStride planeW planeH : Nat) (supportsUnpackRowLength : Bool) :
    Block Nat :=
  if srcStride = planeW ∨ supportsUnpackRowLength then src
  else { src with bytes := tightRows src.bytes srcStride planeW planeH }

def copyPlaneForUpload (p : PlaneSource) (supportsUnpackRowLength : Bool) : Bytes :=
  let rowBytes := p.width * p.bytesPerPixel
  if supportsUnpackRowLength ∧ p.strideBytes ≠ rowBytes then p.data.bytes.take (p.strideBytes * p.height)
  else tightRows p.data.bytes p.strideBytes rowBytes p.height

/-- `glTexImage2D` when the cached size is another one. The size is cached also
where the call fails. -/
def allocatePlane (succeeds : Bool) (plane : Plane) (w h : Nat) : Plane :=
  if plane.cached.w = w ∧ plane.cached.h = h then plane
  else { plane with tex := if succeeds then texImage2D w h else plane.tex, cached := ⟨w, h⟩ }

/-- `GL_UNPACK_ROW_LENGTH` during the transfer. -/
def unpackRowLength (supportsUnpackRowLength : Bool) (strideBytes bytesPerPixel : Nat) : Nat :=
  if supportsUnpackRowLength then strideBytes / bytesPerPixel else 0

def uploadPlaneTight (supportsUnpackRowLength : Bool) (p : PlaneSource) (plane : Plane) : Plane :=
  let plane := allocatePlane true plane p.width p.height
  let rowLength := unpackRowLength supportsUnpackRowLength p.strideBytes p.bytesPerPixel
  { plane with tex := texSubImage2D plane.tex p.width p.height rowLength p.bytesPerPixel p.data }

def resetPlaneUploadPbo (pbo : PlaneUploadPbo) : PlaneUploadPbo :=
  { pbo with
    nextStageIndex := 0
    readyIndex := none
    readyW := 0
    readyH := 0
    readyStrideBytes := 0
    readyBytesPerPixel := 1
    ready := false }

/-- The buffer that the next upload will read. -/
def readyBuffer (pbo : PlaneUploadPbo) : Option (Fin 2) := if pbo.ready then pbo.readyIndex else none

/-- Whether `glTexImage2D` succeeds while the buffer is bound: its null pointer
is an offset then, and what it reads must lie in the buffer. At alignment 1 it
does, since strides hold a row and so the buffer holds all rows. -/
def allocates (unpackAlignment : Nat) (pbo : PlaneUploadPbo) (index : Fin 2) : Bool :=
  unpackAlignment = 1 ∨
    transferReads unpackAlignment 0 pbo.readyW pbo.readyH pbo.readyBytesPerPixel ≤ pbo.capacities index

/-- At alignment 4 the second of two rows of two bytes begins where the buffer ends. -/
example : allocates 4 { readyW := 2, readyH := 2, capacities := fun _ => 4 } 0 = false := by decide

/-- The transfer out of the buffer. A buffer without a store has nothing to read. -/
def transferFromStore (supportsUnpackRowLength : Bool) (plane : Plane) : Option (Block Nat) → Plane
  | none => plane
  | some data =>
    let pbo := plane.pbo
    let rowLength := unpackRowLength supportsUnpackRowLength pbo.readyStrideBytes pbo.readyBytesPerPixel
    { plane with tex := texSubImage2D plane.tex pbo.readyW pbo.readyH rowLength pbo.readyBytesPerPixel data }

/-- The alignment that is set when the function is entered is the one of the
allocation; it is set to 1 only for the transfer. -/
def uploadPlaneFromReadyPbo (supportsUnpackRowLength : Bool) (unpackAlignment : Nat) (plane : Plane) : Plane × Bool :=
  match readyBuffer plane.pbo with
  | none => (plane, false)
  | some index =>
    let succeeds := allocates unpackAlignment plane.pbo index
    let plane := allocatePlane succeeds plane plane.pbo.readyW plane.pbo.readyH
    (transferFromStore supportsUnpackRowLength plane (plane.pbo.store index), true)

/-- The size that `glBufferData` allocates. -/
def uploadBytes (supportsUnpackRowLength : Bool) (p : PlaneSource) : Nat :=
  if supportsUnpackRowLength ∧ p.strideBytes ≠ p.width * p.bytesPerPixel then p.strideBytes * p.height
  else p.width * p.bytesPerPixel * p.height

def stagePlaneIntoPbo (supportsUnpackRowLength : Bool) (gl : StageOutcome) (p : PlaneSource) (pbo : PlaneUploadPbo) :
    PlaneUploadPbo × Bool :=
  if pbo.ids then
    let index := pbo.nextStageIndex
    let pbo := { pbo with
      nextStageIndex := index + 1
      capacities := Function.update pbo.capacities index (uploadBytes supportsUnpackRowLength p)
      store := Function.update pbo.store index none }
    if gl.mapped ∧ gl.unmapped then
      ({ pbo with
        store := Function.update pbo.store index (some ⟨p.data.tag, copyPlaneForUpload p supportsUnpackRowLength⟩)
        readyIndex := some index
        readyW := p.width
        readyH := p.height
        readyStrideBytes := p.strideBytes
        readyBytesPerPixel := p.bytesPerPixel
        ready := true }, true)
    else (pbo, false)
  else (pbo, false)

def uploadPlaneViaPboAsync (supportsUnpackRowLength : Bool) (unpackAlignment : Nat) (gl : StageOutcome) (p : PlaneSource)
    (plane : Plane) : Plane × Bool :=
  if plane.pbo.ids then
    let (plane, uploaded) := uploadPlaneFromReadyPbo supportsUnpackRowLength unpackAlignment plane
    let (pbo, staged) := stagePlaneIntoPbo supportsUnpackRowLength gl p plane.pbo
    if staged then ({ plane with pbo := pbo }, uploaded)
    else (uploadPlaneTight supportsUnpackRowLength p { plane with pbo := resetPlaneUploadPbo pbo }, true)
  else (uploadPlaneTight supportsUnpackRowLength p plane, true)

/-- The staging of the plane succeeds. -/
def Staged (gl : StageOutcome) (plane : Plane) : Prop :=
  plane.pbo.ids = true ∧ gl.mapped = true ∧ gl.unmapped = true

instance (gl : StageOutcome) (plane : Plane) : Decidable (Staged gl plane) :=
  inferInstanceAs (Decidable (_ ∧ _ ∧ _))

/-- The unpack alignment that the upload of a plane leaves. Every transfer sets
it to 1; there is none if nothing is ready and the plane is staged. -/
def alignmentAfter (gl : StageOutcome) (plane : Plane) (unpackAlignment : Nat) : Nat :=
  if readyBuffer plane.pbo = none ∧ Staged gl plane then unpackAlignment else 1

end WebRtcDemo.Renderer
