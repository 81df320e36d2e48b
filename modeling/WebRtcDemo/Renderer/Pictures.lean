import WebRtcDemo.Renderer.Storage

/-! Which frame the plane textures hold, through the buffers. -/

namespace WebRtcDemo.Renderer

open GlTexture

/-- The texture has the size of the plane and all its texels come from the plane's frame. -/
def HoldsPlane (p : PlaneSource) (tex : Texture Nat) : Prop :=
  tex.width = p.width ∧ tex.height = p.height ∧
    ∀ x y, x < p.width → y < p.height → (tex.texel x y).map Texel.tag = some p.data.tag

/-- The planes of a frame, as `uploadPendingFrame` passes them on. -/
def planesOf (frame : QueuedFrame) : List PlaneSource :=
  match frame.buffer with
  | .nv12 b => [nv12PlaneY frame.number b, nv12PlaneUV frame.number b]
  | buffer => (resolveI420ForUpload buffer).toList.flatMap fun b =>
      [i420PlaneY frame.number b, i420PlaneU frame.number b, i420PlaneV frame.number b]

/-- The textures hold the planes of one frame. -/
def HoldsFrame (frame : QueuedFrame) (textures : List (Texture Nat)) : Prop :=
  List.Forall₂ HoldsPlane (planesOf frame) textures

/-- What the next upload brings to the texture, or leaves there when nothing is ready. -/
def Carries (p : PlaneSource) (plane : Plane) : Prop :=
  match readyBuffer plane.pbo with
  | none => HoldsPlane p plane.tex
  | some index => plane.pbo.readyW = p.width ∧ plane.pbo.readyH = p.height ∧
      ∃ block, plane.pbo.store index = some block ∧ block.tag = p.data.tag

variable {plane : Plane} {p q : PlaneSource} {gl : StageOutcome} {rowLength : Bool} {alignment : Nat}

theorem carries_of_idle (idle : readyBuffer plane.pbo = none) : Carries p plane ↔ HoldsPlane p plane.tex := by
  rw [Carries, idle]

theorem HoldsPlane.of_transfer {tex : Texture Nat} {src : Block Nat} (width : tex.width = p.width)
    (height : tex.height = p.height) (tag : src.tag = p.data.tag) (rowLength bpp : Nat) :
    HoldsPlane p (texSubImage2D tex p.width p.height rowLength bpp src) := by
  refine ⟨?_, ?_, fun x y left above => ?_⟩
  · rw [texSubImage2D_width, width]
  · rw [texSubImage2D_height, height]
  · rw [texSubImage2D_texel ⟨width.ge, height.ge⟩ ⟨left, above⟩, Option.map_some, pixel, tag]

theorem HoldsPlane.congr {tex : Texture Nat} (holds : HoldsPlane p tex) (width : q.width = p.width)
    (height : q.height = p.height) (tag : q.data.tag = p.data.tag) : HoldsPlane q tex := by
  unfold HoldsPlane
  rw [width, height, tag]
  exact holds

theorem uploadPlaneTight_holds (sized : PlaneSized plane) (rowLength : Bool) (p : PlaneSource) :
    HoldsPlane p (uploadPlaneTight rowLength p plane).tex := by
  obtain ⟨width, height⟩ := sized.tightTransfer_exact rowLength p
  exact HoldsPlane.of_transfer width height rfl _ _

theorem uploadPlaneFromReadyPbo_holds (sized : PlaneSized plane) (carries : Carries q plane) (rowLength : Bool)
    (allocates : AllocatesReady alignment plane) (ids : plane.pbo.ids = true) :
    HoldsPlane q (uploadPlaneFromReadyPbo rowLength alignment plane).1.tex := by
  unfold uploadPlaneFromReadyPbo
  split
  · rename_i idle
    exact (carries_of_idle idle).mp carries
  · rename_i index waiting
    rw [Carries, waiting] at carries
    obtain ⟨readyW, readyH, block, stored, tag⟩ := carries
    obtain ⟨width, height, _⟩ := allocatePlane_size sized (allocates ids index waiting)
    simp only [allocatePlane_pbo, stored, transferFromStore]
    rw [readyW, readyH] at width height ⊢
    exact HoldsPlane.of_transfer width height tag _ _

theorem uploadPlaneTight_pbo (rowLength : Bool) (p : PlaneSource) (plane : Plane) :
    (uploadPlaneTight rowLength p plane).pbo = plane.pbo := allocatePlane_pbo ..

theorem uploadPlaneFromReadyPbo_pbo (rowLength : Bool) (alignment : Nat) (plane : Plane) :
    (uploadPlaneFromReadyPbo rowLength alignment plane).1.pbo = plane.pbo := by
  unfold uploadPlaneFromReadyPbo
  split
  · rfl
  · rename_i index _
    simp only
    generalize (allocatePlane (allocates alignment plane.pbo index) plane plane.pbo.readyW plane.pbo.readyH).pbo.store _ = data
    cases data <;> exact allocatePlane_pbo ..

theorem stagePlaneIntoPbo_ids (rowLength : Bool) (gl : StageOutcome) (p : PlaneSource) (pbo : PlaneUploadPbo) :
    (stagePlaneIntoPbo rowLength gl p pbo).1.ids = pbo.ids := by
  unfold stagePlaneIntoPbo
  split
  · simp only
    split <;> rfl
  · rfl

theorem uploadPlaneViaPboAsync_ids (rowLength : Bool) (alignment : Nat) (gl : StageOutcome) (p : PlaneSource) (plane : Plane) :
    (uploadPlaneViaPboAsync rowLength alignment gl p plane).1.pbo.ids = plane.pbo.ids := by
  have staged := stagePlaneIntoPbo_ids rowLength gl p plane.pbo
  unfold uploadPlaneViaPboAsync
  split
  · simp only [uploadPlaneFromReadyPbo_pbo]
    split
    · exact staged
    · rw [uploadPlaneTight_pbo]
      exact staged
  · rw [uploadPlaneTight_pbo]

/-- Only a buffer that has a name is ever ready. -/
def ReadyNamed (plane : Plane) : Prop := plane.pbo.ids = false → readyBuffer plane.pbo = none

theorem readyNamed_kept : KeptByUploads Anyhow ReadyNamed where
  idle _ _ _ := trivial
  reset plane _ _ := readyBuffer_reset plane.pbo
  tight rowLength p plane named := by
    rw [ReadyNamed, uploadPlaneTight_pbo]
    exact named
  async rowLength alignment gl p plane _ named := by
    intro absent
    rw [uploadPlaneViaPboAsync_ids] at absent
    rw [uploadPlaneViaPboAsync, if_neg (by simp [absent]), uploadPlaneTight_pbo]
    exact named absent

/-! One plane of an upload. -/

/-- What is done to one plane: the source, and whether it goes to the texture
directly instead of through a buffer. -/
structure PlaneStep where
  source : PlaneSource
  before : Plane
  direct : Bool
  after : Plane
  uploaded : Bool

/-- A plane that goes through a buffer is one frame late. -/
structure PlaneStep.Valid (buffers : Bool) (u : PlaneStep) : Prop where
  lags : u.direct = false → ∀ q, Carries q u.before → HoldsPlane q u.after.tex
  direct : u.direct = true → HoldsPlane u.source u.after.tex
  carries : buffers = true → Carries u.source u.after

/-- With nothing ready before it, it is not uploaded yet. -/
def PlaneStep.Waits (u : PlaneStep) : Prop := u.direct = false → readyBuffer u.before.pbo = none → u.uploaded = false

def asyncStep (rowLength : Bool) (alignment : Nat) (gl : StageOutcome) (p : PlaneSource) (plane : Plane) : PlaneStep where
  source := p
  before := plane
  direct := !decide (Staged gl plane)
  after := (uploadPlaneViaPboAsync rowLength alignment gl p plane).1
  uploaded := (uploadPlaneViaPboAsync rowLength alignment gl p plane).2

/-- The plane `p`, in the form `tight` in which it is uploaded without buffers. -/
def tightStep (rowLength : Bool) (p tight : PlaneSource) (plane : Plane) : PlaneStep where
  source := p
  before := plane
  direct := true
  after := uploadPlaneTight rowLength tight plane
  uploaded := true

theorem tightStep_valid (sized : PlaneSized plane) (rowLength : Bool) {tight : PlaneSource} (width : p.width = tight.width)
    (height : p.height = tight.height) (tag : p.data.tag = tight.data.tag) :
    (tightStep rowLength p tight plane).Valid false where
  lags buffered := absurd buffered.symm Bool.false_ne_true
  direct _ := (uploadPlaneTight_holds sized rowLength tight).congr width height tag
  carries buffers := absurd buffers Bool.false_ne_true

theorem tightStep_waits (rowLength : Bool) (p tight : PlaneSource) (plane : Plane) :
    (tightStep rowLength p tight plane).Waits := fun buffered => absurd buffered.symm Bool.false_ne_true

/-- A staged plane is ready for the next upload, and its texture gets what was
ready before. -/
theorem uploadPlaneViaPboAsync_staged (sized : PlaneSized plane) (rowLength : Bool) (p : PlaneSource)
    (allocates : AllocatesReady alignment plane) (staged : Staged gl plane) :
    (∀ q, Carries q plane → HoldsPlane q (uploadPlaneViaPboAsync rowLength alignment gl p plane).1.tex) ∧
      Carries p (uploadPlaneViaPboAsync rowLength alignment gl p plane).1 := by
  obtain ⟨ids, mapped, unmapped⟩ := staged
  obtain ⟨next, index, made, _, waiting, stored, readyW, readyH⟩ := stagePlaneIntoPbo_staged rowLength p ids mapped unmapped
  have holds (q : PlaneSource) (carries : Carries q plane) :=
    uploadPlaneFromReadyPbo_holds sized carries rowLength allocates ids
  unfold uploadPlaneViaPboAsync
  rw [if_pos ids]
  simp only [uploadPlaneFromReadyPbo_pbo, made, if_true]
  refine ⟨holds, ?_⟩
  rw [Carries, waiting]
  exact ⟨readyW, readyH, _, stored, rfl⟩

/-- After a plane whose staging fails nothing is ready. -/
theorem uploadPlaneViaPboAsync_idle (named : ReadyNamed plane) (rowLength : Bool) (alignment : Nat) (p : PlaneSource)
    (failed : ¬ Staged gl plane) : readyBuffer (uploadPlaneViaPboAsync rowLength alignment gl p plane).1.pbo = none := by
  unfold uploadPlaneViaPboAsync
  by_cases ids : plane.pbo.ids = true
  · have failed : ¬ (gl.mapped = true ∧ gl.unmapped = true) := fun done => failed ⟨ids, done⟩
    obtain ⟨next, made, _⟩ := stagePlaneIntoPbo_failed rowLength p plane.pbo failed
    rw [if_pos ids]
    simp only [uploadPlaneFromReadyPbo_pbo, made, Bool.false_eq_true, if_false, uploadPlaneTight_pbo]
    exact readyBuffer_reset next
  · rw [if_neg ids, uploadPlaneTight_pbo]
    exact named (by simpa using ids)

/-- It goes to the texture at once. -/
theorem uploadPlaneViaPboAsync_direct (sized : PlaneSized plane) (rowLength : Bool) (p : PlaneSource)
    (allocates : AllocatesReady alignment plane) (failed : ¬ Staged gl plane) :
    HoldsPlane p (uploadPlaneViaPboAsync rowLength alignment gl p plane).1.tex := by
  unfold uploadPlaneViaPboAsync
  by_cases ids : plane.pbo.ids = true
  · have failed : ¬ (gl.mapped = true ∧ gl.unmapped = true) := fun done => failed ⟨ids, done⟩
    obtain ⟨next, made, _⟩ := stagePlaneIntoPbo_failed rowLength p plane.pbo failed
    have reset : PlaneSized { (uploadPlaneFromReadyPbo rowLength alignment plane).1 with pbo := resetPlaneUploadPbo next } :=
      sized.ready rowLength allocates ids
    rw [if_pos ids]
    simp only [uploadPlaneFromReadyPbo_pbo, made, Bool.false_eq_true, if_false]
    exact uploadPlaneTight_holds reset rowLength p
  · rw [if_neg ids]
    exact uploadPlaneTight_holds sized rowLength p

theorem asyncStep_valid (sized : PlaneSized plane) (named : ReadyNamed plane) (allocates : AllocatesReady alignment plane)
    (rowLength : Bool) (gl : StageOutcome) (p : PlaneSource) : (asyncStep rowLength alignment gl p plane).Valid true := by
  by_cases staged : Staged gl plane
  · obtain ⟨lags, carries⟩ := uploadPlaneViaPboAsync_staged sized rowLength p allocates staged
    refine ⟨fun _ => lags, fun direct => ?_, fun _ => carries⟩
    simp [asyncStep, staged] at direct
  · have holds := uploadPlaneViaPboAsync_direct sized rowLength p allocates staged
    have idle := uploadPlaneViaPboAsync_idle named rowLength alignment p staged
    refine ⟨fun late => ?_, fun _ => holds, fun _ => (carries_of_idle idle).mpr holds⟩
    simp [asyncStep, staged] at late

theorem asyncStep_waits (rowLength : Bool) (alignment : Nat) (gl : StageOutcome) (p : PlaneSource) (plane : Plane) :
    (asyncStep rowLength alignment gl p plane).Waits := by
  intro late idle
  have idle : readyBuffer plane.pbo = none := idle
  have staged : Staged gl plane := by simpa [asyncStep] using late
  obtain ⟨next, index, made, _⟩ := stagePlaneIntoPbo_staged rowLength p staged.1 staged.2.1 staged.2.2
  simp only [asyncStep, uploadPlaneViaPboAsync, if_pos staged.1, uploadPlaneFromReadyPbo_idle idle, made, if_true]

/-! All planes of an upload. -/

section steps
variable {buffers : Bool} {steps : List PlaneStep} (valid : ∀ u ∈ steps, u.Valid buffers)
include valid

theorem holds_of_direct (direct : ∀ u ∈ steps, u.direct = true) :
    List.Forall₂ HoldsPlane (steps.map PlaneStep.source) (steps.map fun u => u.after.tex) := by
  rw [List.forall₂_map_left_iff, List.forall₂_map_right_iff, List.forall₂_same]
  exact fun u member => (valid u member).direct (direct u member)

theorem carries_after (inUse : buffers = true) :
    List.Forall₂ Carries (steps.map PlaneStep.source) (steps.map PlaneStep.after) := by
  rw [List.forall₂_map_left_iff, List.forall₂_map_right_iff, List.forall₂_same]
  exact fun u member => (valid u member).carries inUse

/-- When all planes go through buffers, the textures get the frame before. -/
theorem holds_of_staged {sources : List PlaneSource} (late : ∀ u ∈ steps, u.direct = false)
    (carried : List.Forall₂ Carries sources (steps.map PlaneStep.before)) :
    List.Forall₂ HoldsPlane sources (steps.map fun u => u.after.tex) := by
  rw [List.forall₂_map_right_iff] at carried ⊢
  have both : List.Forall₂ (flip fun q u => (u.Valid buffers ∧ u.direct = false) ∧ Carries q u.before) steps sources :=
    (List.forall₂_and_left ..).mpr ⟨fun u member => ⟨valid u member, late u member⟩, carried.flip⟩
  exact both.flip.imp fun q u ⟨⟨valid, late⟩, carries⟩ => valid.lags late q carries

end steps

theorem not_uploaded_of_waiting {steps : List PlaneStep} (waits : ∀ u ∈ steps, u.Waits)
    (waiting : ∃ u ∈ steps, u.direct = false ∧ readyBuffer u.before.pbo = none) : steps.all PlaneStep.uploaded = false := by
  obtain ⟨u, member, late, idle⟩ := waiting
  exact List.all_eq_false.mpr ⟨u, member, by simp [waits u member late idle]⟩

def usedPlanes (node : RenderNode) : UploadPathKind → List Plane
  | .nv12 => [node.planeY, node.planeUV]
  | .i420 => [node.planeY, node.planeU, node.planeV]
  | _ => []

theorem map_pathPlanes (gl : GlResults) (node : RenderNode) (path : UploadPathKind) :
    (pathPlanes gl node path).map Prod.snd = usedPlanes node path := by
  cases path <;> rfl

/-- The cached sizes of the planes of a path are right, and every allocation
that is made for them succeeds. -/
def PathSized (gl : GlResults) (node : RenderNode) (path : UploadPathKind) : Prop :=
  (∀ u ∈ pathPlanes gl node path, PlaneSized u.2) ∧
    (node.supportsPixelUnpackBuffer = true → EachFinds AllocatesReady node.unpackAlignment (pathPlanes gl node path))

instance (gl : GlResults) (node : RenderNode) (path : UploadPathKind) : Decidable (PathSized gl node path) :=
  inferInstanceAs (Decidable ((∀ u ∈ pathPlanes gl node path, PlaneSized u.2) ∧ (_ → _)))

/-- The upload of a frame on a path, plane by plane. -/
structure FrameUpload (gl : GlResults) (path : UploadPathKind) (sources : List PlaneSource) (node next : RenderNode)
    (uploaded : Bool) (steps : List PlaneStep) : Prop where
  valid : PathSized gl node path → ∀ u ∈ steps, u.Valid node.supportsPixelUnpackBuffer
  waits : ∀ u ∈ steps, u.Waits
  sources : steps.map PlaneStep.source = sources
  before : steps.map (fun u => (u.before, u.direct)) = (pathPlanes gl node path).map fun u =>
    (u.2, !(node.supportsPixelUnpackBuffer && decide (Staged u.1 u.2)))
  after : steps.map PlaneStep.after = usedPlanes next path
  all : uploaded = steps.all PlaneStep.uploaded

variable {results : GlResults} {node next : RenderNode} {number : Nat}

theorem uploadNv12Planes_steps (named : ∀ plane ∈ node.planes, ReadyNamed plane) (gl : GlResults) (number : Nat)
    (b : NV12Buffer) :
    ∃ steps, FrameUpload gl .nv12 [nv12PlaneY number b, nv12PlaneUV number b] node
      (uploadNv12Planes gl number b node).1 (uploadNv12Planes gl number b node).2 steps := by
  rw [forall_planes] at named
  obtain ⟨y, _, _, uv⟩ := named
  let rowLength := node.supportsUnpackRowLength
  let alignmentUV := alignmentAfter gl.y node.planeY node.unpackAlignment
  by_cases buffers : node.supportsPixelUnpackBuffer = true
  · refine ⟨[asyncStep rowLength node.unpackAlignment gl.y (nv12PlaneY number b) node.planeY,
      asyncStep rowLength alignmentUV gl.uv (nv12PlaneUV number b) node.planeUV], fun sized => ?_, ?_, rfl, ?_, ?_, ?_⟩
    · obtain ⟨sized, finds⟩ := sized
      obtain ⟨allocatesY, allocatesUV, _⟩ := finds buffers
      rw [forall_pathPlanes_nv12] at sized
      simp [buffers, asyncStep_valid sized.1 y allocatesY, asyncStep_valid sized.2 uv allocatesUV, alignmentUV]
    · simp [asyncStep_waits]
    · simp [pathPlanes, asyncStep, buffers]
    · simp [uploadNv12Planes, buffers, usedPlanes, asyncStep, rowLength, alignmentUV]
    · simp [uploadNv12Planes, buffers, asyncStep, rowLength, alignmentUV]
  · refine ⟨[tightStep rowLength (nv12PlaneY number b) (nv12TightY rowLength number b) node.planeY,
      tightStep rowLength (nv12PlaneUV number b) (nv12TightUV rowLength number b) node.planeUV], fun sized => ?_, ?_, rfl, ?_,
      ?_, ?_⟩
    · obtain ⟨sizedY, sizedUV⟩ := (forall_pathPlanes_nv12 gl node).mp sized.1
      have tightY : (tightStep rowLength (nv12PlaneY number b) (nv12TightY rowLength number b) node.planeY).Valid false :=
        tightStep_valid sizedY rowLength rfl rfl (prepareTightPlaneIfNeeded_tag ..).symm
      have tightUV : (tightStep rowLength (nv12PlaneUV number b) (nv12TightUV rowLength number b) node.planeUV).Valid false :=
        tightStep_valid sizedUV rowLength rfl rfl rfl
      simp [buffers, tightY, tightUV]
    · simp [tightStep_waits]
    · simp [pathPlanes, tightStep, buffers]
    · simp [uploadNv12Planes, buffers, usedPlanes, tightStep, rowLength]
    · simp [uploadNv12Planes, buffers, tightStep]

theorem uploadI420Planes_steps (named : ∀ plane ∈ node.planes, ReadyNamed plane) (gl : GlResults) (number : Nat)
    (b : I420Buffer) :
    ∃ steps, FrameUpload gl .i420 [i420PlaneY number b, i420PlaneU number b, i420PlaneV number b] node
      (uploadI420Planes gl number b node).1 (uploadI420Planes gl number b node).2 steps := by
  rw [forall_planes] at named
  obtain ⟨y, u, v, _⟩ := named
  let rowLength := node.supportsUnpackRowLength
  let alignmentU := alignmentAfter gl.y node.planeY node.unpackAlignment
  let alignmentV := alignmentAfter gl.u node.planeU alignmentU
  by_cases buffers : node.supportsPixelUnpackBuffer = true
  · refine ⟨[asyncStep rowLength node.unpackAlignment gl.y (i420PlaneY number b) node.planeY,
      asyncStep rowLength alignmentU gl.u (i420PlaneU number b) node.planeU,
      asyncStep rowLength alignmentV gl.v (i420PlaneV number b) node.planeV], fun sized => ?_, ?_, rfl, ?_, ?_, ?_⟩
    · obtain ⟨sized, finds⟩ := sized
      obtain ⟨allocatesY, allocatesU, allocatesV, _⟩ := finds buffers
      rw [forall_pathPlanes_i420] at sized
      simp [buffers, asyncStep_valid sized.1 y allocatesY, asyncStep_valid sized.2.1 u allocatesU,
        asyncStep_valid sized.2.2 v allocatesV, alignmentU, alignmentV]
    · simp [asyncStep_waits]
    · simp [pathPlanes, asyncStep, buffers]
    · simp [uploadI420Planes, buffers, usedPlanes, asyncStep, rowLength, alignmentU, alignmentV]
    · simp [uploadI420Planes, buffers, asyncStep, rowLength, alignmentU, alignmentV, Bool.and_assoc]
  · refine ⟨[tightStep rowLength (i420PlaneY number b) (i420Tight rowLength (i420PlaneY number b)) node.planeY,
      tightStep rowLength (i420PlaneU number b) (i420Tight rowLength (i420PlaneU number b)) node.planeU,
      tightStep rowLength (i420PlaneV number b) (i420Tight rowLength (i420PlaneV number b)) node.planeV], fun sized => ?_, ?_,
      rfl, ?_, ?_, ?_⟩
    · obtain ⟨sizedY, sizedU, sizedV⟩ := (forall_pathPlanes_i420 gl node).mp sized.1
      have tight (p : PlaneSource) {plane : Plane} (sized : PlaneSized plane) :
          (tightStep rowLength p (i420Tight rowLength p) plane).Valid false :=
        tightStep_valid sized rowLength rfl rfl (prepareTightPlaneIfNeeded_tag ..).symm
      simp [buffers, tight _ sizedY, tight _ sizedU, tight _ sizedV]
    · simp [tightStep_waits]
    · simp [pathPlanes, tightStep, buffers]
    · simp [uploadI420Planes, buffers, usedPlanes, tightStep, rowLength]
    · simp [uploadI420Planes, buffers, tightStep]

section upload
variable {path : UploadPathKind} {sources : List PlaneSource} {uploaded : Bool} {steps : List PlaneStep}
  (upload : FrameUpload results path sources node next uploaded steps)
include upload

theorem FrameUpload.goes {u : PlaneStep} (member : u ∈ steps) :
    ∃ w ∈ pathPlanes results node path, u.direct = !(node.supportsPixelUnpackBuffer && decide (Staged w.1 w.2)) := by
  have listed : (u.before, u.direct) ∈ steps.map fun u => (u.before, u.direct) := List.mem_map.mpr ⟨u, member, rfl⟩
  rw [upload.before] at listed
  obtain ⟨w, used, same⟩ := List.mem_map.mp listed
  exact ⟨w, used, (Prod.mk.inj same).2.symm⟩

theorem FrameUpload.textures : (usedPlanes next path).map Plane.tex = steps.map fun u => u.after.tex := by
  rw [← upload.after, List.map_map]
  rfl

theorem FrameUpload.befores : steps.map PlaneStep.before = usedPlanes node path := by
  have firsts := congrArg (List.map Prod.fst) upload.before
  rw [List.map_map, List.map_map] at firsts
  exact firsts.trans (map_pathPlanes results node path)

theorem FrameUpload.holds_direct (sized : PathSized results node path)
    (direct : node.supportsPixelUnpackBuffer = false ∨ Direct results node path) :
    List.Forall₂ HoldsPlane sources ((usedPlanes next path).map Plane.tex) := by
  rw [upload.textures, ← upload.sources]
  refine holds_of_direct (upload.valid sized) fun u member => ?_
  obtain ⟨w, used, same⟩ := upload.goes member
  rw [same]
  rcases direct with none | failed
  · simp [none]
  · simp [failed w used]

theorem FrameUpload.holds_staged {earlier : List PlaneSource} (sized : PathSized results node path)
    (buffers : node.supportsPixelUnpackBuffer = true)
    (staged : ∀ w ∈ pathPlanes results node path, Staged w.1 w.2)
    (carried : List.Forall₂ Carries earlier (usedPlanes node path)) :
    List.Forall₂ HoldsPlane earlier ((usedPlanes next path).map Plane.tex) := by
  rw [upload.textures]
  rw [← upload.befores] at carried
  refine holds_of_staged (upload.valid sized) (fun u member => ?_) carried
  obtain ⟨w, used, same⟩ := upload.goes member
  rw [same]
  simp [buffers, staged w used]

theorem FrameUpload.incomplete (buffers : node.supportsPixelUnpackBuffer = true) (waiting : Incomplete results node path) :
    uploaded = false := by
  obtain ⟨w, used, idle, staged⟩ := waiting
  have listed := List.mem_map_of_mem (f := fun w : StageOutcome × Plane =>
    (w.2, !(node.supportsPixelUnpackBuffer && decide (Staged w.1 w.2)))) used
  rw [← upload.before] at listed
  obtain ⟨u, member, same⟩ := List.mem_map.mp listed
  obtain ⟨before, direct⟩ := Prod.mk.inj same
  rw [upload.all]
  refine not_uploaded_of_waiting upload.waits ⟨u, member, ?_, ?_⟩
  · rw [direct]
    simp [buffers, staged]
  · rw [before]
    exact idle

theorem FrameUpload.carries (sized : PathSized results node path) (buffers : node.supportsPixelUnpackBuffer = true) :
    List.Forall₂ Carries sources (usedPlanes next path) := by
  rw [← upload.after, ← upload.sources]
  exact carries_after (upload.valid sized) buffers

end upload

/-- What the upload of a frame on a path with planes leaves. -/
structure CpuUpload (gl : GlResults) (path : UploadPathKind) (frame : QueuedFrame) (node next : RenderNode) : Prop where
  planes : ∃ steps, FrameUpload gl path (planesOf frame) (enterCpuPath path node) next
    next.uploadStatsValidForLastFrame steps
  here : next.lastUploadPath = path
  shown : next.hasData = ((enterCpuPath path node).hasData || next.uploadStatsValidForLastFrame)
  drawn : next.hasData = true → draw next = .drew ((usedPlanes next path).map Plane.tex)
  taken : next.heldBuffer = none

theorem enterCpuPath_flags (path : UploadPathKind) (node : RenderNode) :
    (enterCpuPath path node).lastUploadPath = path ∧ (enterCpuPath path node).frameIsOes = node.frameIsOes ∧
      (enterCpuPath path node).frameIsNv12 = node.frameIsNv12 := by
  unfold enterCpuPath
  split
  · rename_i same
    exact ⟨same, rfl, rfl⟩
  · exact ⟨rfl, rfl, rfl⟩

theorem uploadNv12_cpu (named : ∀ plane ∈ node.planes, ReadyNamed plane) (gl : GlResults) (number : Nat) (b : NV12Buffer)
    (flat : node.frameIsOes = false) : CpuUpload gl .nv12 ⟨number, .nv12 b⟩ node (uploadNv12 gl number b node) := by
  obtain ⟨here, oes, _⟩ := enterCpuPath_flags .nv12 node
  obtain ⟨steps, upload⟩ := uploadNv12Planes_steps (readyNamed_kept.enterCpuPath .nv12 named) gl number b
  obtain ⟨y, uv, alignment, rest⟩ := uploadNv12Planes_rest gl number b (enterCpuPath .nv12 node)
  unfold uploadNv12
  generalize uploadNv12Planes gl number b (enterCpuPath .nv12 node) = made at upload rest
  obtain ⟨next, uploaded⟩ := made
  simp only at rest
  subst rest
  refine ⟨⟨steps, upload.valid, upload.waits, upload.sources, upload.before, upload.after, upload.all⟩, here, rfl,
    fun shown => ?_, rfl⟩
  simp only at shown
  simp [draw, sampledTextures, usedPlanes, oes, flat, shown]

theorem uploadI420_cpu (named : ∀ plane ∈ node.planes, ReadyNamed plane) (gl : GlResults) {frame : QueuedFrame}
    {b : I420Buffer} (resolved : resolveI420ForUpload frame.buffer = some b) (flat : node.frameIsOes = false)
    (planar : node.frameIsNv12 = false) : CpuUpload gl .i420 frame node (uploadI420 gl frame node) := by
  have sources : planesOf frame = [i420PlaneY frame.number b, i420PlaneU frame.number b, i420PlaneV frame.number b] := by
    unfold planesOf
    split
    · rename_i nv12 buffer
      rw [buffer] at resolved
      cases resolved
    · rw [resolved]
      rfl
  obtain ⟨here, oes, nv12⟩ := enterCpuPath_flags .i420 node
  obtain ⟨steps, upload⟩ := uploadI420Planes_steps (readyNamed_kept.enterCpuPath .i420 named) gl frame.number b
  obtain ⟨y, u, v, alignment, rest⟩ := uploadI420Planes_rest gl frame.number b (enterCpuPath .i420 node)
  rw [← sources] at upload
  unfold uploadI420
  simp only [resolved]
  generalize uploadI420Planes gl frame.number b (enterCpuPath .i420 node) = made at upload rest
  obtain ⟨next, uploaded⟩ := made
  simp only at rest
  subst rest
  refine ⟨⟨steps, upload.valid, upload.waits, upload.sources, upload.before, upload.after, upload.all⟩, here, rfl,
    fun _ => ?_, rfl⟩
  simp [draw, sampledTextures, usedPlanes, oes, flat, nv12, planar]

/-- The change to a path leaves nothing ready on it and hides the picture. -/
theorem enterCpuPath_cases (path : UploadPathKind) (node : RenderNode) :
    (node.lastUploadPath = path ∧ enterCpuPath path node = node) ∨
      (enterCpuPath path node).hasData = false ∧
        ∀ plane ∈ usedPlanes (enterCpuPath path node) path, readyBuffer plane.pbo = none := by
  unfold enterCpuPath
  split
  · rename_i same
    exact .inl ⟨same, rfl⟩
  · refine .inr ⟨rfl, ?_⟩
    cases path <;> simp [usedPlanes, resetCpuUploadPipeline, resetPlane, readyBuffer_reset]

theorem direct_or_incomplete {path : UploadPathKind} (gl : GlResults)
    (idle : ∀ plane ∈ usedPlanes node path, readyBuffer plane.pbo = none) :
    Direct gl node path ∨ Incomplete gl node path := by
  by_cases direct : Direct gl node path
  · exact .inl direct
  · simp only [Direct, not_forall, not_not] at direct
    obtain ⟨u, member, staged⟩ := direct
    have used : u.2 ∈ usedPlanes node path := by
      rw [← map_pathPlanes gl]
      exact List.mem_map_of_mem member
    exact .inr ⟨u, member, idle u.2 used, staged⟩

section cpu
variable {path : UploadPathKind} {frame : QueuedFrame} (upload : CpuUpload results path frame node next)
include upload

theorem CpuUpload.holds_direct (sized : PathSized results (enterCpuPath path node) path)
    (direct : node.supportsPixelUnpackBuffer = false ∨ Direct results (enterCpuPath path node) path) :
    HoldsFrame frame ((usedPlanes next path).map Plane.tex) := by
  obtain ⟨steps, planes⟩ := upload.planes
  refine planes.holds_direct sized ?_
  rw [(enterCpuPath_same path node).buffers]
  exact direct

theorem CpuUpload.incomplete (buffers : node.supportsPixelUnpackBuffer = true)
    (waiting : Incomplete results (enterCpuPath path node) path) : next.uploadStatsValidForLastFrame = false := by
  obtain ⟨steps, planes⟩ := upload.planes
  exact planes.incomplete ((enterCpuPath_same path node).buffers.trans buffers) waiting

/-- A path with nothing ready on it: the frame is in the textures, or it waits. -/
theorem CpuUpload.idle
    (sized : Direct results (enterCpuPath path node) path → PathSized results (enterCpuPath path node) path)
    (buffers : node.supportsPixelUnpackBuffer = true)
    (idle : ∀ plane ∈ usedPlanes (enterCpuPath path node) path, readyBuffer plane.pbo = none) :
    HoldsFrame frame ((usedPlanes next path).map Plane.tex) ∨ next.uploadStatsValidForLastFrame = false :=
  (direct_or_incomplete results idle).imp (fun direct => upload.holds_direct (sized direct) (.inr direct))
    (upload.incomplete buffers)

end cpu

/-- The flags that are reset before the planes are uploaded. -/
def clearKind (node : RenderNode) : RenderNode := { node with frameIsOes := false, frameIsNv12 := false }

@[simp] theorem pathPlanes_clearKind (gl : GlResults) (node : RenderNode) (path : UploadPathKind) :
    pathPlanes gl (clearKind node) path = pathPlanes gl node path := by
  cases path <;> rfl

theorem allocating_of_unbuffered (absent : node.supportsPixelUnpackBuffer = false) (gl : GlResults) (path : UploadPathKind) :
    Allocating gl node path := fun buffers => absurd (buffers.symm.trans absent) (by decide)

theorem allocating_clearKind {path : UploadPathKind} :
    Allocating results (clearKind node) path ↔ Allocating results node path := by
  rw [Allocating, PathFinds, PathFinds, pathPlanes_clearKind]
  rfl

/-- After an external texture no planes are drawn. -/
theorem uploadOes_drawn {textureId : Nat} (shown : (uploadOes textureId node).hasData = true) :
    draw (uploadOes textureId node) = .drewOes textureId := by
  unfold uploadOes at shown ⊢
  simp only at shown ⊢
  split at shown
  · rename_i linked
    rw [if_pos linked]
    simp [draw, linked]
  · cases shown

theorem uploadOes_rest (textureId : Nat) (node : RenderNode) :
    (uploadOes textureId node).lastUploadPath = .oes ∧ (uploadOes textureId node).heldBuffer = none := by
  have here : (enterOesPath node).lastUploadPath = .oes := by
    unfold enterOesPath
    split
    · assumption
    · rfl
  unfold uploadOes
  simp only
  split
  · exact ⟨here, rfl⟩
  · exact ⟨here, rfl⟩

/-- What becomes of the held frame: its texture is taken, its planes are
uploaded, or it hides the picture. -/
theorem uploadHeldFrame_cases (named : ∀ plane ∈ node.planes, ReadyNamed plane) (android : Bool) (gl : GlResults)
    (frame : QueuedFrame) :
    (∃ textureId, frame.buffer = .oes textureId ∧ uploadHeldFrame android gl frame node = uploadOes textureId node) ∨
      (∃ path, uploadPathOf android frame.buffer = some path ∧
        CpuUpload gl path frame (clearKind node)
          (uploadHeldFrame android gl frame node)) ∨
      uploadHeldFrame android gl frame node =
        { enterCpuPath .i420 (clearKind node) with
          uploadStatsValidForLastFrame := false, hasData := false, heldBuffer := none } := by
  obtain ⟨number, buffer⟩ := frame
  have named : ∀ plane ∈ (clearKind node).planes, ReadyNamed plane := named
  have unresolved (absent : resolveI420ForUpload buffer = none) :
      uploadI420 gl ⟨number, buffer⟩ (clearKind node) =
        { enterCpuPath .i420 (clearKind node) with
          uploadStatsValidForLastFrame := false, hasData := false, heldBuffer := none } := by
    unfold uploadI420
    simp only [absent]
  cases buffer with
  | oes textureId =>
    cases android with
    | true => exact .inl ⟨textureId, rfl, rfl⟩
    | false => exact .inr (.inr (unresolved rfl))
  | nv12 b =>
    have uploaded := uploadNv12_cpu named gl number b rfl
    cases android <;> exact .inr (.inl ⟨.nv12, rfl, uploaded⟩)
  | i420 b =>
    have uploaded : CpuUpload gl .i420 ⟨number, .i420 b⟩ _ _ := uploadI420_cpu named gl rfl rfl rfl
    cases android <;> exact .inr (.inl ⟨.i420, rfl, uploaded⟩)
  | other toI420 =>
    cases toI420 with
    | none =>
      have hidden := unresolved rfl
      cases android <;> exact .inr (.inr hidden)
    | some b =>
      have uploaded : CpuUpload gl .i420 ⟨number, .other (some b)⟩ _ _ := uploadI420_cpu named gl rfl rfl rfl
      cases android <;> exact .inr (.inl ⟨.i420, rfl, uploaded⟩)

/-- What the upload at the start of `render` does, if one is due. -/
theorem uploadIfPending_cases (named : ∀ plane ∈ node.planes, ReadyNamed plane) (android : Bool) (gl : GlResults) :
    (node.pendingUpload = false ∧ uploadIfPending android gl node = node) ∨
      uploadIfPending android gl node =
        { node with pendingUpload := false, uploadStatsValidForLastFrame := false, hasData := false } ∨
      ∃ frame, node.heldBuffer = some frame ∧
        ((∃ textureId, frame.buffer = .oes textureId ∧
          uploadIfPending android gl node = uploadOes textureId { node with pendingUpload := false }) ∨
        (∃ path ∈ nextUploadPath android node,
          CpuUpload gl path frame (clearKind { node with pendingUpload := false }) (uploadIfPending android gl node)) ∨
        uploadIfPending android gl node =
          { enterCpuPath .i420 (clearKind { node with pendingUpload := false }) with
            uploadStatsValidForLastFrame := false, hasData := false, heldBuffer := none }) := by
  by_cases pending : node.pendingUpload = true
  · rcases Option.eq_none_or_eq_some node.heldBuffer with empty | ⟨frame, holding⟩
    · refine .inr (.inl ?_)
      simp [uploadIfPending, uploadPendingFrame, pending, empty]
    · have due : nextUploadPath android node = uploadPathOf android frame.buffer := by
        simp [nextUploadPath, pending, holding]
      have same : uploadIfPending android gl node = uploadHeldFrame android gl frame { node with pendingUpload := false } := by
        rw [uploadIfPending, if_pos pending, uploadPendingFrame, holding]
      have started : ∀ plane ∈ RenderNode.planes { node with pendingUpload := false }, ReadyNamed plane := named
      rw [due, same]
      exact .inr (.inr ⟨frame, holding, uploadHeldFrame_cases started android gl frame⟩)
  · exact .inl ⟨by simpa using pending, if_neg pending⟩

/-! What holds of a node as long as its textures are not deleted. -/

/-- Before the textures are made nothing is drawn and nothing is ready. -/
structure NodeSteady (node : RenderNode) : Prop where
  named : ∀ plane ∈ node.planes, ReadyNamed plane
  fresh : node.glInitialized = false → node.hasData = false ∧ ∀ plane ∈ node.planes, readyBuffer plane.pbo = none

theorem NodeSteady.new : NodeSteady {} := by
  refine ⟨?_, fun _ => ⟨rfl, ?_⟩⟩
  · simp [ReadyNamed, readyBuffer]
  · simp [readyBuffer]

theorem NodeSteady.of_idle (idle : ∀ plane ∈ node.planes, readyBuffer plane.pbo = none)
    (initialized : node.glInitialized = true) : NodeSteady node := by
  refine ⟨fun plane member _ => idle plane member, fun absent => ?_⟩
  rw [initialized] at absent
  cases absent

theorem NodeSteady.sync (steady : NodeSteady node) (item : VideoRenderer) : NodeSteady (Renderer.sync item node).2 := by
  rcases sync_cases item node with ⟨frame, _, same⟩ | same | same
  · rw [same]
    exact ⟨steady.named, steady.fresh⟩
  · rw [same]
    exact ⟨steady.named, steady.fresh⟩
  · rw [same]
    exact ⟨steady.named, fun absent => ⟨rfl, (steady.fresh absent).2⟩⟩

theorem genPlane_ready (supported : Bool) (plane : Plane) :
    readyBuffer (genPlane supported plane).pbo = readyBuffer plane.pbo := by
  cases supported <;> rfl

/-- The textures are there already, or there is nothing to draw with them yet. -/
theorem NodeSteady.initialize {android : Bool} (steady : NodeSteady node)
    (initialized : ensureInitialized android results node = some next) :
    NodeSteady next ∧ (next = node ∨ next.hasData = false ∧ next.heldBuffer = node.heldBuffer ∧
      next.pendingUpload = node.pendingUpload ∧ next.glQueueTrace = node.glQueueTrace ∧
      ∀ plane ∈ next.planes, readyBuffer plane.pbo = none) := by
  unfold ensureInitialized at initialized
  split at initialized
  · cases initialized
    exact ⟨steady, .inl rfl⟩
  · rename_i absent
    split at initialized
    · cases initialized
      obtain ⟨hidden, idle⟩ := steady.fresh (by simpa using absent)
      rw [forall_planes] at idle
      have nothing (supported : Bool) {plane : Plane} (idle : readyBuffer plane.pbo = none) :
          readyBuffer (genPlane supported plane).pbo = none := (genPlane_ready supported plane).trans idle
      refine ⟨.of_idle ?_ rfl, .inr ⟨hidden, rfl, rfl, rfl, ?_⟩⟩
      all_goals
        rw [forall_planes]
        exact ⟨nothing _ idle.1, nothing _ idle.2.1, nothing _ idle.2.2.1, nothing _ idle.2.2.2⟩
    · cases initialized

theorem NodeSteady.upload (steady : NodeSteady node) (initialized : node.glInitialized = true) (android : Bool)
    (gl : GlResults) : NodeSteady (uploadIfPending android gl node) := by
  have there : (uploadIfPending android gl node).glInitialized = true :=
    (uploadIfPending_same android gl node).initialized.trans initialized
  refine ⟨readyNamed_kept.uploadIfPending android gl (fun path _ => pathFinds_anyhow gl node path) steady.named, fun absent => ?_⟩
  rw [there] at absent
  cases absent

/-- A path whose planes have the right size, before an upload whose allocations succeed. -/
theorem pathSized_of_allocating {path : UploadPathKind} (sized : ∀ plane ∈ node.planes, PlaneSized plane)
    (allocating : Allocating results node path) : PathSized results (enterCpuPath path node) path := by
  refine ⟨?_, (pathFinds_entered allocatesReady_of_idle results node path).mpr allocating⟩
  have entered := planeSized_kept.enterCpuPath path sized
  rw [forall_planes] at entered
  obtain ⟨y, u, v, uv⟩ := entered
  cases path with
  | nv12 => exact (forall_pathPlanes_nv12 ..).mpr ⟨y, uv⟩
  | i420 => exact (forall_pathPlanes_i420 ..).mpr ⟨y, u, v⟩
  | none => exact fun u member => absurd member List.not_mem_nil
  | oes => exact fun u member => absurd member List.not_mem_nil

theorem usedPlanes_subset (node : RenderNode) (path : UploadPathKind) : usedPlanes node path ⊆ node.planes := by
  cases path <;> simp [usedPlanes, RenderNode.planes]

end WebRtcDemo.Renderer
