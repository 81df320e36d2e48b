import WebRtcDemo.Renderer.Node

/-! What an upload leaves of the frames that should be gone: `old` says which
they are. -/

namespace WebRtcDemo.Renderer

open GlTexture

/-- The texture has the cached size or no storage at all, and only a buffer
that has a name is ever ready. -/
structure PlaneSound (plane : Plane) : Prop where
  size : (plane.tex.width = plane.cached.w ∧ plane.tex.height = plane.cached.h) ∨
    (plane.tex.width = 0 ∧ plane.tex.height = 0)
  named : plane.pbo.ids = false → readyBuffer plane.pbo = none

/-- Every allocation succeeds, or there is no storage yet that a failed one would leave. -/
def Packed (unpackAlignment : Nat) (plane : Plane) : Prop :=
  unpackAlignment = 1 ∨ plane.tex.width = 0 ∧ plane.tex.height = 0

/-- The picture that the next upload brings to the texture, or leaves there
when nothing is ready, is not an old one. -/
def UpToDate (old : Nat → Prop) (plane : Plane) : Prop :=
  match readyBuffer plane.pbo with
  | none => Without old plane.tex
  | some index => ∃ block, plane.pbo.store index = some block ∧ ¬ old block.tag

variable {old newer : Nat → Prop} {plane : Plane} {p : PlaneSource} {gl : StageOutcome} {rowLength : Bool} {alignment : Nat}

theorem UpToDate.mono (current : UpToDate old plane) (fewer : ∀ n, newer n → old n) : UpToDate newer plane := by
  unfold UpToDate at current ⊢
  split
  · rename_i idle
    rw [idle] at current
    exact current.mono fewer
  · rename_i index waiting
    rw [waiting] at current
    obtain ⟨block, stored, fresh⟩ := current
    exact ⟨block, stored, fun stale => fresh (fewer _ stale)⟩

theorem upToDate_of_idle (idle : readyBuffer plane.pbo = none) : UpToDate old plane ↔ Without old plane.tex := by
  rw [UpToDate, idle]

/-- Without storage there are no texels. -/
theorem without_of_no_storage {t : Texture Nat} (empty : t.width = 0 ∧ t.height = 0) : Without old t := by
  intro x y texel held
  have := t.inside x y (by rw [held]; exact Option.some_ne_none texel)
  omega

theorem readyBuffer_reset (pbo : PlaneUploadPbo) : readyBuffer (resetPlaneUploadPbo pbo) = none := rfl

theorem allocatePlane_spec {succeeds : Bool} (sound : PlaneSound plane) (w h : Nat)
    (lossless : succeeds = true ∨ plane.tex.width = 0 ∧ plane.tex.height = 0) :
    (allocatePlane succeeds plane w h).cached = ⟨w, h⟩ ∧ (allocatePlane succeeds plane w h).pbo = plane.pbo ∧
      PlaneSound (allocatePlane succeeds plane w h) := by
  unfold allocatePlane
  split
  · rename_i same
    obtain ⟨rfl, rfl⟩ := same
    exact ⟨rfl, rfl, sound⟩
  · refine ⟨rfl, rfl, ?_, sound.named⟩
    cases succeeds with
    | true => exact .inl ⟨rfl, rfl⟩
    | false => exact .inr (lossless.resolve_left Bool.false_ne_true)

theorem allocates_of_packed (pbo : PlaneUploadPbo) (index : Fin 2) : allocates 1 pbo index = true := by simp [allocates]

theorem Packed.lossless (packed : Packed alignment plane) (index : Fin 2) :
    allocates alignment plane.pbo index = true ∨ plane.tex.width = 0 ∧ plane.tex.height = 0 := by
  rcases packed with rfl | empty
  · exact .inl (allocates_of_packed plane.pbo index)
  · exact .inr empty

/-- A transfer of the cached size replaces all that the texture shows. -/
theorem PlaneSound.transfer (sound : PlaneSound plane) {src : Block Nat} (fresh : ¬ old src.tag) (rowLength bpp : Nat) :
    Without old (texSubImage2D plane.tex plane.cached.w plane.cached.h rowLength bpp src) := by
  rcases sound.size with ⟨sameW, sameH⟩ | empty
  · rw [← sameW, ← sameH]
    exact without_texSubImage2D_whole fresh rowLength bpp
  · exact (without_of_no_storage empty).texSubImage2D fresh _ _ rowLength bpp

theorem PlaneSound.withTexture (sound : PlaneSound plane) (w h rowLength bpp : Nat) (src : Block Nat) :
    PlaneSound { plane with tex := texSubImage2D plane.tex w h rowLength bpp src } := by
  refine ⟨?_, sound.named⟩
  simp only [texSubImage2D_width, texSubImage2D_height]
  exact sound.size

theorem uploadPlaneTight_spec (rowLength : Bool) (sound : PlaneSound plane) (fresh : ¬ old p.data.tag) :
    Without old (uploadPlaneTight rowLength p plane).tex ∧ PlaneSound (uploadPlaneTight rowLength p plane) ∧
      (uploadPlaneTight rowLength p plane).pbo = plane.pbo := by
  obtain ⟨size, kept, allocated⟩ := allocatePlane_spec sound p.width p.height (.inl rfl)
  refine ⟨?_, allocated.withTexture .., kept⟩
  have whole := allocated.transfer fresh (unpackRowLength rowLength p.strideBytes p.bytesPerPixel) p.bytesPerPixel
  rw [size] at whole
  exact whole

/-- Uploading what is ready leaves the buffers as they are. -/
theorem uploadPlaneFromReadyPbo_spec (old : Nat → Prop) (rowLength : Bool) (sound : PlaneSound plane)
    (packed : Packed alignment plane) :
    (uploadPlaneFromReadyPbo rowLength alignment plane).1.pbo = plane.pbo ∧
      PlaneSound (uploadPlaneFromReadyPbo rowLength alignment plane).1 ∧
      (UpToDate old plane → Without old (uploadPlaneFromReadyPbo rowLength alignment plane).1.tex) := by
  unfold uploadPlaneFromReadyPbo
  split
  · rename_i idle
    exact ⟨rfl, sound, (upToDate_of_idle idle).mp⟩
  · rename_i index waiting
    obtain ⟨size, kept, allocated⟩ := allocatePlane_spec sound plane.pbo.readyW plane.pbo.readyH (packed.lossless index)
    simp only
    generalize allocates alignment plane.pbo index = succeeds at size kept allocated ⊢
    cases stored : (allocatePlane succeeds plane plane.pbo.readyW plane.pbo.readyH).pbo.store index with
    | none =>
      refine ⟨kept, allocated, fun current => ?_⟩
      rw [UpToDate, waiting] at current
      obtain ⟨block, present, _⟩ := current
      rw [kept, present] at stored
      cases stored
    | some data =>
      refine ⟨kept, allocated.withTexture .., fun current => ?_⟩
      rw [UpToDate, waiting] at current
      obtain ⟨block, present, fresh⟩ := current
      rw [kept, present] at stored
      cases stored
      have whole := allocated.transfer fresh
        (unpackRowLength rowLength plane.pbo.readyStrideBytes plane.pbo.readyBytesPerPixel) plane.pbo.readyBytesPerPixel
      rw [size] at whole
      simp only [transferFromStore, kept]
      exact whole

theorem uploadPlaneFromReadyPbo_idle (idle : readyBuffer plane.pbo = none) :
    uploadPlaneFromReadyPbo rowLength alignment plane = (plane, false) := by
  unfold uploadPlaneFromReadyPbo
  rw [idle]

theorem stagePlaneIntoPbo_staged (rowLength : Bool) (p : PlaneSource) {pbo : PlaneUploadPbo} (ids : pbo.ids = true)
    (mapped : gl.mapped = true) (unmapped : gl.unmapped = true) :
    ∃ next index, stagePlaneIntoPbo rowLength gl p pbo = (next, true) ∧ next.ids = true ∧
      readyBuffer next = some index ∧ next.store index = some ⟨p.data.tag, copyPlaneForUpload p rowLength⟩ ∧
      next.readyW = p.width ∧ next.readyH = p.height := by
  unfold stagePlaneIntoPbo
  rw [if_pos ids]
  simp only [mapped, unmapped, and_self, if_true]
  exact ⟨_, pbo.nextStageIndex, rfl, ids, rfl, Function.update_self .., rfl, rfl⟩

theorem stagePlaneIntoPbo_failed (rowLength : Bool) (p : PlaneSource) (pbo : PlaneUploadPbo)
    (failed : ¬ (gl.mapped = true ∧ gl.unmapped = true)) :
    ∃ next, stagePlaneIntoPbo rowLength gl p pbo = (next, false) ∧ next.ids = pbo.ids := by
  unfold stagePlaneIntoPbo
  split
  · exact ⟨_, rfl, rfl⟩
  · exact ⟨pbo, rfl, rfl⟩

/-- What the asynchronous upload of a plane does, in terms of the frames that
should be gone. The texture lags behind only where the staging succeeds. -/
structure AsyncUpload (old : Nat → Prop) (gl : StageOutcome) (plane next : Plane) (uploaded : Bool) : Prop where
  sound : PlaneSound next
  ids : next.pbo.ids = plane.pbo.ids
  current : UpToDate old next
  clean : UpToDate old plane ∨ ¬ Staged gl plane → Without old next.tex
  waits : readyBuffer plane.pbo = none → Staged gl plane → uploaded = false

theorem uploadPlaneViaPboAsync_spec (rowLength : Bool) (gl : StageOutcome) (sound : PlaneSound plane)
    (packed : Packed alignment plane) (fresh : ¬ old p.data.tag) :
    AsyncUpload old gl plane (uploadPlaneViaPboAsync rowLength alignment gl p plane).1
      (uploadPlaneViaPboAsync rowLength alignment gl p plane).2 := by
  obtain ⟨kept, between, brings⟩ := uploadPlaneFromReadyPbo_spec old rowLength sound packed
  unfold uploadPlaneViaPboAsync
  by_cases ids : plane.pbo.ids = true
  · rw [if_pos ids]
    by_cases done : gl.mapped = true ∧ gl.unmapped = true
    · obtain ⟨next, index, staged, named, waiting, stored, _⟩ :=
        stagePlaneIntoPbo_staged rowLength p ids done.1 done.2
      simp only [kept, staged, if_true]
      refine ⟨⟨between.size, fun absent => ?_⟩, named.trans ids.symm, ?_, ?_, fun idle _ => ?_⟩
      · rw [named] at absent
        cases absent
      · rw [UpToDate, waiting]
        exact ⟨_, stored, fresh⟩
      · rintro (current | failed)
        · exact brings current
        · exact absurd ⟨ids, done.1, done.2⟩ failed
      · rw [uploadPlaneFromReadyPbo_idle idle]
    · obtain ⟨next, failed, named⟩ := stagePlaneIntoPbo_failed rowLength p plane.pbo done
      simp only [kept, failed, Bool.false_eq_true, if_false]
      have reset : PlaneSound
          { (uploadPlaneFromReadyPbo rowLength alignment plane).1 with pbo := resetPlaneUploadPbo next } :=
        ⟨between.size, fun _ => readyBuffer_reset next⟩
      obtain ⟨without, after, unchanged⟩ := uploadPlaneTight_spec rowLength reset fresh
      refine ⟨after, ?_, ?_, fun _ => without, fun _ staged => absurd staged.2 done⟩
      · rw [unchanged]
        exact named
      · refine (upToDate_of_idle ?_).mpr without
        rw [unchanged]
        exact readyBuffer_reset next
  · rw [if_neg ids]
    obtain ⟨without, after, unchanged⟩ := uploadPlaneTight_spec rowLength sound fresh
    refine ⟨after, by rw [unchanged], ?_, fun _ => without, fun _ staged => absurd staged.1 ids⟩
    refine (upToDate_of_idle ?_).mpr without
    rw [unchanged]
    exact sound.named (by simpa using ids)

/-- A plane that has to wait keeps its texture. -/
theorem uploadPlaneViaPboAsync_waits (rowLength : Bool) (alignment : Nat) (p : PlaneSource)
    (idle : readyBuffer plane.pbo = none) (staged : Staged gl plane) :
    (uploadPlaneViaPboAsync rowLength alignment gl p plane).1.tex = plane.tex := by
  obtain ⟨next, index, made, _⟩ := stagePlaneIntoPbo_staged rowLength p staged.1 staged.2.1 staged.2.2
  unfold uploadPlaneViaPboAsync
  rw [if_pos staged.1]
  simp only [uploadPlaneFromReadyPbo_idle idle, made, if_true]

theorem alignmentAfter_cases (gl : StageOutcome) (plane : Plane) (alignment : Nat) :
    alignmentAfter gl plane alignment = 1 ∨
      (readyBuffer plane.pbo = none ∧ Staged gl plane) ∧ alignmentAfter gl plane alignment = alignment := by
  unfold alignmentAfter
  split
  · rename_i waits
    exact .inr ⟨waits, rfl⟩
  · exact .inl rfl

theorem Packed.async (packed : Packed alignment plane) (rowLength : Bool) (gl : StageOutcome) (p : PlaneSource) :
    Packed (alignmentAfter gl plane alignment) (uploadPlaneViaPboAsync rowLength alignment gl p plane).1 := by
  rcases alignmentAfter_cases gl plane alignment with one | ⟨⟨idle, staged⟩, same⟩
  · exact .inl one
  · rw [same, Packed, uploadPlaneViaPboAsync_waits rowLength alignment p idle staged]
    exact packed

/-! The four planes of the node. -/

/-- Names for the buffers are only there while they are in use. -/
structure PlaneFit (inUse : Bool) (unpackAlignment : Nat) (plane : Plane) : Prop where
  sound : PlaneSound plane
  absent : inUse = false → plane.pbo.ids = false
  packed : Packed unpackAlignment plane

def buffersInUse (node : RenderNode) : Bool := node.glInitialized && node.supportsPixelUnpackBuffer

structure NodeSound (node : RenderNode) : Prop where
  y : PlaneFit (buffersInUse node) node.unpackAlignment node.planeY
  u : PlaneFit (buffersInUse node) node.unpackAlignment node.planeU
  v : PlaneFit (buffersInUse node) node.unpackAlignment node.planeV
  uv : PlaneFit (buffersInUse node) node.unpackAlignment node.planeUV

/-- The planes of a path, each with how its staging is going to end. -/
def pathPlanes (gl : GlResults) (node : RenderNode) : UploadPathKind → List (StageOutcome × Plane)
  | .nv12 => [(gl.y, node.planeY), (gl.uv, node.planeUV)]
  | .i420 => [(gl.y, node.planeY), (gl.u, node.planeU), (gl.v, node.planeV)]
  | _ => []

@[simp] theorem forall_pathPlanes_nv12 {P : StageOutcome × Plane → Prop} (gl : GlResults) (node : RenderNode) :
    (∀ u ∈ pathPlanes gl node .nv12, P u) ↔ P (gl.y, node.planeY) ∧ P (gl.uv, node.planeUV) := by
  simp [pathPlanes]

@[simp] theorem forall_pathPlanes_i420 {P : StageOutcome × Plane → Prop} (gl : GlResults) (node : RenderNode) :
    (∀ u ∈ pathPlanes gl node .i420, P u) ↔
      P (gl.y, node.planeY) ∧ P (gl.u, node.planeU) ∧ P (gl.v, node.planeV) := by
  simp [pathPlanes]

@[simp] theorem exists_pathPlanes_nv12 {P : StageOutcome × Plane → Prop} (gl : GlResults) (node : RenderNode) :
    (∃ u ∈ pathPlanes gl node .nv12, P u) ↔ P (gl.y, node.planeY) ∨ P (gl.uv, node.planeUV) := by
  simp [pathPlanes]

@[simp] theorem exists_pathPlanes_i420 {P : StageOutcome × Plane → Prop} (gl : GlResults) (node : RenderNode) :
    (∃ u ∈ pathPlanes gl node .i420, P u) ↔
      P (gl.y, node.planeY) ∨ P (gl.u, node.planeU) ∨ P (gl.v, node.planeV) := by
  simp [pathPlanes]

/-- Either the next upload shows nothing old, or nothing is shown and nothing
is staged that it would bring. -/
def Current (old : Nat → Prop) (node : RenderNode) : Prop :=
  ∀ gl, (∀ u ∈ pathPlanes gl node node.lastUploadPath, UpToDate old u.2) ∨
    node.hasData = false ∧ ∀ u ∈ pathPlanes gl node node.lastUploadPath, readyBuffer u.2.pbo = none

/-- What is drawn now is not an old picture. -/
def Shows (old : Nat → Prop) (node : RenderNode) : Prop :=
  node.hasData = true → ∀ textures, draw node = .drew textures → ∀ tex ∈ textures, Without old tex

/-- Some plane has nothing to bring and is staged, so that the upload of the
frame is not complete. -/
def Incomplete (gl : GlResults) (node : RenderNode) (path : UploadPathKind) : Prop :=
  ∃ u ∈ pathPlanes gl node path, readyBuffer u.2.pbo = none ∧ Staged u.1 u.2

/-- No plane is staged: all are uploaded directly. -/
def Direct (gl : GlResults) (node : RenderNode) (path : UploadPathKind) : Prop :=
  ∀ u ∈ pathPlanes gl node path, ¬ Staged u.1 u.2

/-- The upload of a frame shows no old picture. -/
def Clean (old : Nat → Prop) (gl : GlResults) (node : RenderNode) (path : UploadPathKind) : Prop :=
  (∀ u ∈ pathPlanes gl node path, UpToDate old u.2) ∨ Direct gl node path ∨
    node.hasData = false ∧ Incomplete gl node path

theorem clean_of_idle {results : GlResults} {node : RenderNode} {path : UploadPathKind} (hidden : node.hasData = false)
    (idle : ∀ u ∈ pathPlanes results node path, readyBuffer u.2.pbo = none) : Clean old results node path := by
  by_cases direct : Direct results node path
  · exact .inr (.inl direct)
  · simp only [Direct, not_forall, not_not] at direct
    obtain ⟨u, member, staged⟩ := direct
    exact .inr (.inr ⟨hidden, u, member, idle u member, staged⟩)

section fit
variable {inUse : Bool} (fit : PlaneFit inUse alignment plane)
include fit

/-- The upload of another plane leaves the alignment as it was, or sets it to 1. -/
theorem PlaneFit.after (gl : StageOutcome) (other : Plane) : PlaneFit inUse (alignmentAfter gl other alignment) plane := by
  refine ⟨fit.sound, fit.absent, ?_⟩
  rcases alignmentAfter_cases gl other alignment with one | ⟨_, same⟩
  · exact .inl one
  · rw [same]
    exact fit.packed

theorem PlaneFit.one : PlaneFit inUse 1 plane := ⟨fit.sound, fit.absent, .inl rfl⟩

theorem PlaneFit.async (rowLength : Bool) (gl : StageOutcome) (fresh : ¬ old p.data.tag) :
    PlaneFit inUse (alignmentAfter gl plane alignment) (uploadPlaneViaPboAsync rowLength alignment gl p plane).1 ∧
      AsyncUpload old gl plane (uploadPlaneViaPboAsync rowLength alignment gl p plane).1
        (uploadPlaneViaPboAsync rowLength alignment gl p plane).2 := by
  have upload := uploadPlaneViaPboAsync_spec rowLength gl fit.sound fit.packed fresh
  exact ⟨⟨upload.sound, fun unused => upload.ids.trans (fit.absent unused), fit.packed.async rowLength gl p⟩, upload⟩

theorem PlaneFit.tight (rowLength : Bool) (fresh : ¬ old p.data.tag) :
    PlaneFit inUse 1 (uploadPlaneTight rowLength p plane) ∧ Without old (uploadPlaneTight rowLength p plane).tex ∧
      (inUse = false → UpToDate old (uploadPlaneTight rowLength p plane)) := by
  obtain ⟨without, sound, kept⟩ := uploadPlaneTight_spec rowLength fit.sound fresh
  refine ⟨⟨sound, fun unused => ?_, .inl rfl⟩, without, fun unused => (upToDate_of_idle ?_).mpr without⟩
  · rw [kept]
    exact fit.absent unused
  · rw [kept]
    exact fit.sound.named (fit.absent unused)

end fit

/-- The planes after the upload of a frame on a path. -/
structure PlanesUploaded (old : Nat → Prop) (path : UploadPathKind) (node next : RenderNode) (uploaded : Bool) : Prop where
  sound : NodeSound next
  current : ∀ gl, ∀ u ∈ pathPlanes gl next path, UpToDate old u.2
  clean : (node.hasData || uploaded) = true → ∀ gl, ∀ u ∈ pathPlanes gl next path, Without old u.2.tex

variable {results : GlResults} {node : RenderNode} {number : Nat}

theorem prepareTightPlaneIfNeeded_tag (src : Block Nat) (stride w h : Nat) (rowLength : Bool) :
    (prepareTightPlaneIfNeeded src stride w h rowLength).tag = src.tag := by
  unfold prepareTightPlaneIfNeeded
  split <;> rfl

theorem uploadNv12Planes_spec (sound : NodeSound node) (fresh : ¬ old number) (b : NV12Buffer)
    (clean : node.supportsPixelUnpackBuffer = true → Clean old results node .nv12) :
    PlanesUploaded old .nv12 node (uploadNv12Planes results number b node).1
      (uploadNv12Planes results number b node).2 := by
  unfold uploadNv12Planes
  by_cases buffers : node.supportsPixelUnpackBuffer = true
  · rw [if_pos buffers]
    obtain ⟨fitY, y⟩ := sound.y.async (p := nv12PlaneY number b) node.supportsUnpackRowLength results.y fresh
    obtain ⟨fitUV, uv⟩ := (sound.uv.after results.y node.planeY).async (p := nv12PlaneUV number b)
      node.supportsUnpackRowLength results.uv fresh
    have others {plane : Plane} (fit : PlaneFit (buffersInUse node) node.unpackAlignment plane) :=
      (fit.after results.y node.planeY).after results.uv node.planeUV
    refine ⟨⟨fitY.after results.uv node.planeUV, others sound.u, others sound.v, fitUV⟩, fun gl => ?_, fun shown gl => ?_⟩
    · rw [forall_pathPlanes_nv12]
      exact ⟨y.current, uv.current⟩
    · rw [forall_pathPlanes_nv12]
      rcases clean buffers with current | direct | ⟨hidden, incomplete⟩
      · rw [forall_pathPlanes_nv12] at current
        exact ⟨y.clean (.inl current.1), uv.clean (.inl current.2)⟩
      · rw [Direct, forall_pathPlanes_nv12] at direct
        exact ⟨y.clean (.inr direct.1), uv.clean (.inr direct.2)⟩
      · -- the plane that waits keeps the frame from being shown
        exfalso
        rw [hidden, Bool.false_or, Bool.and_eq_true] at shown
        rw [Incomplete, exists_pathPlanes_nv12] at incomplete
        rcases incomplete with ⟨idle, staged⟩ | ⟨idle, staged⟩
        · exact Bool.false_ne_true ((y.waits idle staged).symm.trans shown.1)
        · exact Bool.false_ne_true ((uv.waits idle staged).symm.trans shown.2)
  · rw [if_neg buffers]
    have unused : buffersInUse node = false := by simp [buffersInUse, buffers]
    have tagY : (nv12TightY node.supportsUnpackRowLength number b).data.tag = number :=
      prepareTightPlaneIfNeeded_tag ..
    obtain ⟨fitY, withoutY, currentY⟩ := sound.y.tight node.supportsUnpackRowLength (tagY ▸ fresh)
    obtain ⟨fitUV, withoutUV, currentUV⟩ := sound.uv.tight node.supportsUnpackRowLength
      (p := nv12TightUV node.supportsUnpackRowLength number b) fresh
    refine ⟨⟨fitY, sound.u.one, sound.v.one, fitUV⟩, fun gl => ?_, fun _ gl => ?_⟩
    · rw [forall_pathPlanes_nv12]
      exact ⟨currentY unused, currentUV unused⟩
    · rw [forall_pathPlanes_nv12]
      exact ⟨withoutY, withoutUV⟩

theorem uploadI420Planes_spec (sound : NodeSound node) (fresh : ¬ old number) (b : I420Buffer)
    (clean : node.supportsPixelUnpackBuffer = true → Clean old results node .i420) :
    PlanesUploaded old .i420 node (uploadI420Planes results number b node).1
      (uploadI420Planes results number b node).2 := by
  unfold uploadI420Planes
  by_cases buffers : node.supportsPixelUnpackBuffer = true
  · rw [if_pos buffers]
    obtain ⟨fitY, y⟩ := sound.y.async (p := i420PlaneY number b) node.supportsUnpackRowLength results.y fresh
    obtain ⟨fitU, u⟩ := (sound.u.after results.y node.planeY).async (p := i420PlaneU number b)
      node.supportsUnpackRowLength results.u fresh
    obtain ⟨fitV, v⟩ := ((sound.v.after results.y node.planeY).after results.u node.planeU).async
      (p := i420PlaneV number b) node.supportsUnpackRowLength results.v fresh
    have fitUV := ((sound.uv.after results.y node.planeY).after results.u node.planeU).after results.v node.planeV
    refine ⟨⟨(fitY.after results.u node.planeU).after results.v node.planeV, fitU.after results.v node.planeV, fitV, fitUV⟩,
      fun gl => ?_, fun shown gl => ?_⟩
    · rw [forall_pathPlanes_i420]
      exact ⟨y.current, u.current, v.current⟩
    · rw [forall_pathPlanes_i420]
      rcases clean buffers with current | direct | ⟨hidden, incomplete⟩
      · rw [forall_pathPlanes_i420] at current
        exact ⟨y.clean (.inl current.1), u.clean (.inl current.2.1), v.clean (.inl current.2.2)⟩
      · rw [Direct, forall_pathPlanes_i420] at direct
        exact ⟨y.clean (.inr direct.1), u.clean (.inr direct.2.1), v.clean (.inr direct.2.2)⟩
      · exfalso
        rw [hidden, Bool.false_or, Bool.and_eq_true, Bool.and_eq_true] at shown
        rw [Incomplete, exists_pathPlanes_i420] at incomplete
        rcases incomplete with ⟨idle, staged⟩ | ⟨idle, staged⟩ | ⟨idle, staged⟩
        · exact Bool.false_ne_true ((y.waits idle staged).symm.trans shown.1.1)
        · exact Bool.false_ne_true ((u.waits idle staged).symm.trans shown.1.2)
        · exact Bool.false_ne_true ((v.waits idle staged).symm.trans shown.2)
  · rw [if_neg buffers]
    have unused : buffersInUse node = false := by simp [buffersInUse, buffers]
    have tight (p : PlaneSource) (own : ¬ old p.data.tag) : ¬ old (i420Tight node.supportsUnpackRowLength p).data.tag := by
      rwa [i420Tight, prepareTightPlaneIfNeeded_tag]
    obtain ⟨fitY, withoutY, currentY⟩ := sound.y.tight node.supportsUnpackRowLength (tight (i420PlaneY number b) fresh)
    obtain ⟨fitU, withoutU, currentU⟩ := sound.u.tight node.supportsUnpackRowLength (tight (i420PlaneU number b) fresh)
    obtain ⟨fitV, withoutV, currentV⟩ := sound.v.tight node.supportsUnpackRowLength (tight (i420PlaneV number b) fresh)
    refine ⟨⟨fitY, fitU, fitV, sound.uv.one⟩, fun gl => ?_, fun _ gl => ?_⟩
    · rw [forall_pathPlanes_i420]
      exact ⟨currentY unused, currentU unused, currentV unused⟩
    · rw [forall_pathPlanes_i420]
      exact ⟨withoutY, withoutU, withoutV⟩

end WebRtcDemo.Renderer
