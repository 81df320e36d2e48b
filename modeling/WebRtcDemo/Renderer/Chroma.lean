import WebRtcDemo.Renderer.Texels
import WebRtcDemo.Renderer.Pictures

/-! The same picture as NV12 and as I420. -/

namespace WebRtcDemo.Renderer

open GlTexture

/-- The chroma planes of an I420 buffer, of the size that its `ChromaWidth` and `ChromaHeight` say. -/
def I420Buffer.chromaU (b : I420Buffer) : PlaneSource := ⟨(b.width + 1) / 2, (b.height + 1) / 2, 1, ⟨0, b.dataU⟩, b.strideU⟩

def I420Buffer.chromaV (b : I420Buffer) : PlaneSource := ⟨(b.width + 1) / 2, (b.height + 1) / 2, 1, ⟨0, b.dataV⟩, b.strideV⟩

/-- One picture in both forms. Every chroma position has one sample of each
colour, next to each other in the one and in two planes in the other. -/
structure SamePicture (n : NV12Buffer) (i : I420Buffer) : Prop where
  width : n.width = i.width
  height : n.height = i.height
  uv : (nv12PlaneUV 0 n).Valid
  u : i.chromaU.Valid
  v : i.chromaV.Valid
  samples : ∀ cx cy, cx < (n.width + 1) / 2 → cy < (n.height + 1) / 2 →
    (nv12PlaneUV 0 n).sample cx cy = i.chromaU.sample cx cy ++ i.chromaV.sample cx cy

/-- What the capability tests ask of the current context. -/
structure GlContext where
  isOpenGLES : Bool
  majorVersion : Nat
  unpackSubimage : Bool
  deriving DecidableEq, Repr

def supportsUnpackRowLength : Option GlContext → Bool
  | none => false
  | some ctx => !ctx.isOpenGLES || decide (3 ≤ ctx.majorVersion) || ctx.unpackSubimage

def supportsPixelUnpackBuffer : Option GlContext → Bool
  | none => false
  | some ctx => !ctx.isOpenGLES || decide (3 ≤ ctx.majorVersion)

theorem supportsUnpackRowLength_of_buffers {ctx : Option GlContext} (buffers : supportsPixelUnpackBuffer ctx = true) :
    supportsUnpackRowLength ctx = true := by
  cases ctx with
  | none => cases buffers
  | some ctx =>
    simp only [supportsPixelUnpackBuffer] at buffers
    simp [supportsUnpackRowLength, buffers]

def RenderNode.chroma (node : RenderNode) : List Plane := [node.planeU, node.planeV, node.planeUV]

@[simp] theorem forall_chroma {P : Plane → Prop} (node : RenderNode) :
    (∀ plane ∈ node.chroma, P plane) ↔ P node.planeU ∧ P node.planeV ∧ P node.planeUV := by
  simp [RenderNode.chroma]

/-- A node whose capabilities are those of one context, and whose planes have
what the uploads keep (`RenderNode.Usable.uploadIfPending`). A chroma plane is
only transferred out of a buffer at alignment 1, which the luma plane leaves. -/
structure RenderNode.Usable (node : RenderNode) : Prop where
  context : ∃ ctx, node.supportsUnpackRowLength = Renderer.supportsUnpackRowLength ctx ∧
    node.supportsPixelUnpackBuffer = Renderer.supportsPixelUnpackBuffer ctx
  named : ∀ plane ∈ node.planes, ReadyNamed plane
  sized : ∀ plane ∈ node.chroma, PlaneSized plane
  packed : node.unpackAlignment = 1 ∨ readyBuffer node.planeY.pbo ≠ none ∨
    ∀ plane ∈ node.chroma, readyBuffer plane.pbo = none

abbrev UsableNode : Type := { node : RenderNode // node.Usable }

/-- The node with a new frame. -/
def received (node : RenderNode) (number : Nat) (buffer : FrameBuffer) : RenderNode :=
  { node with heldBuffer := some ⟨number, buffer⟩, pendingUpload := true }

/-- The texture of a chroma plane when the frame has arrived in it: with buffers
it is still to be transferred, which is how the next upload of the plane begins,
at the alignment 1 that the luma plane leaves. -/
def arrived (node : RenderNode) (plane : Plane) : Texture Nat :=
  if node.supportsPixelUnpackBuffer then (uploadPlaneFromReadyPbo node.supportsUnpackRowLength 1 plane).1.tex
  else plane.tex

/-- The textures have the size of the chroma planes of a `w` by `h` picture,
and every texel of the one holds the pair of those of the others. -/
structure SameChroma (number w h : Nat) (uv u v : Texture Nat) : Prop where
  sizeUV : uv.width = (w + 1) / 2 ∧ uv.height = (h + 1) / 2
  sizeU : u.width = (w + 1) / 2 ∧ u.height = (h + 1) / 2
  sizeV : v.width = (w + 1) / 2 ∧ v.height = (h + 1) / 2
  texels : ∀ cx cy, cx < (w + 1) / 2 → cy < (h + 1) / 2 → ∃ a b,
    u.texel cx cy = some ⟨number, [a]⟩ ∧ v.texel cx cy = some ⟨number, [b]⟩ ∧ uv.texel cx cy = some ⟨number, [a, b]⟩

/-- The textures that the two uploads leave. -/
def ShownAlike (android : Bool) (glN glI : GlResults) (nodeN nodeI : RenderNode) (number : Nat) (n : NV12Buffer)
    (buffer : FrameBuffer) : Prop :=
  let nextN := uploadPendingFrame android glN (received nodeN number (.nv12 n))
  let nextI := uploadPendingFrame android glI (received nodeI number buffer)
  SameChroma number n.width n.height (arrived nextN nextN.planeUV) (arrived nextI nextI.planeU) (arrived nextI nextI.planeV)

/-! One plane. -/

/-- A texture of the size of the plane, with its picture. -/
structure Arrives (p : PlaneSource) (t : Texture Nat) : Prop where
  width : t.width = p.width
  height : t.height = p.height
  picture : p.Valid → ShowsPlane t p

variable {plane : Plane} {p q : PlaneSource} {alignment : Nat}

theorem Arrives.tight (sized : PlaneSized plane) (rowLength : Bool) (width : q.width = p.width)
    (height : q.height = p.height) (picture : p.Valid → ShowsPlane (uploadPlaneTight rowLength q plane).tex p) :
    Arrives p (uploadPlaneTight rowLength q plane).tex := by
  obtain ⟨allocatedWidth, allocatedHeight, _⟩ : (allocatePlane true plane q.width q.height).tex.width = q.width ∧ _ ∧ _ :=
    allocatePlane_size sized (.inr rfl)
  refine ⟨?_, ?_, picture⟩
  · rw [uploadPlaneTight, texSubImage2D_width, allocatedWidth, width]
  · rw [uploadPlaneTight, texSubImage2D_height, allocatedHeight, height]

theorem Arrives.copied {rowLength : Bool} {index : Fin 2} (sized : PlaneSized plane)
    (copy : HoldsCopy rowLength p plane.pbo index) : Arrives p (uploadPlaneFromReadyPbo rowLength 1 plane).1.tex := by
  obtain ⟨width, height, _⟩ : (allocatePlane true plane p.width p.height).tex.width = p.width ∧ _ ∧ _ :=
    allocatePlane_size sized (.inr rfl)
  refine ⟨?_, ?_, fun valid => (copy.showsPlane valid sized).2⟩
  · unfold uploadPlaneFromReadyPbo
    simp only [copy.ready, allocates_of_packed, allocatePlane_pbo, copy.copied, transferFromStore, texSubImage2D_width,
      copy.width, copy.height, width]
  · unfold uploadPlaneFromReadyPbo
    simp only [copy.ready, allocates_of_packed, allocatePlane_pbo, copy.copied, transferFromStore, texSubImage2D_height,
      copy.width, copy.height, height]

theorem Arrives.idle (idle : readyBuffer plane.pbo = none) (rowLength : Bool) (arrives : Arrives p plane.tex) :
    Arrives p (uploadPlaneFromReadyPbo rowLength 1 plane).1.tex := by
  rw [uploadPlaneFromReadyPbo_idle idle]
  exact arrives

theorem Arrives.inPlace (sized : PlaneSized plane) (p : PlaneSource) : Arrives p (uploadPlaneTight true p plane).tex :=
  .tight sized true rfl rfl fun valid => showsPlane_padded valid sized

/-- A plane that is given to a buffer arrives: by the next upload, or at once
where the staging fails. -/
theorem Arrives.async (sized : PlaneSized plane) (named : ReadyNamed plane) (allocates : AllocatesReady alignment plane)
    (gl : StageOutcome) (p : PlaneSource) :
    Arrives p (uploadPlaneFromReadyPbo true 1 (uploadPlaneViaPboAsync true alignment gl p plane).1).1.tex := by
  by_cases staged : Staged gl plane
  · have sized := sized.async true gl p allocates
    have between := uploadPlaneFromReadyPbo_pbo true alignment plane
    obtain ⟨done, copy⟩ := stagePlaneIntoPbo_holdsCopy staged.1 staged.2.1 staged.2.2 true p
    refine .copied sized (?_ : HoldsCopy true p _ plane.pbo.nextStageIndex)
    unfold uploadPlaneViaPboAsync
    rw [if_pos staged.1]
    simp only [between, done, if_true]
    exact copy
  · refine .idle (uploadPlaneViaPboAsync_idle named true alignment p staged) true ?_
    unfold uploadPlaneViaPboAsync
    by_cases ids : plane.pbo.ids = true
    · have failed : ¬ (gl.mapped = true ∧ gl.unmapped = true) := fun done => staged ⟨ids, done⟩
      obtain ⟨next, made, _⟩ := stagePlaneIntoPbo_failed true p plane.pbo failed
      have ready : PlaneSized { (uploadPlaneFromReadyPbo true alignment plane).1 with pbo := resetPlaneUploadPbo next } :=
        sized.ready true allocates ids
      rw [if_pos ids]
      simp only [uploadPlaneFromReadyPbo_pbo, made, Bool.false_eq_true, if_false]
      exact .inPlace ready p
    · rw [if_neg ids]
      exact .inPlace sized p

theorem Arrives.packedUV (sized : PlaneSized plane) (rowLength : Bool) (number : Nat) (b : NV12Buffer) :
    Arrives (nv12PlaneUV number b) (uploadPlaneTight rowLength (nv12TightUV rowLength number b) plane).tex := by
  refine .tight sized rowLength rfl rfl fun valid => ?_
  cases rowLength with
  | true => exact showsPlane_padded valid sized
  | false => exact showsPlane_tightUV valid sized

theorem Arrives.packed (sized : PlaneSized plane) (rowLength : Bool) (luminance : p.bytesPerPixel = 1) :
    Arrives p (uploadPlaneTight rowLength (i420Tight rowLength p) plane).tex := by
  refine .tight sized rowLength rfl rfl fun valid => ?_
  cases rowLength with
  | true =>
    have same : i420Tight true p = p := by simp [i420Tight, prepareTightPlaneIfNeeded]
    rw [same]
    exact showsPlane_padded valid sized
  | false => exact showsPlane_prepared valid sized luminance p.strideBytes

/-! The node. -/

variable {node : RenderNode}

theorem RenderNode.Usable.rowLength (usable : node.Usable) (buffers : node.supportsPixelUnpackBuffer = true) :
    node.supportsUnpackRowLength = true := by
  obtain ⟨ctx, rows, same⟩ := usable.context
  rw [rows]
  exact supportsUnpackRowLength_of_buffers (same ▸ buffers)

theorem alignmentAfter_one (gl : StageOutcome) (plane : Plane) : alignmentAfter gl plane 1 = 1 := ite_self 1

theorem AllocatesReady.after (allocates : AllocatesReady alignment plane) (gl : StageOutcome) (other : Plane) :
    AllocatesReady (alignmentAfter gl other alignment) plane := by
  rcases alignmentAfter_cases gl other alignment with one | ⟨_, same⟩
  · rw [one]
    exact fun _ index _ => .inr (allocates_of_packed plane.pbo index)
  · rw [same]
    exact allocates

theorem RenderNode.Usable.allocates (usable : node.Usable) (gl : StageOutcome) (member : plane ∈ node.chroma) :
    AllocatesReady (alignmentAfter gl node.planeY node.unpackAlignment) plane := by
  have packed : alignmentAfter gl node.planeY node.unpackAlignment = 1 ∨ readyBuffer plane.pbo = none := by
    rcases usable.packed with one | waiting | idle
    · exact .inl (by rw [one, alignmentAfter_one])
    · exact .inl (if_neg fun waits => waiting waits.1)
    · exact .inr (idle plane member)
  rcases packed with one | idle
  · rw [one]
    exact fun _ index _ => .inr (allocates_of_packed plane.pbo index)
  · exact allocatesReady_of_idle _ plane idle

theorem RenderNode.Usable.reset (usable : node.Usable) : (resetCpuUploadPipeline node).Usable where
  context := usable.context
  named := readyNamed_kept.resetCpuUploadPipeline usable.named
  sized := by
    have sized := usable.sized
    rw [forall_chroma] at sized ⊢
    exact sized
  packed := .inr (.inr ((forall_chroma _).mpr ⟨rfl, rfl, rfl⟩))

theorem RenderNode.Usable.enterCpuPath (usable : node.Usable) (path : UploadPathKind) :
    (Renderer.enterCpuPath path node).Usable := by
  unfold Renderer.enterCpuPath
  split
  · exact usable
  · obtain ⟨context, named, sized, packed⟩ := usable.reset
    exact ⟨context, named, sized, packed⟩

theorem RenderNode.Usable.enterOesPath (usable : node.Usable) : (Renderer.enterOesPath node).Usable := by
  unfold Renderer.enterOesPath
  split
  · exact usable
  · obtain ⟨context, named, sized, packed⟩ := usable.reset
    exact ⟨context, named, sized, packed⟩

/-- A luma plane that is uploaded through a buffer is ready, or it was
transferred, which sets the alignment. -/
theorem alignmentAfter_or_ready (rowLength : Bool) (alignment : Nat) (gl : StageOutcome) (p : PlaneSource) (plane : Plane) :
    alignmentAfter gl plane alignment = 1 ∨
      readyBuffer (uploadPlaneViaPboAsync rowLength alignment gl p plane).1.pbo ≠ none := by
  refine (alignmentAfter_cases gl plane alignment).imp_right fun ⟨⟨_, staged⟩, _⟩ => ?_
  obtain ⟨next, index, made, _, waiting, _⟩ := stagePlaneIntoPbo_staged rowLength p staged.1 staged.2.1 staged.2.2
  rw [uploadPlaneViaPboAsync, if_pos staged.1]
  simp [uploadPlaneFromReadyPbo_pbo, made, waiting]

theorem uploadNv12_arrives (usable : node.Usable) (gl : GlResults) (number : Nat) (b : NV12Buffer) :
    Arrives (nv12PlaneUV number b) (arrived (uploadNv12 gl number b node) (uploadNv12 gl number b node).planeUV) := by
  have entered := usable.enterCpuPath .nv12
  unfold uploadNv12
  generalize enterCpuPath .nv12 node = start at entered
  obtain ⟨_, _, _, named⟩ := (forall_planes _).mp entered.named
  obtain ⟨_, _, sized⟩ := (forall_chroma _).mp entered.sized
  unfold uploadNv12Planes arrived
  by_cases buffers : start.supportsPixelUnpackBuffer = true
  · simp only [buffers, if_true, entered.rowLength buffers]
    exact .async sized named (entered.allocates gl.y (by simp [RenderNode.chroma])) gl.uv _
  · simp only [buffers]
    exact .packedUV sized _ number b

theorem uploadI420_arrives (usable : node.Usable) (gl : GlResults) {frame : QueuedFrame} {b : I420Buffer}
    (resolved : resolveI420ForUpload frame.buffer = some b) :
    Arrives (i420PlaneU frame.number b) (arrived (uploadI420 gl frame node) (uploadI420 gl frame node).planeU) ∧
      Arrives (i420PlaneV frame.number b) (arrived (uploadI420 gl frame node) (uploadI420 gl frame node).planeV) := by
  have entered := usable.enterCpuPath .i420
  unfold uploadI420
  generalize enterCpuPath .i420 node = start at entered
  obtain ⟨_, namedU, namedV, _⟩ := (forall_planes _).mp entered.named
  obtain ⟨sizedU, sizedV, _⟩ := (forall_chroma _).mp entered.sized
  simp only [resolved]
  unfold uploadI420Planes arrived
  by_cases buffers : start.supportsPixelUnpackBuffer = true
  · have u := entered.allocates gl.y ((by simp [RenderNode.chroma]) : start.planeU ∈ start.chroma)
    have v := entered.allocates gl.y ((by simp [RenderNode.chroma]) : start.planeV ∈ start.chroma)
    simp only [buffers, if_true, entered.rowLength buffers]
    exact ⟨.async sizedU namedU u gl.u _, .async sizedV namedV (v.after gl.u start.planeU) gl.v _⟩
  · simp only [buffers]
    exact ⟨.packed sizedU _ rfl, .packed sizedV _ rfl⟩

/-! What the uploads keep. -/

theorem RenderNode.Usable.uploadNv12Planes (usable : node.Usable) (gl : GlResults) (number : Nat) (b : NV12Buffer) :
    (uploadNv12Planes gl number b node).1.Usable := by
  obtain ⟨namedY, namedU, namedV, namedUV⟩ := (forall_planes _).mp usable.named
  obtain ⟨sizedU, sizedV, sizedUV⟩ := (forall_chroma _).mp usable.sized
  unfold Renderer.uploadNv12Planes
  split
  · have allocates := usable.allocates gl.y ((by simp [RenderNode.chroma]) : node.planeUV ∈ node.chroma)
    refine ⟨usable.context, (forall_planes _).mpr ⟨?_, namedU, namedV, ?_⟩,
      (forall_chroma _).mpr ⟨sizedU, sizedV, sizedUV.async _ gl.uv _ allocates⟩, ?_⟩
    · exact readyNamed_kept.async _ _ gl.y _ _ trivial namedY
    · exact readyNamed_kept.async _ _ gl.uv _ _ trivial namedUV
    · rcases alignmentAfter_or_ready node.supportsUnpackRowLength node.unpackAlignment gl.y (nv12PlaneY number b) node.planeY
        with one | waiting
      · exact .inl (by simp only [one, alignmentAfter_one])
      · exact .inr (.inl waiting)
  · exact ⟨usable.context, (forall_planes _).mpr ⟨readyNamed_kept.tight _ _ _ namedY, namedU, namedV,
      readyNamed_kept.tight _ _ _ namedUV⟩, (forall_chroma _).mpr ⟨sizedU, sizedV, sizedUV.tight _ _⟩, .inl rfl⟩

theorem RenderNode.Usable.uploadI420Planes (usable : node.Usable) (gl : GlResults) (number : Nat) (b : I420Buffer) :
    (uploadI420Planes gl number b node).1.Usable := by
  obtain ⟨namedY, namedU, namedV, namedUV⟩ := (forall_planes _).mp usable.named
  obtain ⟨sizedU, sizedV, sizedUV⟩ := (forall_chroma _).mp usable.sized
  unfold Renderer.uploadI420Planes
  split
  · have u := usable.allocates gl.y ((by simp [RenderNode.chroma]) : node.planeU ∈ node.chroma)
    have v := usable.allocates gl.y ((by simp [RenderNode.chroma]) : node.planeV ∈ node.chroma)
    refine ⟨usable.context, (forall_planes _).mpr ⟨?_, ?_, ?_, namedUV⟩,
      (forall_chroma _).mpr ⟨sizedU.async _ gl.u _ u, sizedV.async _ gl.v _ (v.after gl.u node.planeU), sizedUV⟩, ?_⟩
    · exact readyNamed_kept.async _ _ gl.y _ _ trivial namedY
    · exact readyNamed_kept.async _ _ gl.u _ _ trivial namedU
    · exact readyNamed_kept.async _ _ gl.v _ _ trivial namedV
    · rcases alignmentAfter_or_ready node.supportsUnpackRowLength node.unpackAlignment gl.y (i420PlaneY number b) node.planeY
        with one | waiting
      · exact .inl (by simp only [one, alignmentAfter_one])
      · exact .inr (.inl waiting)
  · exact ⟨usable.context, (forall_planes _).mpr ⟨readyNamed_kept.tight _ _ _ namedY, readyNamed_kept.tight _ _ _ namedU,
      readyNamed_kept.tight _ _ _ namedV, namedUV⟩,
      (forall_chroma _).mpr ⟨sizedU.tight _ _, sizedV.tight _ _, sizedUV⟩, .inl rfl⟩

theorem RenderNode.Usable.uploadOes (usable : node.Usable) (textureId : Nat) : (uploadOes textureId node).Usable := by
  obtain ⟨context, named, sized, packed⟩ := usable.enterOesPath
  unfold Renderer.uploadOes
  simp only
  split
  · exact ⟨context, named, sized, packed⟩
  · exact ⟨context, named, sized, packed⟩

theorem RenderNode.Usable.uploadI420 (usable : node.Usable) (gl : GlResults) (frame : QueuedFrame) :
    (uploadI420 gl frame node).Usable := by
  have entered := usable.enterCpuPath .i420
  unfold Renderer.uploadI420
  simp only
  split
  · exact ⟨entered.context, entered.named, entered.sized, entered.packed⟩
  · rename_i b _
    have uploaded := entered.uploadI420Planes gl frame.number b
    exact ⟨uploaded.context, uploaded.named, uploaded.sized, uploaded.packed⟩

theorem RenderNode.Usable.uploadHeldFrame (usable : node.Usable) (android : Bool) (gl : GlResults) (frame : QueuedFrame) :
    (uploadHeldFrame android gl frame node).Usable := by
  have flat : RenderNode.Usable { node with frameIsOes := false, frameIsNv12 := false } :=
    ⟨usable.context, usable.named, usable.sized, usable.packed⟩
  unfold Renderer.uploadHeldFrame
  split
  · exact usable.uploadOes _
  · rename_i b _
    have uploaded := (flat.enterCpuPath .nv12).uploadNv12Planes gl frame.number b
    exact ⟨uploaded.context, uploaded.named, uploaded.sized, uploaded.packed⟩
  · exact flat.uploadI420 gl frame

theorem RenderNode.Usable.uploadIfPending (usable : node.Usable) (android : Bool) (gl : GlResults) :
    (uploadIfPending android gl node).Usable := by
  have started : RenderNode.Usable { node with pendingUpload := false } :=
    ⟨usable.context, usable.named, usable.sized, usable.packed⟩
  unfold Renderer.uploadIfPending uploadPendingFrame
  split
  · split
    · exact ⟨usable.context, usable.named, usable.sized, usable.packed⟩
    · exact started.uploadHeldFrame android gl _
  · exact usable

/-! Both uploads. -/

variable {n : NV12Buffer} {i : I420Buffer} {number : Nat} {uv u v : Texture Nat}

theorem Arrives.texel (arrives : Arrives p u) (valid : p.Valid) {x y : Nat} (column : x < p.width) (row : y < p.height) :
    u.texel x y = some ⟨p.data.tag, p.sample x y⟩ := (arrives.picture valid).texel x y column row

theorem PlaneSource.Valid.exists_sample (valid : p.Valid) (luminance : p.bytesPerPixel = 1) {x y : Nat} (column : x < p.width)
    (row : y < p.height) : ∃ a, p.sample x y = [a] := by
  have room := valid.sample_inside ⟨column, row⟩
  have data := valid.data
  rw [luminance] at room
  refine List.length_eq_one_iff.mp ?_
  rw [PlaneSource.sample, luminance, List.length_take_of_le]
  rw [List.length_drop]
  omega

/-- The delivery number is only a label. -/
theorem PlaneSource.Valid.relabel {w h bpp tag stride : Nat} {bytes : Bytes}
    (valid : PlaneSource.Valid ⟨w, h, bpp, ⟨tag, bytes⟩, stride⟩) (number : Nat) :
    PlaneSource.Valid ⟨w, h, bpp, ⟨number, bytes⟩, stride⟩ :=
  ⟨valid.width, valid.height, valid.bytesPerPixel, valid.stride, valid.pixels, valid.data⟩

/-- Where both sizes are even the halves are the chroma sizes. -/
theorem SamePicture.sameChroma (same : SamePicture n i) (even : Even n.width ∧ Even n.height)
    (interleaved : Arrives (nv12PlaneUV number n) uv) (first : Arrives (i420PlaneU number i) u)
    (second : Arrives (i420PlaneV number i) v) : SameChroma number n.width n.height uv u v := by
  have halfWidth : i.width / 2 = (n.width + 1) / 2 := by
    have := Nat.even_iff.mp even.1
    rw [← same.width]
    omega
  have halfHeight : i.height / 2 = (n.height + 1) / 2 := by
    have := Nat.even_iff.mp even.2
    rw [← same.height]
    omega
  have validU := same.u.relabel number
  have validV := same.v.relabel number
  have samples := same.samples
  rw [i420PlaneU, halfWidth, halfHeight] at first
  rw [i420PlaneV, halfWidth, halfHeight] at second
  rw [← same.width, ← same.height] at validU validV
  refine ⟨⟨interleaved.width, interleaved.height⟩, ⟨first.width, first.height⟩, ⟨second.width, second.height⟩, ?_⟩
  intro cx cy column row
  obtain ⟨a, sampleU⟩ := validU.exists_sample rfl column row
  obtain ⟨b, sampleV⟩ := validV.exists_sample rfl column row
  refine ⟨a, b, ?_, ?_, ?_⟩
  · rw [first.texel validU column row, sampleU]
  · rw [second.texel validV column row, sampleV]
  · rw [interleaved.texel (same.uv.relabel number) column row]
    have pair : (nv12PlaneUV number n).sample cx cy = [a] ++ [b] := by
      rw [← sampleU, ← sampleV]
      exact samples cx cy column row
    rw [pair]
    rfl

theorem RenderNode.Usable.received (usable : node.Usable) (number : Nat) (buffer : FrameBuffer) :
    RenderNode.Usable { Renderer.received node number buffer with
      pendingUpload := false, frameIsOes := false, frameIsNv12 := false } :=
  ⟨usable.context, usable.named, usable.sized, usable.packed⟩

/-- A buffer that is uploaded as I420 takes the branch of it. -/
theorem uploadPendingFrame_i420 (android : Bool) (gl : GlResults) (node : RenderNode) (number : Nat) {buffer : FrameBuffer}
    (resolved : resolveI420ForUpload buffer = some i) :
    uploadPendingFrame android gl (received node number buffer) =
      uploadI420 gl ⟨number, buffer⟩ { received node number buffer with
        pendingUpload := false, frameIsOes := false, frameIsNv12 := false } := by
  cases buffer with
  | oes textureId => cases resolved
  | nv12 b => cases resolved
  | i420 b => cases android <;> rfl
  | other toI420 => cases android <;> rfl

section both
variable {android : Bool} {glN glI : GlResults} {nodeN nodeI : UsableNode} {buffer : FrameBuffer}

theorem pendingI420_arrives (resolved : resolveI420ForUpload buffer = some i) (android : Bool) (gl : GlResults)
    (node : UsableNode) (number : Nat) :
    let next := uploadPendingFrame android gl (received node.1 number buffer)
    Arrives (i420PlaneU number i) (arrived next next.planeU) ∧ Arrives (i420PlaneV number i) (arrived next next.planeV) := by
  intro next
  have branch := uploadPendingFrame_i420 android gl node.1 number resolved
  have held : resolveI420ForUpload (QueuedFrame.mk number buffer).buffer = some i := resolved
  have arrives := uploadI420_arrives (node.2.received number buffer) gl held
  rw [← branch] at arrives
  exact arrives

theorem pendingNv12_arrives (android : Bool) (gl : GlResults) (node : UsableNode) (number : Nat) (n : NV12Buffer) :
    let next := uploadPendingFrame android gl (received node.1 number (.nv12 n))
    Arrives (nv12PlaneUV number n) (arrived next next.planeUV) := by
  intro next
  have branch : next = uploadNv12 gl number n { received node.1 number (.nv12 n) with
      pendingUpload := false, frameIsOes := false, frameIsNv12 := false } := by
    cases android <;> rfl
  rw [branch]
  exact uploadNv12_arrives (node.2.received number (.nv12 n)) gl number n

/-- The halves are the chroma sizes only of even sizes. -/
theorem ShownAlike.even (same : SamePicture n i) (resolved : resolveI420ForUpload buffer = some i)
    (alike : ShownAlike android glN glI nodeN nodeI number n buffer) : Even n.width ∧ Even n.height := by
  obtain ⟨first, _⟩ := pendingI420_arrives resolved android glI nodeI number
  obtain ⟨width, height⟩ := alike.sizeU
  rw [first.width, i420PlaneU, ← same.width] at width
  rw [first.height, i420PlaneU, ← same.height] at height
  simp only at width height
  rw [Nat.even_iff, Nat.even_iff]
  omega

/-- The NV12 and the I420 form of a picture are shown with the same chroma if
and only if its width and its height are even: the one branch rounds the halves
up and the other down. -/
theorem shownAlike_iff (same : SamePicture n i) (resolved : resolveI420ForUpload buffer = some i) (android : Bool)
    (glN glI : GlResults) (nodeN nodeI : UsableNode) (number : Nat) :
    ShownAlike android glN glI nodeN nodeI number n buffer ↔ Even n.width ∧ Even n.height := by
  constructor
  · exact ShownAlike.even same resolved
  · intro even
    obtain ⟨first, second⟩ := pendingI420_arrives resolved android glI nodeI number
    exact same.sameChroma even (pendingNv12_arrives android glN nodeN number n) first second

end both

/-- A node before its first frame, in an ES 2 context without extensions. -/
def newNode : UsableNode where
  val := {}
  property := ⟨⟨some ⟨true, 2, false⟩, rfl, rfl⟩, by simp [ReadyNamed, readyBuffer], by simp [PlaneSized, genTexture],
    .inr (.inr (by simp [readyBuffer]))⟩

def plainGl : GlResults := ⟨true, 4, false, false, false, ⟨true, true⟩, ⟨true, true⟩, ⟨true, true⟩, ⟨true, true⟩⟩

/-- A picture of 2 by 2. -/
theorem shownAlike_two_by_two :
    ∃ n i, SamePicture n i ∧ ShownAlike false plainGl plainGl newNode newNode 1 n (.i420 i) := by
  have same : SamePicture ⟨2, 2, 2, 2, [0, 0, 0, 0], [7, 9]⟩ ⟨2, 2, 2, 1, 1, [0, 0, 0, 0], [7], [9]⟩ := by
    refine ⟨rfl, rfl, by decide, by decide, by decide, fun cx cy column row => ?_⟩
    interval_cases cx
    interval_cases cy
    rfl
  exact ⟨_, _, same, (shownAlike_iff same rfl false plainGl plainGl newNode newNode 1).mpr ⟨by decide, by decide⟩⟩

/-- In a picture of 3 by 2 the second column of the chroma is not uploaded from
the I420 form. -/
theorem not_shownAlike_three_by_two :
    ¬ ∀ n i, SamePicture n i → ShownAlike false plainGl plainGl newNode newNode 1 n (.i420 i) := by
  intro always
  have same : SamePicture ⟨3, 2, 3, 4, [0, 0, 0, 0, 0, 0], [7, 9, 8, 6]⟩
      ⟨3, 2, 3, 2, 2, [0, 0, 0, 0, 0, 0], [7, 8], [9, 6]⟩ := by
    refine ⟨rfl, rfl, by decide, by decide, by decide, fun cx cy column row => ?_⟩
    interval_cases cy
    interval_cases cx <;> rfl
  exact absurd (ShownAlike.even same rfl (always _ _ same)).1 (by decide)

end WebRtcDemo.Renderer
