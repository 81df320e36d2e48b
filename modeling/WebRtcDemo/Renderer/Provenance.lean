import WebRtcDemo.Renderer.Chroma
import WebRtcDemo.Renderer.GlContents

/-! Where the texels that are drawn come from. -/

namespace WebRtcDemo.Renderer

open GlObjects GlTexture

/-- Every texel is the sample, at its own place, of one of the planes. -/
def TexelsOf (D : PlaneSource → Prop) (t : Texture Nat) : Prop :=
  ∀ x y texel, t.texel x y = some texel → ∃ p, D p ∧ x < p.width ∧ y < p.height ∧ texel = ⟨p.data.tag, p.sample x y⟩

/-- The data of `q`, read with its stride, are the pixels of `p`. -/
structure ReadsAs (rowLength : Bool) (q p : PlaneSource) : Prop where
  width : q.width = p.width
  height : q.height = p.height
  bytesPerPixel : q.bytesPerPixel = p.bytesPerPixel
  pixels : ∀ x y, x < p.width ∧ y < p.height →
    pixel q.data p.width (unpackRowLength rowLength q.strideBytes p.bytesPerPixel) p.bytesPerPixel x y =
      ⟨p.data.tag, p.sample x y⟩

/-- What is there and what is ready. -/
structure PlaneTexels (D : PlaneSource → Prop) (rowLength : Bool) (plane : Plane) : Prop where
  tex : TexelsOf D plane.tex
  ready : ∀ index, readyBuffer plane.pbo = some index → plane.pbo.ids = true ∧
    ∃ p, D p ∧ p.Valid ∧ HoldsCopy rowLength p plane.pbo index

section Plane
variable {D : PlaneSource → Prop} {rowLength : Bool} {p q : PlaneSource} {plane : Plane}

theorem texelsOf_empty (D : PlaneSource → Prop) (w h : Nat) : TexelsOf D (texImage2D w h) := by
  intro x y texel there
  cases there

theorem texelsOf_genTexture (D : PlaneSource → Prop) : TexelsOf D genTexture := by
  intro x y texel there
  cases there

/-- An allocation that fails leaves the texels where they are. -/
theorem TexelsOf.allocate (texels : TexelsOf D plane.tex) (succeeds : Bool) (w h : Nat) :
    TexelsOf D (allocatePlane succeeds plane w h).tex := by
  unfold allocatePlane
  split
  · exact texels
  · cases succeeds with
    | true => exact texelsOf_empty D w h
    | false => exact texels

/-- A transfer of the pixels of a plane; where it finds no room it changes nothing. -/
theorem TexelsOf.transfer {t : Texture Nat} (texels : TexelsOf D t) (here : D p) {rows : Nat} {data : Block Nat}
    (pixels : ∀ x y, x < p.width ∧ y < p.height → pixel data p.width rows p.bytesPerPixel x y = ⟨p.data.tag, p.sample x y⟩) :
    TexelsOf D (texSubImage2D t p.width p.height rows p.bytesPerPixel data) := by
  intro x y texel there
  unfold texSubImage2D at there
  split at there
  · simp only at there
    split at there
    · rename_i inside
      cases there
      exact ⟨p, here, inside.1, inside.2, pixels x y inside⟩
    · exact texels x y texel there
  · exact texels x y texel there

/-- With the row length of its stride a plane is read in place. -/
theorem readsAs_padded (valid : p.Valid) : ReadsAs true p p := ⟨rfl, rfl, rfl, fun x y _ => pixel_padded valid x y⟩

theorem readsAs_i420Tight (valid : p.Valid) (luminance : p.bytesPerPixel = 1) (rowLength : Bool) :
    ReadsAs rowLength (i420Tight rowLength p) p := by
  cases rowLength with
  | true =>
    have same : i420Tight true p = p := by simp [i420Tight, prepareTightPlaneIfNeeded]
    rw [same]
    exact readsAs_padded valid
  | false =>
    refine ⟨rfl, rfl, rfl, fun x y inside => ?_⟩
    unfold i420Tight prepareTightPlaneIfNeeded
    by_cases dense : p.strideBytes = p.width
    · simp only [if_pos (Or.inl dense : p.strideBytes = p.width ∨ false = true)]
      exact pixel_dense (by rw [luminance, Nat.mul_one, dense]) x y
    · have packed := pixel_packed valid inside (.inl rfl)
      rw [luminance, Nat.mul_one] at packed
      simpa [dense, unpackRowLength, luminance] using packed

theorem readsAs_nv12TightY {number : Nat} {b : NV12Buffer} (valid : (nv12PlaneY number b).Valid) (rowLength : Bool) :
    ReadsAs rowLength (nv12TightY rowLength number b) (nv12PlaneY number b) := by
  obtain ⟨width, height, bytes, pixels⟩ := readsAs_i420Tight valid rfl rowLength
  cases rowLength <;> exact ⟨width, height, bytes, pixels⟩

theorem readsAs_nv12TightUV {number : Nat} {b : NV12Buffer} (valid : (nv12PlaneUV number b).Valid) (rowLength : Bool) :
    ReadsAs rowLength (nv12TightUV rowLength number b) (nv12PlaneUV number b) := by
  cases rowLength with
  | true => exact readsAs_padded valid
  | false =>
    refine ⟨rfl, rfl, rfl, fun x y inside => ?_⟩
    by_cases dense : b.strideUV = b.chromaWidth * 2
    · have same : (nv12TightUV false number b).data = (nv12PlaneUV number b).data := by simp [nv12TightUV, nv12PlaneUV, dense]
      rw [same]
      exact pixel_dense (p := nv12PlaneUV number b) dense x y
    · have same : (nv12TightUV false number b).data =
          ⟨number, tightRows b.dataUV b.strideUV (b.chromaWidth * 2) b.chromaHeight⟩ := by simp [nv12TightUV, dense]
      rw [same]
      exact pixel_packed valid inside (.inl rfl)

theorem PlaneTexels.of_idle (tex : TexelsOf D plane.tex) (idle : readyBuffer plane.pbo = none) : PlaneTexels D rowLength plane := by
  refine ⟨tex, fun index ready => ?_⟩
  rw [idle] at ready
  cases ready

theorem PlaneTexels.tight (texels : PlaneTexels D rowLength plane) (here : D p) (reads : ReadsAs rowLength q p) :
    PlaneTexels D rowLength (uploadPlaneTight rowLength q plane) := by
  refine ⟨?_, ?_⟩
  · obtain ⟨width, height, bytes, pixels⟩ := reads
    unfold uploadPlaneTight
    simp only [width, height, bytes]
    exact (texels.tex.allocate _ p.width p.height).transfer here pixels
  · rw [uploadPlaneTight_pbo]
    exact texels.ready

/-- The texture gets what was staged before. -/
theorem PlaneTexels.fromReady (texels : PlaneTexels D rowLength plane) (alignment : Nat) :
    TexelsOf D (uploadPlaneFromReadyPbo rowLength alignment plane).1.tex := by
  unfold uploadPlaneFromReadyPbo
  cases waiting : readyBuffer plane.pbo with
  | none => exact texels.tex
  | some index =>
    obtain ⟨_, p, here, valid, copy⟩ := texels.ready index waiting
    simp only [allocatePlane_pbo, copy.copied, transferFromStore, copy.width, copy.height, copy.stride, copy.bytesPerPixel]
    exact (texels.tex.allocate _ p.width p.height).transfer here fun x y inside => pixel_copyPlaneForUpload valid rowLength inside

/-- Through a buffer, or in the call if the staging fails. -/
theorem PlaneTexels.async (texels : PlaneTexels D true plane) (alignment : Nat) (outcome : StageOutcome) (here : D p)
    (valid : p.Valid) : PlaneTexels D true (uploadPlaneViaPboAsync true alignment outcome p plane).1 := by
  have same := uploadPlaneFromReadyPbo_pbo true alignment plane
  have ready := texels.fromReady alignment
  unfold uploadPlaneViaPboAsync
  by_cases generated : plane.pbo.ids = true
  · simp only [if_pos generated]
    generalize (uploadPlaneFromReadyPbo true alignment plane).1 = next at same ready ⊢
    rw [same]
    by_cases done : outcome.mapped = true ∧ outcome.unmapped = true
    · obtain ⟨staged, copy⟩ := stagePlaneIntoPbo_holdsCopy generated done.1 done.2 true p
      simp only [if_pos staged]
      refine ⟨ready, fun index waiting => ⟨(stagePlaneIntoPbo_ids ..).trans generated, p, here, valid, ?_⟩⟩
      obtain rfl : plane.pbo.nextStageIndex = index := Option.some.inj (copy.ready.symm.trans waiting)
      exact copy
    · obtain ⟨left, failed, _⟩ := stagePlaneIntoPbo_failed true p plane.pbo done
      simp only [failed, Bool.false_eq_true, if_false]
      exact PlaneTexels.tight (.of_idle ready (readyBuffer_reset left)) here (readsAs_padded valid)
  · simp only [if_neg generated]
    exact texels.tight here (readsAs_padded valid)

end Plane

/-! The planes of the node. -/

/-- The planes of a frame, with the textures that they go to. -/
def kindsOf (frame : QueuedFrame) : List (PlaneKind × PlaneSource) :=
  match frame.buffer with
  | .nv12 b => [(.y, nv12PlaneY frame.number b), (.uv, nv12PlaneUV frame.number b)]
  | buffer => (resolveI420ForUpload buffer).toList.flatMap fun b =>
      [(.y, i420PlaneY frame.number b), (.u, i420PlaneU frame.number b), (.v, i420PlaneV frame.number b)]

/-- The planes of the frame are among these, and lie inside their data. -/
def FrameAmong (D : PlaneKind → PlaneSource → Prop) (frame : QueuedFrame) : Prop :=
  ∀ u ∈ kindsOf frame, D u.1 u.2 ∧ u.2.Valid

theorem map_kindsOf (frame : QueuedFrame) : (kindsOf frame).map Prod.snd = planesOf frame := by
  obtain ⟨number, buffer⟩ := frame
  cases buffer with
  | oes textureId => rfl
  | nv12 b => rfl
  | i420 b => rfl
  | other toI420 => cases toI420 <;> rfl

theorem FrameAmong.rows {D : PlaneKind → PlaneSource → Prop} {frame : QueuedFrame} (among : FrameAmong D frame) :
    FrameRows frame := by
  intro p member
  rw [← map_kindsOf] at member
  obtain ⟨u, listed, rfl⟩ := List.mem_map.mp member
  exact (among u listed).2.stride

structure NodeTexels (D : PlaneKind → PlaneSource → Prop) (node : RenderNode) : Prop where
  planes : ∀ k, PlaneTexels (D k) node.supportsUnpackRowLength (node.plane k)
  rowLength : node.supportsPixelUnpackBuffer = true → node.supportsUnpackRowLength = true

/-- What `render` finds out about its context is true of some context. -/
def RealContext (results : GlResults) : Prop :=
  ∃ ctx, results.supportsUnpackRowLength = supportsUnpackRowLength ctx ∧
    results.supportsPixelUnpackBuffer = supportsPixelUnpackBuffer ctx

/-- The textures of a picture, in the order of the program that samples them;
the external texture is not one of the node's. -/
def PictureOf (D : PlaneKind → PlaneSource → Prop) (picture : List (Texture Nat)) : Prop :=
  picture = [] ∨ List.Forall₂ (fun k t => TexelsOf (D k) t) [.y, .uv] picture ∨
    List.Forall₂ (fun k t => TexelsOf (D k) t) [.y, .u, .v] picture

section Node
variable {D : PlaneKind → PlaneSource → Prop} {node next : RenderNode} {p q : PlaneSource} {results : GlResults}

theorem setPlane_context (node : RenderNode) (plane : Plane) (alignment : Nat) (k : PlaneKind) :
    (node.setPlane plane alignment k).supportsUnpackRowLength = node.supportsUnpackRowLength ∧
      (node.setPlane plane alignment k).supportsPixelUnpackBuffer = node.supportsPixelUnpackBuffer := by
  cases k <;> exact ⟨rfl, rfl⟩

theorem NodeTexels.setPlane (texels : NodeTexels D node) {plane : Plane} {k : PlaneKind}
    (made : PlaneTexels (D k) node.supportsUnpackRowLength plane) (alignment : Nat) :
    NodeTexels D (node.setPlane plane alignment k) := by
  obtain ⟨rows, buffers⟩ := setPlane_context node plane alignment k
  refine ⟨fun j => ?_, ?_⟩
  · rw [rows]
    by_cases same : j = k
    · rw [same, setPlane_self]
      exact made
    · rw [setPlane_of_ne node plane _ same]
      exact texels.planes j
  · rw [rows, buffers]
    exact texels.rowLength

theorem NodeTexels.async (texels : NodeTexels D node) (supported : node.supportsPixelUnpackBuffer = true) {k : PlaneKind}
    (outcome : StageOutcome) (among : D k p ∧ p.Valid) :
    NodeTexels D (node.setPlane
      (uploadPlaneViaPboAsync node.supportsUnpackRowLength node.unpackAlignment outcome p (node.plane k)).1
      (alignmentAfter outcome (node.plane k) node.unpackAlignment) k) := by
  refine texels.setPlane ?_ _
  have plane := texels.planes k
  rw [texels.rowLength supported] at plane ⊢
  exact plane.async _ outcome among.1 among.2

theorem NodeTexels.tight (texels : NodeTexels D node) {k : PlaneKind} (here : D k p)
    (reads : ReadsAs node.supportsUnpackRowLength q p) :
    NodeTexels D (node.setPlane (uploadPlaneTight node.supportsUnpackRowLength q (node.plane k)) 1 k) :=
  texels.setPlane ((texels.planes k).tight here reads) 1

theorem NodeTexels.nv12 (texels : NodeTexels D node) (results : GlResults) {number : Nat} {b : NV12Buffer}
    (y : D .y (nv12PlaneY number b) ∧ (nv12PlaneY number b).Valid)
    (uv : D .uv (nv12PlaneUV number b) ∧ (nv12PlaneUV number b).Valid) :
    NodeTexels D (uploadNv12Planes results number b node).1 := by
  unfold uploadNv12Planes
  split
  · rename_i supported
    exact (texels.async supported results.y y).async supported results.uv uv
  · exact (texels.tight y.1 (readsAs_nv12TightY y.2 _)).tight uv.1 (readsAs_nv12TightUV uv.2 _)

theorem NodeTexels.i420 (texels : NodeTexels D node) (results : GlResults) {number : Nat} {b : I420Buffer}
    (y : D .y (i420PlaneY number b) ∧ (i420PlaneY number b).Valid)
    (u : D .u (i420PlaneU number b) ∧ (i420PlaneU number b).Valid)
    (v : D .v (i420PlaneV number b) ∧ (i420PlaneV number b).Valid) :
    NodeTexels D (uploadI420Planes results number b node).1 := by
  unfold uploadI420Planes
  split
  · rename_i supported
    exact ((texels.async supported results.y y).async supported results.u u).async supported results.v v
  · exact ((texels.tight y.1 (readsAs_i420Tight y.2 rfl _)).tight u.1 (readsAs_i420Tight u.2 rfl _)).tight v.1
      (readsAs_i420Tight v.2 rfl _)

theorem NodeTexels.of_rest (texels : NodeTexels D node) (planes : next.planes = node.planes)
    (rows : next.supportsUnpackRowLength = node.supportsUnpackRowLength)
    (buffers : next.supportsPixelUnpackBuffer = node.supportsPixelUnpackBuffer) : NodeTexels D next := by
  simp only [RenderNode.planes, List.cons.injEq, and_true] at planes
  obtain ⟨y, u, v, uv⟩ := planes
  refine ⟨fun k => ?_, rows ▸ buffers ▸ texels.rowLength⟩
  have plane := texels.planes k
  rw [rows]
  cases k <;> simp only [RenderNode.plane, y, u, v, uv] <;> exact plane

/-- Nothing is ready any more. -/
theorem NodeTexels.reset (texels : NodeTexels D node) : NodeTexels D (resetCpuUploadPipeline node) where
  planes k := by
    have plane := texels.planes k
    cases k <;> exact .of_idle plane.tex (readyBuffer_reset _)
  rowLength := texels.rowLength

theorem NodeTexels.enterCpuPath (texels : NodeTexels D node) (path : UploadPathKind) :
    NodeTexels D (Renderer.enterCpuPath path node) := by
  unfold Renderer.enterCpuPath
  split
  · exact texels
  · exact texels.reset.of_rest rfl rfl rfl

theorem kindsOf_resolved {frame : QueuedFrame} {b : I420Buffer} (resolved : resolveI420ForUpload frame.buffer = some b) :
    kindsOf frame = [(.y, i420PlaneY frame.number b), (.u, i420PlaneU frame.number b), (.v, i420PlaneV frame.number b)] := by
  obtain ⟨number, buffer⟩ := frame
  cases buffer with
  | oes textureId => cases resolved
  | nv12 c => cases resolved
  | i420 c | other c => simp [kindsOf, resolved]

theorem NodeTexels.frame (texels : NodeTexels D node) {frame : QueuedFrame} (among : FrameAmong D frame) (android : Bool)
    (results : GlResults) : NodeTexels D (uploadHeldFrame android results frame node) := by
  have cleared : NodeTexels D (clearKind node) := texels.of_rest rfl rfl rfl
  refine frameCalls_cases (P := fun _ next => NodeTexels D next) android results {} frame node ?_ ?_ ?_ ?_
  · intro b same
    obtain ⟨number, _⟩ := frame
    cases same
    simp only [FrameAmong, kindsOf, List.forall_mem_cons] at among
    exact ((cleared.enterCpuPath .nv12).nv12 results among.1 among.2.1).of_rest rfl rfl rfl
  · intro b resolved
    simp only [FrameAmong, kindsOf_resolved resolved, List.forall_mem_cons] at among
    obtain ⟨y, u, v, _⟩ := among
    unfold uploadI420
    simp only [resolved]
    exact ((cleared.enterCpuPath .i420).i420 results y u v).of_rest rfl rfl rfl
  · intro absent
    unfold uploadI420
    simp only [absent]
    exact (cleared.enterCpuPath .i420).of_rest rfl rfl rfl
  · intro textureId
    have entered : NodeTexels D (enterOesPath node) := by
      unfold enterOesPath
      split
      · exact texels
      · exact texels.reset.of_rest rfl rfl rfl
    unfold uploadOes
    simp only
    split <;> exact entered.of_rest rfl rfl rfl

theorem NodeTexels.upload (texels : NodeTexels D node) (android : Bool) (results : GlResults)
    (held : node.pendingUpload = true → ∀ frame, node.heldBuffer = some frame → FrameAmong D frame) :
    NodeTexels D (uploadIfPending android results node) := by
  have started : NodeTexels D { node with pendingUpload := false } := texels.of_rest rfl rfl rfl
  exact uploadCalls_cases (P := fun _ next => NodeTexels D next) android results {} node (fun _ => texels)
    (texels.of_rest rfl rfl rfl) fun pending frame holding => started.frame (held pending frame holding) android results

/-- New textures have no texels, and without buffers nothing is ready for them. -/
theorem NodeTexels.initialize (texels : NodeTexels D node) (ids : ∀ plane ∈ node.planes, plane.pbo.ids = true → buffersInUse node = true)
    {android : Bool} (real : RealContext results) (initialized : ensureInitialized android results node = some next) :
    NodeTexels D next := by
  unfold ensureInitialized at initialized
  split at initialized
  · cases initialized
    exact texels
  · rename_i new
    have absent : buffersInUse node = false := by simp [buffersInUse, new]
    have idle (k : PlaneKind) : readyBuffer (node.plane k).pbo = none := by
      refine Option.eq_none_iff_forall_ne_some.mpr fun index ready => ?_
      have inUse := ids _ (plane_mem node k) ((texels.planes k).ready index ready).1
      rw [absent] at inUse
      cases inUse
    split at initialized
    · cases initialized
      obtain ⟨ctx, rows, buffers⟩ := real
      refine ⟨fun k => ?_, fun supported => ?_⟩
      · cases k
        · exact .of_idle (texelsOf_genTexture _) ((genPlane_ready ..).trans (idle .y))
        · exact .of_idle (texelsOf_genTexture _) ((genPlane_ready ..).trans (idle .u))
        · exact .of_idle (texelsOf_genTexture _) ((genPlane_ready ..).trans (idle .v))
        · exact .of_idle (texelsOf_genTexture _) ((genPlane_ready ..).trans (idle .uv))
      · exact rows.trans (supportsUnpackRowLength_of_buffers (buffers ▸ supported))
    · cases initialized

/-- What a node samples. -/
theorem NodeTexels.pictures (texels : NodeTexels D node) :
    ∀ picture ∈ (draw node :: sampledTimings node).filterMap sampled, PictureOf D picture := by
  intro picture drawn
  rw [List.filterMap_cons, sampledTimings_sampled] at drawn
  unfold draw at drawn
  by_cases oes : node.frameIsOes = true ∧ node.oesProgramLinked = true
  · rw [if_pos oes] at drawn
    obtain rfl : picture = [] := List.mem_singleton.mp drawn
    exact .inl rfl
  · rw [if_neg oes] at drawn
    obtain rfl : picture = sampledTextures node := List.mem_singleton.mp drawn
    have tex (k : PlaneKind) : TexelsOf (D k) (node.plane k).tex := (texels.planes k).tex
    unfold sampledTextures
    cases node.frameIsNv12 with
    | true => exact .inr (.inl (.cons (tex .y) (.cons (tex .uv) .nil)))
    | false => exact .inr (.inr (.cons (tex .y) (.cons (tex .u) (.cons (tex .v) .nil))))

theorem NodeTexels.render (texels : NodeTexels D node) (ids : ∀ plane ∈ node.planes, plane.pbo.ids = true → buffersInUse node = true)
    (android : Bool) (real : RealContext results)
    (held : node.pendingUpload = true → ∀ frame, node.heldBuffer = some frame → FrameAmong D frame) :
    NodeTexels D (Renderer.render android results node).1 ∧
      ∀ picture ∈ (Renderer.render android results node).2.filterMap sampled, PictureOf D picture := by
  unfold Renderer.render
  cases ready : ensureInitialized android results node with
  | none => exact ⟨texels, by simp⟩
  | some next =>
    have same : next.pendingUpload = node.pendingUpload ∧ next.heldBuffer = node.heldBuffer := by
      cases there : node.glInitialized with
      | true =>
        obtain rfl : node = next := by simpa [ensureInitialized, there] using ready
        exact ⟨rfl, rfl⟩
      | false =>
        obtain ⟨_, _, pending, holding, _⟩ := ensureInitialized_new there ready
        exact ⟨pending, holding⟩
    have start := texels.initialize ids real ready
    have done := start.upload android results (by rwa [same.1, same.2])
    refine ⟨done, ?_⟩
    simp only
    split
    · exact done.pictures
    · simp

theorem NodeTexels.sync (texels : NodeTexels D node) (item : VideoRenderer) : NodeTexels D (Renderer.sync item node).2 := by
  rcases sync_cases item node with ⟨frame, _, taken⟩ | unchanged | emptied
  · rw [taken]
    exact texels.of_rest rfl rfl rfl
  · rw [unchanged]
    exact texels.of_rest rfl rfl rfl
  · rw [emptied]
    exact texels.of_rest rfl rfl rfl

theorem NodeTexels.destroy (texels : NodeTexels D node) (context : Bool) : NodeTexels D (destroyGlResources context node) := by
  unfold destroyGlResources
  split
  · refine ⟨fun k => ?_, texels.rowLength⟩
    have deleted (D : PlaneSource → Prop) (rows supported : Bool) {plane : Plane} (before : PlaneTexels D rows plane) :
        PlaneTexels D rows (deletePlane supported plane) := by
      cases supported with
      | true => exact .of_idle (texelsOf_genTexture D) rfl
      | false => exact ⟨texelsOf_genTexture D, before.ready⟩
    cases k
    · exact deleted _ _ _ (texels.planes .y)
    · exact deleted _ _ _ (texels.planes .u)
    · exact deleted _ _ _ (texels.planes .v)
    · exact deleted _ _ _ (texels.planes .uv)
  · exact texels

theorem NodeTexels.fresh (D : PlaneKind → PlaneSource → Prop) : NodeTexels D {} :=
  ⟨fun k => by cases k <;> exact .of_idle (texelsOf_genTexture _) rfl, fun supported => by cases supported⟩

/-! The pictures of a whole run. -/

/-- The planes of the frame that is delivered are among these, under its number. -/
def Delivers (D : PlaneKind → PlaneSource → Prop) (s : State) (e : RenderEvent) : Prop :=
  ∀ buffer rawId nowUs, e = .onFrame buffer rawId nowUs →
    ∀ pending, pendingOf buffer = some pending → FrameAmong D ⟨s.delivered, pending⟩

/-- GL behaves, and the frames are those that are meant. -/
structure ShownFrom (D : PlaneKind → PlaneSource → Prop) (s : Surface) (e : SurfaceEvent) : Prop where
  gl : GlBehaves e
  delivers : Delivers D s.renderer e.event
  context : ∀ results, e.event = .render results → RealContext results

theorem texels_step {android : Bool} {s t : State} {e : RenderEvent} {effects : List RenderAction}
    (move : RenderMove android s e t effects) (texels : NodeTexels D (s.node.getD {}))
    (ids : ∀ plane ∈ (s.node.getD {}).planes, plane.pbo.ids = true → buffersInUse (s.node.getD {}) = true)
    (context : ∀ results, e = .render results → RealContext results)
    (held : (s.node.getD {}).pendingUpload = true → ∀ frame, (s.node.getD {}).heldBuffer = some frame → FrameAmong D frame) :
    NodeTexels D (t.node.getD {}) ∧ ∀ picture ∈ effects.filterMap sampled, PictureOf D picture := by
  cases move with
  | delivers buffer rawId nowUs attached => exact ⟨texels, by simp [sampled]⟩
  | syncs => exact ⟨texels.sync s.item, by simp [sampled]⟩
  | drops => exact ⟨.fresh D, by simp⟩
  | renders results =>
    rw [renderNode_node, renderNode_effects]
    cases there : s.node with
    | none =>
      rw [there] at texels
      exact ⟨texels, by simp⟩
    | some node =>
      rw [there] at texels ids held
      exact texels.render ids android (context results rfl) held
  | releases current =>
    refine ⟨?_, by simp⟩
    cases there : s.node with
    | none =>
      rw [there] at texels
      exact texels
    | some node =>
      rw [there] at texels
      exact texels.destroy current
  | keeps track same => exact ⟨texels, by simp⟩
  | replaces track other => exact ⟨texels, by simp [sampled]⟩
  | clears => exact ⟨texels, by simp [sampled]⟩

/-- The alignment that is found changes no texel. -/
theorem NodeTexels.found {s : State} (texels : NodeTexels D (s.node.getD {})) (event : RenderEvent) :
    NodeTexels D ((s.found event).node.getD {}) :=
  found_node event texels fun _ _ texels => texels.of_rest rfl rfl rfl

structure SurfaceTexels (D : PlaneKind → PlaneSource → Prop) (s : Surface) : Prop where
  holds : SurfaceHeld s
  texels : NodeTexels D (s.renderer.node.getD {})
  pending : ∀ frame, s.renderer.item.pendingBuffer = some frame → FrameAmong D frame
  held : (s.renderer.node.getD {}).pendingUpload = true →
    ∀ frame, (s.renderer.node.getD {}).heldBuffer = some frame → FrameAmong D frame

theorem surface_texels {android : Bool} {s t : Surface} {e : SurfaceEvent} {out : List Call} (before : SurfaceTexels D s)
    (shown : ShownFrom D s e) (run : surfaceStep android s e = some (t, out)) :
    SurfaceTexels D t ∧ ∀ picture ∈ s.contents.pictures s.gl out, PictureOf D picture := by
  obtain ⟨holds, effects, moved, drawn⟩ := surface_held before.holds shown.gl
    (fun buffer rawId nowUs same pending taken => (shown.delivers buffer rawId nowUs same pending taken).rows) run
  obtain ⟨item, delivered⟩ := found_rest s.renderer e.event
  have move := renderMove_of_step moved
  have held := found_held e.event before.held
  obtain ⟨texels, pictures⟩ := texels_step move (before.texels.found e.event) (before.holds.owned.found e.event).2.ids
    shown.context held
  rw [drawn]
  exact ⟨⟨holds, texels, pending_step move (delivered ▸ shown.delivers) (item ▸ before.pending),
    held_step move (item ▸ before.pending) held⟩, pictures⟩

/-- Every texel of every picture that the GL calls of a run draw is the sample,
at its own place and in its own plane, of the frame whose number it carries,
whatever sizes and strides the frames have and whichever stagings fail. -/
theorem drawn_texels {android : Bool} {s : Surface} {log : List Call} (reach : (surface android).Reach (ShownFrom D) s log) :
    ∀ picture ∈ ({} : Contents Nat).pictures {} log, PictureOf D picture := by
  have run : (s.gl = ({} : Gl).afterAll log ∧ s.contents = ({} : Contents Nat).afterAll {} log) ∧ SurfaceTexels D s ∧
      ∀ picture ∈ ({} : Contents Nat).pictures {} log, PictureOf D picture := by
    refine reach.invariant (P := fun s log =>
      (s.gl = ({} : Gl).afterAll log ∧ s.contents = ({} : Contents Nat).afterAll {} log) ∧ SurfaceTexels D s ∧
      ∀ picture ∈ ({} : Contents Nat).pictures {} log, PictureOf D picture) ?_ ?_
    · refine ⟨⟨rfl, rfl⟩, ⟨⟨.new, .fresh .., nofun, nofun⟩, .fresh D, ?_, ?_⟩, by simp [Contents.pictures]⟩
      · intro frame there
        cases there
      · intro due
        cases due
    · intro s log e t out before shown run
      obtain ⟨⟨gl, contents⟩, texels, pictures⟩ := before
      obtain ⟨after, drawn⟩ := surface_texels texels shown run
      refine ⟨surface_log gl contents run, after, ?_⟩
      rw [pictures_append, ← gl, ← contents]
      exact List.forall_mem_append.mpr ⟨pictures, drawn⟩
  exact run.2.2

end Node

/-- The planes of the two frames of `twoSizes`, under any number. -/
def twoPlanes (k : PlaneKind) (p : PlaneSource) : Prop :=
  ∃ number, ∃ b ∈ [smallNv12 16, ⟨8, 2, 8, 8, List.replicate 16 17, List.replicate 8 128⟩], (k, p) ∈ kindsOf ⟨number, .nv12 b⟩

theorem drawn_texels_twoSizes :
    ∃ s log, (surface true).Reach (ShownFrom twoPlanes) s log ∧ (({} : Contents Nat).pictures {} log).map List.length = [2] ∧
      ∀ picture ∈ ({} : Contents Nat).pictures {} log, PictureOf twoPlanes picture := by
  have among (number : Nat) (b : NV12Buffer) (known : b ∈ [smallNv12 16, ⟨8, 2, 8, 8, List.replicate 16 17, List.replicate 8 128⟩]) :
      FrameAmong twoPlanes ⟨number, .nv12 b⟩ := by
    refine fun u inside => ⟨⟨number, b, known, inside⟩, ?_⟩
    simp only [List.mem_cons, List.not_mem_nil, or_false] at known
    simp only [kindsOf, List.mem_cons, List.not_mem_nil, or_false] at inside
    rcases known with rfl | rfl <;> rcases inside with rfl | rfl <;> constructor <;>
      simp [nv12PlaneY, nv12PlaneUV, smallNv12, NV12Buffer.chromaWidth, NV12Buffer.chromaHeight]
  have context : RealContext fullGl := ⟨some ⟨false, 3, false⟩, rfl, rfl⟩
  have behaves : ∀ e ∈ twoSizes, GlBehaves e := by decide
  have shown : ∀ e ∈ twoSizes, ∀ s, ShownFrom twoPlanes s e := by
    intro e inside s
    refine ⟨behaves e inside, fun buffer rawId nowUs same pending taken => ?_, fun results same => ?_⟩
    · rcases twoSizes_frames inside same with rfl | rfl <;> cases taken <;> exact among _ _ (by simp)
    · obtain ⟨event, known, rfl⟩ := List.mem_map.mp inside
      obtain rfl : event = .render results := same
      obtain rfl : results = fullGl := by simpa using known
      exact context
  have reach : (surface true).Reach (ShownFrom twoPlanes) _ _ := .ofExec (ShownFrom twoPlanes) twoSizes rfl (Machine.meets_of_forall _ shown)
  exact ⟨_, _, reach, by decide, drawn_texels reach⟩

end WebRtcDemo.Renderer
