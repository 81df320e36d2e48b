import WebRtcDemo.Renderer.GlCalls
import WebRtcDemo.Renderer.Texels

/-! How far the transfers of the render node read. -/

namespace WebRtcDemo.Renderer

open GlObjects

/-- A plane whose rows lie inside its data, and take whole units of `a` bytes. -/
structure PlaneFits (a : Nat) (p : PlaneSource) : Prop where
  valid : p.Valid
  aligned : a ∣ p.width * p.bytesPerPixel

def FrameFits (a : Nat) (frame : QueuedFrame) : Prop := ∀ p ∈ planesOf frame, PlaneFits a p

/-- What the next upload is going to read was staged, and its buffer has the size for it. -/
def ReadyFits (a : Nat) (rowLength : Bool) (gl : Gl) (names : PlaneNames) (plane : Plane) : Prop :=
  ∀ index, readyBuffer plane.pbo = some index → plane.pbo.ids = true ∧
    ∃ p, PlaneFits a p ∧ plane.pbo.readyW = p.width ∧ plane.pbo.readyH = p.height ∧
      plane.pbo.readyStrideBytes = p.strideBytes ∧ plane.pbo.readyBytesPerPixel = p.bytesPerPixel ∧
      gl.size (names.ids index) = uploadBytes rowLength p

/-- Calls that read within what there is, and give a size only to buffers of
the kind. -/
structure Within (a : Nat) (own : Nat → Prop) (gl : Gl) (calls : List Call) : Prop where
  tidy : Tidy gl calls
  inRange : Follows InRange gl calls
  alignment : (gl.afterAll calls).alignment ∣ a
  size : ∀ n, ¬ own n → (gl.afterAll calls).size n = gl.size n

section Planes
variable {a : Nat} {own other : Nat → Prop} {gl : Gl} {xs ys : List Call} {names : PlaneNames} {plane : Plane} {p : PlaneSource}
  {rowLength : Bool} {outcome : StageOutcome}

theorem Within.nil (clean : gl.Clean) (alignment : gl.alignment ∣ a) : Within a own gl [] :=
  ⟨.nil clean, trivial, alignment, fun _ _ => rfl⟩

theorem Within.append (first : Within a own gl xs) (second : Within a own (gl.afterAll xs) ys) : Within a own gl (xs ++ ys) where
  tidy := first.tidy.append second.tidy
  inRange := first.inRange.append second.inRange
  alignment := by
    rw [afterAll_append]
    exact second.alignment
  size n not := by rw [afterAll_append, second.size n not, first.size n not]

theorem Within.both (first : Within a own gl xs) (second : Within a own gl xs → Within a own (gl.afterAll xs) ys) :
    Within a own gl (xs ++ ys) :=
  first.append (second first)

theorem Within.mono (within : Within a own gl xs) (more : ∀ n, own n → other n) : Within a other gl xs :=
  ⟨within.tidy, within.inRange, within.alignment, fun n not => within.size n fun mine => not (more n mine)⟩

/-- The sizes of the plane's buffers are all that matters of the context. -/
theorem ReadyFits.after (fits : ReadyFits a rowLength gl names plane) (within : Within a own gl xs)
    (apart : ∀ i, ¬ own (names.ids i)) : ReadyFits a rowLength (gl.afterAll xs) names plane := by
  intro index ready
  obtain ⟨ids, p, good, w, h, stride, bytes, size⟩ := fits index ready
  exact ⟨ids, p, good, w, h, stride, bytes, (within.size _ (apart index)).trans size⟩

theorem ReadyFits.of_idle (idle : readyBuffer plane.pbo = none) : ReadyFits a rowLength gl names plane := by
  intro index ready
  rw [idle] at ready
  cases ready

/-- How much of the client's memory is there for the transfer. -/
def Supplies (rowLength : Bool) (p : PlaneSource) : Prop :=
  if rowLength then p.width * p.bytesPerPixel ≤ p.strideBytes ∧ p.strideBytes * p.height ≤ p.data.bytes.length
  else p.width * p.bytesPerPixel * p.height ≤ p.data.bytes.length

theorem PlaneSource.Valid.supplies (valid : p.Valid) (rowLength : Bool) : Supplies rowLength p := by
  cases rowLength with
  | true => exact ⟨valid.stride, valid.data⟩
  | false => exact (Nat.mul_le_mul_right _ valid.stride).trans valid.data

/-- With alignment 1 the rows are read as they lie in client memory. -/
theorem Supplies.reads (supplies : Supplies rowLength p) (gl : Gl) (packed : gl.alignment = 1)
    (length : gl.rowLength = if rowLength then p.strideBytes / p.bytesPerPixel else 0) :
    gl.reads p.width p.height p.bytesPerPixel ≤ p.data.bytes.length := by
  cases rowLength with
  | true =>
    obtain ⟨row, data⟩ := supplies
    refine (reads_of_stride packed ?_ row p.height).trans data
    rw [length, if_pos rfl]
    split
    · exact row
    · exact Nat.div_mul_le_self ..
  | false =>
    refine (reads_of_stride packed ?_ le_rfl p.height).trans supplies
    simp [length]

theorem PlaneSource.Valid.supplies_packed (valid : p.Valid) (luminance : p.bytesPerPixel = 1) (rowLength : Bool) :
    Supplies rowLength (i420Tight rowLength p) := by
  cases rowLength with
  | true =>
    have same : i420Tight true p = p := by simp [i420Tight, prepareTightPlaneIfNeeded]
    rw [same]
    exact valid.supplies true
  | false =>
    have row : p.width ≤ p.strideBytes := by simpa [luminance] using valid.stride
    by_cases whole : p.strideBytes = p.width
    · have same : i420Tight false p = p := by rw [i420Tight, prepareTightPlaneIfNeeded, if_pos (.inl whole)]
      rw [same]
      exact valid.supplies false
    · simp [Supplies, i420Tight, prepareTightPlaneIfNeeded, whole, luminance, length_tightRows row valid.data]

theorem supplies_packedY {number : Nat} {b : NV12Buffer} (valid : (nv12PlaneY number b).Valid) (rowLength : Bool) :
    Supplies rowLength (nv12TightY rowLength number b) := by
  have packed := valid.supplies_packed rfl rowLength
  cases rowLength <;> exact packed

theorem supplies_packedUV {number : Nat} {b : NV12Buffer} (valid : (nv12PlaneUV number b).Valid) (rowLength : Bool) :
    Supplies rowLength (nv12TightUV rowLength number b) := by
  cases rowLength with
  | true => exact valid.supplies true
  | false =>
    by_cases whole : b.strideUV = b.chromaWidth * 2
    · have same : nv12TightUV false number b = { nv12PlaneUV number b with strideBytes := b.chromaWidth * 2 } := by
        simp [nv12TightUV, nv12PlaneUV, whole]
      rw [same]
      exact valid.supplies false
    · have length := length_tightRows valid.stride valid.data
      simp only [nv12PlaneUV] at length
      simp [Supplies, nv12TightUV, nv12PlaneUV, whole, length]

/-- An upload without buffers leaves what is ready. -/
theorem ReadyFits.tight (fits : ReadyFits a rowLength gl names plane) (supported : Bool) (p : PlaneSource) :
    ReadyFits a rowLength gl names (uploadPlaneTight supported p plane) := by
  unfold ReadyFits
  rw [uploadPlaneTight_pbo]
  exact fits

theorem tightCalls_within (clean : gl.Clean) (tex : names.tex ∈ gl.textures) (supplies : Supplies rowLength p) :
    Within a own gl (tightCalls rowLength names p plane) := by
  have tidy : Tidy gl (tightCalls rowLength names p plane) := tightCalls_tidy clean tex
  obtain ⟨unbound, _, unset⟩ := clean
  refine ⟨tidy, ?_, ?_, fun _ _ => ?_⟩
  · unfold tightCalls allocateCalls transferCalls
    cases rowLength
    · have reads := supplies.reads { gl with alignment := 1 } rfl unset
      split <;> simpa [Follows, InRange, Gl.Supplied, Gl.after, unbound] using reads
    · have reads := supplies.reads { gl with alignment := 1, rowLength := p.strideBytes / p.bytesPerPixel } rfl rfl
      split <;> simpa [Follows, InRange, Gl.Supplied, Gl.after, unbound] using reads
  · have one : (gl.afterAll (tightCalls rowLength names p plane)).alignment = 1 := by
      unfold tightCalls allocateCalls transferCalls
      cases rowLength <;> split <;> rfl
    rw [one]
    exact one_dvd a
  · unfold tightCalls allocateCalls transferCalls
    cases rowLength <;> split <;> rfl

/-- What was staged from a plane is enough for the transfer of it, and for one
with a null pointer while the buffer is bound. -/
theorem uploadBytes_reads (row : p.width * p.bytesPerPixel ≤ p.strideBytes) (positive : 0 < p.bytesPerPixel)
    (rowLength : Bool) (gl : Gl) (packed : gl.alignment = 1)
    (length : gl.rowLength = if rowLength then p.strideBytes / p.bytesPerPixel else 0) :
    gl.reads p.width p.height p.bytesPerPixel ≤ uploadBytes rowLength p := by
  unfold uploadBytes
  split
  · rename_i padded
    obtain ⟨supported, _⟩ := padded
    refine reads_of_stride packed ?_ row p.height
    rw [length, if_pos supported]
    split
    · exact row
    · exact Nat.div_mul_le_self ..
  · rename_i packedRows
    refine reads_of_stride packed ?_ le_rfl p.height
    rw [length]
    cases rowLength with
    | false => simp
    | true =>
      have same : p.strideBytes = p.width * p.bytesPerPixel := by simpa using packedRows
      rw [if_pos rfl, same, Nat.mul_div_cancel _ positive, ite_self]

theorem rows_le_uploadBytes (row : p.width * p.bytesPerPixel ≤ p.strideBytes) (rowLength : Bool) :
    p.width * p.bytesPerPixel * p.height ≤ uploadBytes rowLength p := by
  unfold uploadBytes
  split
  · exact Nat.mul_le_mul_right _ row
  · rfl

/-- Rows of whole units are read without padding, also before the alignment is set to 1. -/
theorem PlaneFits.reads (good : PlaneFits a p) (rowLength : Bool) (gl : Gl) (alignment : gl.alignment ∣ a) (unset : gl.rowLength = 0) :
    gl.reads p.width p.height p.bytesPerPixel ≤ uploadBytes rowLength p := by
  have aligned : gl.alignment ∣ p.width * p.bytesPerPixel := alignment.trans good.aligned
  have some : 0 < p.width * p.bytesPerPixel := Nat.mul_pos good.valid.width good.valid.positive
  exact (reads_of_aligned unset (Nat.pos_of_dvd_of_pos aligned some) aligned p.height).trans
    (rows_le_uploadBytes good.valid.stride rowLength)

theorem bufferCalls_within (clean : gl.Clean) (tex : names.tex ∈ gl.textures) {index : Fin 2}
    (there : names.ids index ∈ gl.buffers) (alignment : gl.alignment ∣ a) (good : PlaneFits a p)
    (width : plane.pbo.readyW = p.width) (height : plane.pbo.readyH = p.height)
    (stride : plane.pbo.readyStrideBytes = p.strideBytes) (bytes : plane.pbo.readyBytesPerPixel = p.bytesPerPixel)
    (size : gl.size (names.ids index) = uploadBytes rowLength p) :
    Within a own gl (bufferCalls rowLength names plane index) := by
  have tidy : Tidy gl (bufferCalls rowLength names plane index) := bufferCalls_tidy clean tex there
  obtain ⟨unbound, _, unset⟩ := clean
  have allocated := good.reads rowLength { gl with unpackBuffer := names.ids index } alignment unset
  have one : (gl.afterAll (bufferCalls rowLength names plane index)).alignment = 1 := by
    unfold bufferCalls allocateCalls transferCalls
    by_cases same : plane.cached.w = plane.pbo.readyW ∧ plane.cached.h = plane.pbo.readyH
    · simp only [if_pos same]
      cases rowLength <;> rfl
    · simp only [if_neg same]
      cases rowLength <;> rfl
  refine ⟨tidy, ?_, one ▸ one_dvd a, fun _ _ => ?_⟩
  · unfold bufferCalls allocateCalls transferCalls
    simp only [width, height, stride, bytes]
    cases rowLength with
    | false =>
      have reads := uploadBytes_reads good.valid.stride good.valid.positive false
        { gl with unpackBuffer := names.ids index, alignment := 1 } rfl unset
      split <;> simp [Follows, InRange, Gl.Supplied, Gl.after, size, reads, allocated]
    | true =>
      have reads := uploadBytes_reads good.valid.stride good.valid.positive true
        { gl with unpackBuffer := names.ids index, alignment := 1, rowLength := p.strideBytes / p.bytesPerPixel } rfl rfl
      split <;> simp [Follows, InRange, Gl.Supplied, Gl.after, size, reads, allocated]
  · unfold bufferCalls allocateCalls transferCalls
    by_cases same : plane.cached.w = plane.pbo.readyW ∧ plane.cached.h = plane.pbo.readyH
    · simp only [if_pos same]
      cases rowLength <;> rfl
    · simp only [if_neg same]
      cases rowLength <;> rfl

theorem readyCalls_within (clean : gl.Clean) (alignment : gl.alignment ∣ a) (tex : names.tex ∈ gl.textures)
    (there : ∀ i, names.ids i ∈ gl.buffers) (fits : ReadyFits a rowLength gl names plane) :
    Within a own gl (readyCalls rowLength names plane) := by
  unfold readyCalls
  cases ready : readyBuffer plane.pbo with
  | none => exact .nil clean alignment
  | some index =>
    obtain ⟨_, p, good, width, height, stride, bytes, size⟩ := fits index ready
    exact bufferCalls_within clean tex (there index) alignment good width height stride bytes size

/-- Staging reads nothing, and sizes the next buffer. -/
theorem stageCalls_within (clean : gl.Clean) (alignment : gl.alignment ∣ a) (rowLength : Bool) (outcome : StageOutcome)
    (p : PlaneSource) {pbo : PlaneUploadPbo} (there : pbo.ids = true → ∀ i, names.ids i ∈ gl.buffers) :
    Within a (· ∈ names.buffers) gl (stageCalls rowLength outcome names p pbo) ∧
      (pbo.ids = true → (gl.afterAll (stageCalls rowLength outcome names p pbo)).size (names.ids pbo.nextStageIndex) =
        uploadBytes rowLength p) := by
  have tidy : Tidy gl (stageCalls rowLength outcome names p pbo) := stageCalls_tidy clean there
  obtain ⟨mapped, intact⟩ := outcome
  unfold stageCalls at tidy ⊢
  split at tidy
  · rename_i generated
    rw [if_pos generated]
    have mine (i : Fin 2) : names.ids i ∈ names.buffers := by
      fin_cases i <;> simp [PlaneNames.buffers]
    refine ⟨⟨tidy, ?_, ?_, fun n not => ?_⟩, fun _ => ?_⟩
    · cases mapped <;> cases intact <;> cases rowLength <;> simp [Follows, InRange]
    · cases mapped <;> cases intact <;> cases rowLength <;> exact alignment
    · have different : n ≠ names.ids pbo.nextStageIndex := fun same => not (same ▸ mine _)
      cases mapped <;> cases intact <;> cases rowLength <;> exact Function.update_of_ne different _ _
    · cases mapped <;> cases intact <;> cases rowLength <;> exact Function.update_self ..
  · rename_i absent
    rw [if_neg absent]
    exact ⟨.nil clean alignment, fun generated => absurd generated absent⟩

theorem stagePlaneIntoPbo_ready {pbo : PlaneUploadPbo} (staged : (stagePlaneIntoPbo rowLength outcome p pbo).2 = true) :
    let next := (stagePlaneIntoPbo rowLength outcome p pbo).1
    pbo.ids = true ∧ next.ids = true ∧ readyBuffer next = some pbo.nextStageIndex ∧ next.readyW = p.width ∧
      next.readyH = p.height ∧ next.readyStrideBytes = p.strideBytes ∧ next.readyBytesPerPixel = p.bytesPerPixel := by
  unfold stagePlaneIntoPbo at staged ⊢
  by_cases generated : pbo.ids = true
  · simp only [if_pos generated] at staged ⊢
    by_cases intact : outcome.mapped = true ∧ outcome.unmapped = true
    · simp [if_pos intact, readyBuffer, generated]
    · simp [if_neg intact] at staged
  · simp [if_neg generated] at staged

/-- An upload reads what was staged before, or the plane itself; what it stages fits the next one. -/
theorem asyncCalls_within (clean : gl.Clean) (alignment : gl.alignment ∣ a) (named : Named gl names plane)
    (fits : ReadyFits a rowLength gl names plane) (good : PlaneFits a p) (found : Nat) (outcome : StageOutcome) :
    Within a (· ∈ names.buffers) gl (asyncCalls rowLength found outcome names p plane) ∧
      ReadyFits a rowLength (gl.afterAll (asyncCalls rowLength found outcome names p plane)) names
        (uploadPlaneViaPboAsync rowLength found outcome p plane).1 := by
  unfold asyncCalls uploadPlaneViaPboAsync
  by_cases generated : plane.pbo.ids = true
  · simp only [if_pos generated, uploadPlaneFromReadyPbo_pbo]
    have ready : Within a (· ∈ names.buffers) gl (readyCalls rowLength names plane) :=
      readyCalls_within clean alignment named.tex (named.ids generated) fits
    have stage := stageCalls_within ready.tidy.clean ready.alignment rowLength outcome p (fun _ : plane.pbo.ids = true => ready.tidy.buffers ▸ named.ids generated)
    have staged : Within a (· ∈ names.buffers) gl
        (readyCalls rowLength names plane ++ stageCalls rowLength outcome names p plane.pbo) := ready.append stage.1
    have size := stage.2 generated
    rw [← afterAll_append] at size
    by_cases done : (stagePlaneIntoPbo rowLength outcome p plane.pbo).2 = true
    · simp only [if_pos done, List.append_nil]
      refine ⟨staged, fun index waiting => ?_⟩
      obtain ⟨_, ids, next, fields⟩ := stagePlaneIntoPbo_ready done
      obtain rfl : plane.pbo.nextStageIndex = index := Option.some.inj (next.symm.trans waiting)
      obtain ⟨width, height, stride, bytes⟩ := fields
      exact ⟨ids, p, good, width, height, stride, bytes, size⟩
    · simp only [if_neg done]
      refine ⟨staged.append (tightCalls_within staged.tidy.clean ?_ (good.valid.supplies rowLength)), .of_idle ?_⟩
      · rw [staged.tidy.textures]
        exact named.tex
      · rw [uploadPlaneTight_pbo]
        exact readyBuffer_reset _
  · simp only [if_neg generated]
    refine ⟨tightCalls_within clean named.tex (good.valid.supplies rowLength), fun index ready => ?_⟩
    rw [uploadPlaneTight_pbo] at ready
    exact absurd (fits index ready).1 generated

/-- One of the planes of an upload through buffers, with the unpack alignment that it finds. -/
structure PlaneUpload where
  names : PlaneNames
  found : Nat
  outcome : StageOutcome
  source : PlaneSource
  plane : Plane

def PlaneUpload.calls (rowLength : Bool) (u : PlaneUpload) : List Call :=
  asyncCalls rowLength u.found u.outcome u.names u.source u.plane

def PlaneUpload.after (rowLength : Bool) (u : PlaneUpload) : Plane :=
  (uploadPlaneViaPboAsync rowLength u.found u.outcome u.source u.plane).1

/-- Planes that share no buffer, one after the other. -/
theorem uploads_within (rowLength : Bool) (us : List PlaneUpload)
    (apart : us.Pairwise fun u v => ∀ n ∈ u.names.buffers, n ∉ v.names.buffers)
    (clean : gl.Clean) (alignment : gl.alignment ∣ a)
    (ready : ∀ u ∈ us, Named gl u.names u.plane ∧ ReadyFits a rowLength gl u.names u.plane ∧ PlaneFits a u.source) :
    Within a (fun n => ∃ u ∈ us, n ∈ u.names.buffers) gl (us.flatMap (·.calls rowLength)) ∧
      ∀ u ∈ us, ReadyFits a rowLength (gl.afterAll (us.flatMap (·.calls rowLength))) u.names (u.after rowLength) := by
  induction us generalizing gl with
  | nil => exact ⟨.nil clean alignment, by simp⟩
  | cons u us ih =>
    obtain ⟨others, apart⟩ := List.pairwise_cons.mp apart
    obtain ⟨⟨named, fits, good⟩, ready⟩ := List.forall_mem_cons.mp ready
    obtain ⟨first, staged⟩ := asyncCalls_within clean alignment named fits good u.found u.outcome
    have mine (v : PlaneUpload) (i : Fin 2) : v.names.ids i ∈ v.names.buffers := by
      fin_cases i <;> simp [PlaneNames.buffers]
    obtain ⟨rest, later⟩ := ih apart first.tidy.clean first.alignment fun v inside => by
      obtain ⟨named, fits, good⟩ := ready v inside
      exact ⟨named.after first.tidy, fits.after first fun i same => others v inside _ same (mine v i), good⟩
    rw [List.flatMap_cons]
    refine ⟨(first.mono fun n own => ⟨u, List.mem_cons_self, own⟩).append
      (rest.mono fun n shared => shared.imp fun v known => ⟨List.mem_cons_of_mem u known.1, known.2⟩), ?_⟩
    rw [afterAll_append]
    refine List.forall_mem_cons.mpr ⟨staged.after rest ?_, later⟩
    intro i shared
    obtain ⟨v, inside, own⟩ := shared
    exact others v inside _ (mine u i) own

end Planes

/-! The frames of the node. -/

/-- What is ready in the four planes fits its buffers. -/
structure NodeFits (a : Nat) (gl : Gl) (names : NodeNames) (node : RenderNode) : Prop where
  y : ReadyFits a node.supportsUnpackRowLength gl names.y node.planeY
  u : ReadyFits a node.supportsUnpackRowLength gl names.u node.planeU
  v : ReadyFits a node.supportsUnpackRowLength gl names.v node.planeV
  uv : ReadyFits a node.supportsUnpackRowLength gl names.uv node.planeUV

section Node
variable {a : Nat} {own : Nat → Prop} {gl : Gl} {xs : List Call} {names : NodeNames} {node next : RenderNode} {results : GlResults}

theorem NodeFits.of_idle (idle : ∀ plane ∈ node.planes, readyBuffer plane.pbo = none) : NodeFits a gl names node := by
  rw [forall_planes] at idle
  exact ⟨.of_idle idle.1, .of_idle idle.2.1, .of_idle idle.2.2.1, .of_idle idle.2.2.2⟩

theorem NodeFits.enterCpuPath (fits : NodeFits a gl names node) (path : UploadPathKind) :
    NodeFits a gl names (Renderer.enterCpuPath path node) := by
  unfold Renderer.enterCpuPath
  split
  · exact fits
  · exact .of_idle (by simp [forall_planes, resetCpuUploadPipeline, resetPlane, readyBuffer_reset])

theorem NodeFits.enterOesPath (fits : NodeFits a gl names node) : NodeFits a gl names (Renderer.enterOesPath node) := by
  unfold Renderer.enterOesPath
  split
  · exact fits
  · exact .of_idle (by simp [forall_planes, resetCpuUploadPipeline, resetPlane, readyBuffer_reset])

/-- No two planes share a buffer. -/
theorem NodeOwned.apart (owned : NodeOwned gl names node) (inUse : buffersInUse node = true) :
    [names.y, names.u, names.v, names.uv].Pairwise fun x y => ∀ n ∈ x.buffers, n ∉ y.buffers := by
  have distinct := (List.nodup_cons.mp (owned.buffers_nodup inUse)).2
  have parts : names.buffers = [names.y.buffers, names.u.buffers, names.v.buffers, names.uv.buffers].flatten := by
    simp [NodeNames.buffers]
  rw [parts, List.nodup_flatten] at distinct
  have apart := distinct.2
  rw [show [names.y.buffers, names.u.buffers, names.v.buffers, names.uv.buffers] =
    [names.y, names.u, names.v, names.uv].map PlaneNames.buffers from rfl, List.pairwise_map] at apart
  exact apart.imp fun disjoint n first second => disjoint first second

theorem ids_mem (names : PlaneNames) (i : Fin 2) : names.ids i ∈ names.buffers := by
  fin_cases i <;> simp [PlaneNames.buffers]

theorem nv12Calls_within (fits : NodeFits a gl names node) (owned : NodeOwned gl names node)
    (initialized : node.glInitialized = true) (alignment : gl.alignment ∣ a) (results : GlResults) {number : Nat} {b : NV12Buffer}
    (good : PlaneFits a (nv12PlaneY number b) ∧ PlaneFits a (nv12PlaneUV number b)) :
    Within a (fun _ => True) gl (nv12Calls results names number b node) ∧
      NodeFits a (gl.afterAll (nv12Calls results names number b node)) names (uploadNv12Planes results number b node).1 := by
  have named := owned.named initialized
  unfold nv12Calls uploadNv12Planes
  by_cases supported : node.supportsPixelUnpackBuffer = true
  · simp only [if_pos supported]
    have apart := owned.apart (by simp [buffersInUse, initialized, supported])
    simp only [List.pairwise_cons, List.forall_mem_cons] at apart
    obtain ⟨⟨yu, yv, yuv, _⟩, ⟨_, uuv, _⟩, ⟨vuv, _⟩, _⟩ := apart
    obtain ⟨within, later⟩ := uploads_within node.supportsUnpackRowLength
      [⟨names.y, node.unpackAlignment, results.y, nv12PlaneY number b, node.planeY⟩,
        ⟨names.uv, alignmentAfter results.y node.planeY node.unpackAlignment, results.uv, nv12PlaneUV number b, node.planeUV⟩]
      (by simpa using yuv) owned.clean alignment
      (by simpa using ⟨⟨named.y, fits.y, good.1⟩, named.uv, fits.uv, good.2⟩)
    simp only [List.flatMap_cons, List.flatMap_nil, List.append_nil, List.forall_mem_cons] at within later
    refine ⟨within.mono fun _ _ => trivial, later.1, fits.u.after within fun i => ?_, fits.v.after within fun i => ?_, later.2.1⟩
    · simpa using ⟨fun y => yu _ y (ids_mem _ i), uuv _ (ids_mem _ i)⟩
    · simpa using ⟨fun y => yv _ y (ids_mem _ i), vuv _ (ids_mem _ i)⟩
  · simp only [if_neg supported]
    have within : Within a (fun _ => False) gl
        (tightCalls node.supportsUnpackRowLength names.y (nv12TightY node.supportsUnpackRowLength number b) node.planeY ++
          tightCalls node.supportsUnpackRowLength names.uv (nv12TightUV node.supportsUnpackRowLength number b) node.planeUV) :=
      (tightCalls_within owned.clean named.y.tex (supplies_packedY good.1.valid _)).both fun y =>
        tightCalls_within y.tidy.clean (named.uv.after y.tidy).tex (supplies_packedUV good.2.valid _)
    refine ⟨within.mono fun _ no => no.elim, (fits.y.after within fun _ no => no).tight _ _,
      fits.u.after within fun _ no => no, fits.v.after within fun _ no => no, (fits.uv.after within fun _ no => no).tight _ _⟩

theorem i420Calls_within (fits : NodeFits a gl names node) (owned : NodeOwned gl names node)
    (initialized : node.glInitialized = true) (alignment : gl.alignment ∣ a) (results : GlResults) {number : Nat} {b : I420Buffer}
    (good : PlaneFits a (i420PlaneY number b) ∧ PlaneFits a (i420PlaneU number b) ∧ PlaneFits a (i420PlaneV number b)) :
    Within a (fun _ => True) gl (i420Calls results names number b node) ∧
      NodeFits a (gl.afterAll (i420Calls results names number b node)) names (uploadI420Planes results number b node).1 := by
  have named := owned.named initialized
  obtain ⟨goodY, goodU, goodV⟩ := good
  unfold i420Calls uploadI420Planes
  by_cases supported : node.supportsPixelUnpackBuffer = true
  · simp only [if_pos supported]
    have apart := owned.apart (by simp [buffersInUse, initialized, supported])
    simp only [List.pairwise_cons, List.forall_mem_cons] at apart
    obtain ⟨⟨yu, yv, yuv, _⟩, ⟨uv, uuv, _⟩, ⟨vuv, _⟩, _⟩ := apart
    let alignmentU := alignmentAfter results.y node.planeY node.unpackAlignment
    obtain ⟨within, later⟩ := uploads_within node.supportsUnpackRowLength
      [⟨names.y, node.unpackAlignment, results.y, i420PlaneY number b, node.planeY⟩,
        ⟨names.u, alignmentU, results.u, i420PlaneU number b, node.planeU⟩,
        ⟨names.v, alignmentAfter results.u node.planeU alignmentU, results.v, i420PlaneV number b, node.planeV⟩]
      (by simpa using ⟨⟨yu, yv⟩, uv⟩) owned.clean alignment
      (by simpa using ⟨⟨named.y, fits.y, goodY⟩, ⟨named.u, fits.u, goodU⟩, named.v, fits.v, goodV⟩)
    simp only [List.flatMap_cons, List.flatMap_nil, List.append_nil, List.forall_mem_cons, ← List.append_assoc] at within later
    refine ⟨within.mono fun _ _ => trivial, later.1, later.2.1, later.2.2.1, fits.uv.after within fun i => ?_⟩
    simpa using ⟨fun y => yuv _ y (ids_mem _ i), fun u => uuv _ u (ids_mem _ i), fun v => vuv _ v (ids_mem _ i)⟩
  · simp only [if_neg supported]
    have within : Within a (fun _ => False) gl
        (tightCalls node.supportsUnpackRowLength names.y
            (i420Tight node.supportsUnpackRowLength (i420PlaneY number b)) node.planeY ++
          tightCalls node.supportsUnpackRowLength names.u
            (i420Tight node.supportsUnpackRowLength (i420PlaneU number b)) node.planeU ++
          tightCalls node.supportsUnpackRowLength names.v
            (i420Tight node.supportsUnpackRowLength (i420PlaneV number b)) node.planeV) := by
      refine Within.both ?_ fun u =>
        tightCalls_within u.tidy.clean (named.v.after u.tidy).tex (goodV.valid.supplies_packed rfl _)
      exact (tightCalls_within owned.clean named.y.tex (goodY.valid.supplies_packed rfl _)).both fun y =>
        tightCalls_within y.tidy.clean (named.u.after y.tidy).tex (goodU.valid.supplies_packed rfl _)
    refine ⟨within.mono fun _ no => no.elim, (fits.y.after within fun _ no => no).tight _ _,
      (fits.u.after within fun _ no => no).tight _ _, (fits.v.after within fun _ no => no).tight _ _,
      fits.uv.after within fun _ no => no⟩

theorem NodeFits.of_rest (fits : NodeFits a gl names node) (rowLength : next.supportsUnpackRowLength = node.supportsUnpackRowLength)
    (planes : next.planes = node.planes) : NodeFits a gl names next := by
  obtain ⟨y, u, v, uv⟩ := fits
  simp only [RenderNode.planes, List.cons.injEq, and_true] at planes
  obtain ⟨sameY, sameU, sameV, sameUV⟩ := planes
  constructor
  · rwa [rowLength, sameY]
  · rwa [rowLength, sameU]
  · rwa [rowLength, sameV]
  · rwa [rowLength, sameUV]

theorem NodeOwned.entered (owned : NodeOwned gl names node) (path : UploadPathKind) :
    NodeOwned gl names (Renderer.enterCpuPath path node) := by
  have same := enterCpuPath_same path node
  exact owned.used (.nil owned.clean) same.initialized same.inUse ((ids_kept _).enterCpuPath path owned.ids)

/-- The calls do not depend on what was shown before. -/
theorem nv12Calls_clearKind (results : GlResults) (names : NodeNames) (number : Nat) (b : NV12Buffer) (node : RenderNode) :
    nv12Calls results names number b (Renderer.enterCpuPath .nv12 node) =
      nv12Calls results names number b (Renderer.enterCpuPath .nv12 (clearKind node)) := by
  unfold Renderer.enterCpuPath clearKind
  split <;> rfl

theorem i420Calls_clearKind (results : GlResults) (names : NodeNames) (number : Nat) (b : I420Buffer) (node : RenderNode) :
    i420Calls results names number b (Renderer.enterCpuPath .i420 node) =
      i420Calls results names number b (Renderer.enterCpuPath .i420 (clearKind node)) := by
  unfold Renderer.enterCpuPath clearKind
  split <;> rfl

/-- Nor on whether the upload is still due. -/
theorem frameCalls_started (android : Bool) (results : GlResults) (names : NodeNames) (frame : QueuedFrame) (node : RenderNode) :
    frameCalls android results names frame node =
      frameCalls android results names frame { node with pendingUpload := false } := by
  unfold frameCalls Renderer.enterCpuPath
  split
  · rfl
  · split <;> rfl
  · split <;> rfl

theorem frameNv12_within (fits : NodeFits a gl names node) (owned : NodeOwned gl names node)
    (initialized : node.glInitialized = true) (alignment : gl.alignment ∣ a) (results : GlResults) {number : Nat} {b : NV12Buffer}
    (good : FrameFits a ⟨number, .nv12 b⟩) :
    Within a (fun _ => True) gl (nv12Calls results names number b (Renderer.enterCpuPath .nv12 node)) ∧
      NodeFits a (gl.afterAll (nv12Calls results names number b (Renderer.enterCpuPath .nv12 node))) names
        (uploadNv12 results number b node) := by
  have there : (Renderer.enterCpuPath .nv12 node).glInitialized = true := (enterCpuPath_same .nv12 _).initialized.trans initialized
  obtain ⟨within, later⟩ := nv12Calls_within (fits.enterCpuPath .nv12) (owned.entered .nv12) there alignment results
    (by simpa [FrameFits, planesOf] using good)
  exact ⟨within, later.of_rest rfl rfl⟩

theorem frameI420_within (fits : NodeFits a gl names node) (owned : NodeOwned gl names node)
    (initialized : node.glInitialized = true) (alignment : gl.alignment ∣ a) (results : GlResults) {frame : QueuedFrame} {b : I420Buffer}
    (resolved : resolveI420ForUpload frame.buffer = some b)
    (good : ∀ p ∈ [i420PlaneY frame.number b, i420PlaneU frame.number b, i420PlaneV frame.number b], PlaneFits a p) :
    Within a (fun _ => True) gl (i420Calls results names frame.number b (Renderer.enterCpuPath .i420 node)) ∧
      NodeFits a (gl.afterAll (i420Calls results names frame.number b (Renderer.enterCpuPath .i420 node))) names
        (uploadI420 results frame node) := by
  have there : (Renderer.enterCpuPath .i420 node).glInitialized = true := (enterCpuPath_same .i420 _).initialized.trans initialized
  obtain ⟨within, later⟩ := i420Calls_within (fits.enterCpuPath .i420) (owned.entered .i420) there alignment results
    (by simpa using good)
  unfold uploadI420
  simp only [resolved]
  exact ⟨within, later.of_rest rfl rfl⟩

/-- A frame without planes makes no calls, and what was ready stays or is dropped. -/
theorem frameNone_fits (fits : NodeFits a gl names node) (results : GlResults) (frame : QueuedFrame)
    (absent : resolveI420ForUpload frame.buffer = none) : NodeFits a gl names (uploadI420 results frame node) := by
  unfold uploadI420
  simp only [absent]
  exact (fits.enterCpuPath .i420).of_rest rfl rfl

theorem frameCalls_resolved {frame : QueuedFrame} {b : I420Buffer} (resolved : resolveI420ForUpload frame.buffer = some b)
    (android : Bool) (results : GlResults) (names : NodeNames) (node : RenderNode) :
    frameCalls android results names frame node = i420Calls results names frame.number b (Renderer.enterCpuPath .i420 node) ∧
      uploadHeldFrame android results frame node = uploadI420 results frame (clearKind node) ∧
      planesOf frame = [i420PlaneY frame.number b, i420PlaneU frame.number b, i420PlaneV frame.number b] := by
  obtain ⟨number, buffer⟩ := frame
  cases buffer with
  | oes textureId => cases resolved
  | nv12 c => cases resolved
  | i420 c =>
    cases resolved
    refine ⟨?_, ?_, by simp [planesOf, resolveI420ForUpload]⟩
    · cases android <;> simp [frameCalls, resolveI420ForUpload]
    · cases android <;> rfl
  | other toI420 =>
    refine ⟨?_, ?_, by simp [planesOf, resolved]⟩
    · cases android <;> simp [frameCalls, resolved]
    · cases android <;> rfl

/-- The calls for a frame and what becomes of the node: its planes are uploaded
on one of two paths, there are none, or it is an external texture. -/
theorem frameCalls_cases {P : List Call → RenderNode → Prop} (android : Bool) (results : GlResults) (names : NodeNames)
    (frame : QueuedFrame) (node : RenderNode)
    (nv12 : ∀ b, frame.buffer = .nv12 b → P (nv12Calls results names frame.number b (Renderer.enterCpuPath .nv12 (clearKind node)))
      (uploadNv12 results frame.number b (clearKind node)))
    (i420 : ∀ b, resolveI420ForUpload frame.buffer = some b →
      P (i420Calls results names frame.number b (Renderer.enterCpuPath .i420 (clearKind node)))
        (uploadI420 results frame (clearKind node)))
    (dropped : resolveI420ForUpload frame.buffer = none → P [] (uploadI420 results frame (clearKind node)))
    (oes : ∀ textureId, P [] (uploadOes textureId node)) :
    P (frameCalls android results names frame node) (uploadHeldFrame android results frame node) := by
  cases resolved : resolveI420ForUpload frame.buffer with
  | some b =>
    obtain ⟨calls, next, _⟩ := frameCalls_resolved resolved android results names node
    rw [calls, next, i420Calls_clearKind]
    exact i420 b resolved
  | none =>
    obtain ⟨number, buffer⟩ := frame
    cases buffer with
    | i420 b => cases resolved
    | nv12 b =>
      have made := nv12 b rfl
      rw [← nv12Calls_clearKind] at made
      cases android <;> exact made
    | other toI420 =>
      cases resolved
      cases android <;> exact dropped rfl
    | oes textureId =>
      cases android with
      | false => exact dropped rfl
      | true => exact oes textureId

/-- The upload that is due, if there is one. -/
theorem uploadCalls_cases {P : List Call → RenderNode → Prop} (android : Bool) (results : GlResults) (names : NodeNames)
    (node : RenderNode) (done : node.pendingUpload = false → P [] node)
    (empty : P [] { node with pendingUpload := false, uploadStatsValidForLastFrame := false, hasData := false })
    (frame : node.pendingUpload = true → ∀ frame, node.heldBuffer = some frame →
      P (frameCalls android results names frame { node with pendingUpload := false })
        (uploadHeldFrame android results frame { node with pendingUpload := false })) :
    P (uploadCalls android results names node) (uploadIfPending android results node) := by
  unfold uploadCalls uploadIfPending uploadPendingFrame
  by_cases pending : node.pendingUpload = true
  · simp only [if_pos pending]
    rcases Option.eq_none_or_eq_some node.heldBuffer with nothing | ⟨held, holding⟩
    · simp only [nothing] at empty ⊢
      exact empty
    · have upload := frame pending held holding
      simp only [holding] at upload
      simp only [holding, Option.toList_some, List.flatMap_cons, List.flatMap_nil, List.append_nil,
        frameCalls_started android results names held node]
      exact upload
  · simp only [if_neg pending]
    exact done (by simpa using pending)

theorem frameCalls_within (fits : NodeFits a gl names node) (owned : NodeOwned gl names node)
    (initialized : node.glInitialized = true) (alignment : gl.alignment ∣ a) (android : Bool) (results : GlResults)
    {frame : QueuedFrame} (good : FrameFits a frame) :
    Within a (fun _ => True) gl (frameCalls android results names frame node) ∧
      NodeFits a (gl.afterAll (frameCalls android results names frame node)) names
        (uploadHeldFrame android results frame node) := by
  have nothing : Within a (fun _ => True) gl [] := .nil owned.clean alignment
  have cleared : NodeFits a gl names (clearKind node) := fits.of_rest rfl rfl
  have ready : NodeOwned gl names (clearKind node) := owned.kept rfl rfl rfl
  refine frameCalls_cases (P := fun calls next => Within a (fun _ => True) gl calls ∧ NodeFits a (gl.afterAll calls) names next)
    android results names frame node ?_ ?_ ?_ ?_
  · intro b same
    obtain ⟨number, _⟩ := frame
    cases same
    exact frameNv12_within cleared ready initialized alignment results good
  · intro b resolved
    obtain ⟨_, _, planes⟩ := frameCalls_resolved resolved android results names node
    exact frameI420_within cleared ready initialized alignment results resolved (planes ▸ good)
  · intro absent
    exact ⟨nothing, frameNone_fits cleared results frame absent⟩
  · intro textureId
    have entered := fits.enterOesPath
    refine ⟨nothing, ?_⟩
    unfold uploadOes
    simp only
    split <;> exact entered.of_rest rfl rfl

/-- Without buffers nothing is ready. -/
theorem NodeFits.idle (fits : NodeFits a gl names node) (owned : NodeOwned gl names node) (unused : buffersInUse node = false) :
    ∀ plane ∈ node.planes, readyBuffer plane.pbo = none := by
  have ids := owned.ids
  simp only [unused, Bool.false_eq_true, imp_false] at ids
  rw [forall_planes] at ids ⊢
  refine ⟨?_, ?_, ?_, ?_⟩
  · exact Option.eq_none_iff_forall_ne_some.mpr fun index ready => ids.1 (fits.y index ready).1
  · exact Option.eq_none_iff_forall_ne_some.mpr fun index ready => ids.2.1 (fits.u index ready).1
  · exact Option.eq_none_iff_forall_ne_some.mpr fun index ready => ids.2.2.1 (fits.v index ready).1
  · exact Option.eq_none_iff_forall_ne_some.mpr fun index ready => ids.2.2.2 (fits.uv index ready).1

theorem uploadCalls_within (fits : NodeFits a gl names node) (owned : NodeOwned gl names node)
    (initialized : node.glInitialized = true) (alignment : gl.alignment ∣ a) (android : Bool) (results : GlResults)
    (held : node.pendingUpload = true → ∀ frame, node.heldBuffer = some frame → FrameFits a frame) :
    Within a (fun _ => True) gl (uploadCalls android results names node) ∧
      NodeFits a (gl.afterAll (uploadCalls android results names node)) names (uploadIfPending android results node) := by
  have nothing : Within a (fun _ => True) gl [] := .nil owned.clean alignment
  refine uploadCalls_cases (P := fun calls next => Within a (fun _ => True) gl calls ∧ NodeFits a (gl.afterAll calls) names next)
    android results names node (fun _ => ⟨nothing, fits⟩) ⟨nothing, fits.of_rest rfl rfl⟩ fun pending frame holding => ?_
  have started : NodeFits a gl names { node with pendingUpload := false } := fits.of_rest rfl rfl
  exact frameCalls_within started (owned.kept rfl rfl rfl) initialized alignment android results (held pending frame holding)

theorem drawCalls_inRange (gl : Gl) (names : NodeNames) (node : RenderNode) : Follows InRange gl (drawCalls names node) := by
  unfold drawCalls
  split
  · exact ⟨trivial, trivial⟩
  · cases node.frameIsNv12 <;> simp [Follows, InRange]

theorem drawCalls_size (gl : Gl) (names : NodeNames) (node : RenderNode) : gl.afterAll (drawCalls names node) = gl := by
  unfold drawCalls
  split
  · rfl
  · cases node.frameIsNv12 <;> rfl

theorem NodeFits.rendered (fits : NodeFits a gl names node) (owned : NodeOwned gl names node)
    (initialized : node.glInitialized = true) (alignment : gl.alignment ∣ a) (android : Bool) (results : GlResults)
    (held : node.pendingUpload = true → ∀ frame, node.heldBuffer = some frame → FrameFits a frame) :
    let calls := uploadCalls android results names node ++ if (uploadIfPending android results node).hasData then
      drawCalls names (uploadIfPending android results node) else []
    Follows InRange gl calls ∧ NodeFits a (gl.afterAll calls) names (uploadIfPending android results node) := by
  obtain ⟨within, later⟩ := uploadCalls_within fits owned initialized alignment android results held
  simp only [afterAll_append]
  split
  · rw [drawCalls_size]
    exact ⟨within.inRange.append (drawCalls_inRange ..), later⟩
  · exact ⟨within.inRange.append trivial, later⟩

theorem NodeFits.render (fits : NodeFits a gl names node) (owned : NodeOwned gl names node) (alignment : gl.alignment ∣ a)
    (android : Bool) (results : GlResults) {given : NodeNames} (textures : given.textures.Nodup) (buffers : (0 :: given.buffers).Nodup)
    (held : node.pendingUpload = true → ∀ frame, node.heldBuffer = some frame → FrameFits a frame) :
    let after := if !node.glInitialized && results.context then given.given results.supportsPixelUnpackBuffer else names
    Follows InRange gl (renderCalls android results after node) ∧
      NodeFits a (gl.afterAll (renderCalls android results after node)) after (Renderer.render android results node).1 := by
  unfold renderCalls Renderer.render
  cases there : node.glInitialized with
  | true =>
    have ready : ensureInitialized android results node = some node := by simp [ensureInitialized, there]
    simp only [ready, Bool.not_true, Bool.false_and, Bool.false_eq_true, if_false, if_true, List.nil_append]
    exact fits.rendered owned there alignment android results held
  | false =>
    cases ready : ensureInitialized android results node with
    | none =>
      have noContext : results.context = false := by simpa [ensureInitialized, there] using ready
      simp only [noContext, Bool.and_false, Bool.false_eq_true, if_false]
      exact ⟨trivial, fits⟩
    | some next =>
      obtain ⟨context, supported, pending, holding, planes⟩ := ensureInitialized_new there ready
      obtain ⟨_, made⟩ := owned.initialize there ready textures buffers
      have unused : buffersInUse node = false := by rw [buffersInUse, there, Bool.false_and]
      have idle : ∀ plane ∈ next.planes, readyBuffer plane.pbo = none := by
        intro plane inside
        rw [planes] at inside
        obtain ⟨before, known, rfl⟩ := List.mem_map.mp inside
        exact (genPlane_ready _ before).trans (fits.idle owned unused before known)
      rw [supported] at made
      simp only [context, supported, Bool.not_false, Bool.and_true, Bool.false_eq_true, if_false, if_true, List.append_assoc]
      generalize given.given results.supportsPixelUnpackBuffer = names at made ⊢
      have initial : Follows InRange gl (initCalls results.supportsPixelUnpackBuffer names) ∧
          (gl.afterAll (initCalls results.supportsPixelUnpackBuffer names)).alignment = gl.alignment := by
        cases results.supportsPixelUnpackBuffer <;> exact ⟨by simp [initCalls, Follows, InRange], rfl⟩
      obtain ⟨inRange, later⟩ := NodeFits.rendered (.of_idle idle) made (ensureInitialized_initialized ready)
        (initial.2 ▸ alignment) android results (by rwa [pending, holding])
      refine ⟨initial.1.append inRange, ?_⟩
      rw [afterAll_append]
      exact later

end Node

/-! The transfers of a whole run. -/

/-- The planes of the frame that is delivered lie inside their data, and their
rows, like the alignments that others leave, fit to units of `a` bytes. -/
structure GlFits (a : Nat) (e : SurfaceEvent) : Prop extends GlBehaves e where
  alignment : ∀ results, e.event = .render results → results.unpackAlignment ∣ a
  frame : ∀ buffer rawId nowUs, e.event = .onFrame buffer rawId nowUs →
    ∀ pending, pendingOf buffer = some pending → ∀ number, FrameFits a ⟨number, pending⟩

structure SurfaceFits (a : Nat) (s : Surface) : Prop where
  owned : SurfaceOwned s
  ready : NodeFits a s.gl s.names (s.renderer.node.getD {})
  pending : ∀ frame, s.renderer.item.pendingBuffer = some frame → FrameFits a frame
  held : (s.renderer.node.getD {}).pendingUpload = true →
    ∀ frame, (s.renderer.node.getD {}).heldBuffer = some frame → FrameFits a frame

section Surface
variable {a : Nat} {android : Bool} {s t : Surface} {e : SurfaceEvent} {out log : List Call} {gl : Gl} {names : NodeNames}
  {node : RenderNode}

theorem NodeFits.sync (fits : NodeFits a gl names node) (item : VideoRenderer) :
    NodeFits a gl names (Renderer.sync item node).2 := by
  rcases sync_cases item node with ⟨frame, _, taken⟩ | unchanged | emptied
  · rw [taken]
    exact fits.of_rest rfl rfl
  · rw [unchanged]
    exact fits.of_rest rfl rfl
  · rw [emptied]
    exact fits.of_rest rfl rfl

theorem sync_held {P : QueuedFrame → Prop} {item : VideoRenderer} (pending : ∀ frame, item.pendingBuffer = some frame → P frame)
    (held : node.pendingUpload = true → ∀ frame, node.heldBuffer = some frame → P frame) :
    (Renderer.sync item node).2.pendingUpload = true →
      ∀ frame, (Renderer.sync item node).2.heldBuffer = some frame → P frame := by
  rcases sync_cases item node with ⟨taken, there, next⟩ | next | next
  · rw [next]
    intro _ frame same
    cases same
    exact pending taken there
  · rw [next]
    exact held
  · rw [next]
    intro due
    cases due

/-- Deleting reads nothing, and nothing is ready afterwards. -/
theorem NodeFits.destroy (fits : NodeFits a gl names node) (owned : NodeOwned gl names node) (context : Bool) :
    Follows InRange gl (destroyCalls context names node) ∧
      NodeFits a (gl.afterAll (destroyCalls context names node)) (if node.glInitialized && context then {} else names)
        (destroyGlResources context node) := by
  unfold destroyCalls destroyGlResources
  by_cases gone : node.glInitialized = true ∧ context = true
  · have both : (node.glInitialized && context) = true := by simpa using gone
    rw [if_pos both, if_pos both, if_pos gone]
    cases supported : node.supportsPixelUnpackBuffer with
    | false =>
      have idle := fits.idle owned (by rw [buffersInUse, supported, Bool.and_false])
      rw [forall_planes] at idle
      refine ⟨by simp [Follows, InRange], .of_idle ?_⟩
      rw [forall_planes]
      exact idle
    | true =>
      refine ⟨by simp [Follows, InRange], .of_idle ?_⟩
      rw [forall_planes]
      exact ⟨rfl, rfl, rfl, rfl⟩
  · have other : ¬(node.glInitialized && context) = true := by simpa using gone
    rw [if_neg other, if_neg other, if_neg gone]
    exact ⟨trivial, fits⟩

theorem takeFrame_pending (item : VideoRenderer) {frame : QueuedFrame}
    (left : (takeFrame item).1.pendingBuffer = some frame) : item.pendingBuffer = some frame := by
  unfold takeFrame at left
  split at left
  · split at left
    · exact left
    · cases left
  · exact left

/-- A frame that waits was delivered. -/
theorem pending_step {P : QueuedFrame → Prop} {before after : State} {event : RenderEvent} {effects : List RenderAction}
    (move : RenderMove android before event after effects)
    (delivered : ∀ buffer rawId nowUs, event = .onFrame buffer rawId nowUs →
      ∀ pending, pendingOf buffer = some pending → P ⟨before.delivered, pending⟩)
    (pending : ∀ frame, before.item.pendingBuffer = some frame → P frame) :
    ∀ frame, after.item.pendingBuffer = some frame → P frame := by
  cases move with
  | delivers buffer rawId nowUs attached =>
    intro frame there
    simp only [onFrame] at there
    split at there
    · exact pending frame there
    · rename_i queued taken
      cases there
      exact delivered buffer rawId nowUs rfl queued taken
  | syncs =>
    intro frame there
    refine pending frame (takeFrame_pending before.item ?_)
    rw [← sync_item before.item (before.node.getD {})]
    exact there
  | drops => exact pending
  | renders results =>
    have same : (renderNode android before results).1.item = before.item := by
      unfold renderNode
      split <;> rfl
    rw [same]
    exact pending
  | releases context => exact pending
  | keeps track same => exact pending
  | replaces track other =>
    intro frame there
    cases there
  | clears =>
    intro frame there
    cases there

/-- A frame that an upload is due for was taken from the item. -/
theorem held_step {P : QueuedFrame → Prop} {before after : State} {event : RenderEvent} {effects : List RenderAction}
    (move : RenderMove android before event after effects)
    (pending : ∀ frame, before.item.pendingBuffer = some frame → P frame)
    (held : (before.node.getD {}).pendingUpload = true → ∀ frame, (before.node.getD {}).heldBuffer = some frame → P frame) :
    (after.node.getD {}).pendingUpload = true → ∀ frame, (after.node.getD {}).heldBuffer = some frame → P frame := by
  cases move with
  | delivers buffer rawId nowUs attached => exact held
  | syncs => exact sync_held pending held
  | drops =>
    intro due
    cases due
  | renders results =>
    rw [renderNode_node]
    cases there : before.node with
    | none =>
      rw [there] at held
      exact held
    | some node =>
      simp only [Option.map_some, Option.getD_some]
      unfold Renderer.render
      split
      · rw [there] at held
        exact held
      · rename_i next _
        intro due
        have done : (uploadIfPending android results next).pendingUpload = false :=
          (uploadIfPending_same android results next).pending
        rw [done] at due
        cases due
  | releases context =>
    cases there : before.node with
    | none =>
      rw [there] at held
      simp only [Option.map_none]
      exact held
    | some node =>
      rw [there] at held
      simp only [Option.map_some, Option.getD_some]
      unfold destroyGlResources
      split <;> exact held
  | keeps track same => exact held
  | replaces track other => exact held
  | clears => exact held

theorem SurfaceFits.found (fits : SurfaceFits a s) (event : RenderEvent) :
    Follows InRange s.gl (foundCalls event) ∧
      NodeFits a (s.gl.afterAll (foundCalls event)) s.names ((s.renderer.found event).node.getD {}) := by
  have aligned : Follows InRange s.gl (foundCalls event) ∧
      NodeFits a (s.gl.afterAll (foundCalls event)) s.names (s.renderer.node.getD {}) := by
    obtain ⟨y, u, v, uv⟩ := fits.ready
    cases event with
    | render results => exact ⟨⟨trivial, trivial⟩, y, u, v, uv⟩
    | onFrame | updatePaintNode | releaseResources | setVideoTrack | clearVideoTrack => exact ⟨trivial, y, u, v, uv⟩
  exact ⟨aligned.1, found_node event aligned.2 fun _ _ fits => ⟨fits.y, fits.u, fits.v, fits.uv⟩⟩

theorem nodeFits_without {r t : State} {event : RenderEvent} {effects : List RenderAction} {gl : Gl}
    (fits : NodeFits a gl names (r.node.getD {})) (absent : r.node = none) (moved : step android r event = some (t, effects)) :
    NodeFits a gl names (t.node.getD {}) := by
  cases renderMove_of_step moved with
  | delivers buffer rawId nowUs attached => exact fits
  | syncs => exact fits.sync r.item
  | drops =>
    rw [absent] at fits
    exact fits
  | renders results =>
    rw [absent] at fits
    simp only [renderNode_node, absent, Option.map_none]
    exact fits
  | releases context =>
    rw [absent] at fits
    simp only [absent]
    exact fits
  | keeps track same => exact fits
  | replaces track other => exact fits
  | clears => exact fits

theorem surfaceCalls_inRange {r next : State} {effects : List RenderAction} {gl : Gl}
    (fits : NodeFits a gl s.names (r.node.getD {})) (owned : NodeOwned gl s.names (r.node.getD {}))
    (held : (r.node.getD {}).pendingUpload = true → ∀ frame, (r.node.getD {}).heldBuffer = some frame → FrameFits a frame)
    (there : r.node = some node) (behaves : GlBehaves e)
    (alignment : ∀ results, e.event = .render results → gl.alignment ∣ a)
    (moved : step android r e.event = some (next, effects)) :
    Follows InRange gl (surfaceCalls android s e node) ∧
      NodeFits a (gl.afterAll (surfaceCalls android s e node)) (namesAfter s e node) (next.node.getD {}) := by
  obtain ⟨event, given, context⟩ := e
  obtain ⟨textures, buffers, rfl⟩ := behaves
  cases renderMove_of_step moved with
  | delivers buffer rawId nowUs attached => exact ⟨trivial, fits⟩
  | syncs => exact ⟨trivial, fits.sync r.item⟩
  | drops =>
    rw [there] at fits owned
    exact ⟨(fits.destroy owned true).1, .of_idle (by simp [forall_planes, readyBuffer])⟩
  | renders results =>
    rw [there] at fits owned held
    rw [renderNode_node, there]
    exact fits.render owned (alignment results rfl) android results textures buffers held
  | releases context =>
    rw [there] at fits owned
    simp only [there]
    exact fits.destroy owned context
  | keeps track same => exact ⟨trivial, fits⟩
  | replaces track other => exact ⟨trivial, fits⟩
  | clears => exact ⟨trivial, fits⟩

theorem found_held {P : QueuedFrame → Prop} {s : State} (event : RenderEvent)
    (held : (s.node.getD {}).pendingUpload = true → ∀ frame, (s.node.getD {}).heldBuffer = some frame → P frame) :
    ((s.found event).node.getD {}).pendingUpload = true →
      ∀ frame, ((s.found event).node.getD {}).heldBuffer = some frame → P frame :=
  found_node (P := fun node => node.pendingUpload = true → ∀ frame, node.heldBuffer = some frame → P frame) event held
    fun _ _ held => held

theorem bounds_step (fits : SurfaceFits a s) (feasible : GlFits a e) (run : surfaceStep android s e = some (t, out)) :
    Follows InRange s.gl out ∧ SurfaceFits a t := by
  obtain ⟨_, owned⟩ := surface_step fits.owned feasible.toGlBehaves run
  obtain ⟨⟨next, effects⟩, moved, made⟩ := Option.map_eq_some_iff.mp run
  have ready : Follows InRange s.gl out ∧ NodeFits a t.gl t.names (t.renderer.node.getD {}) := by
    obtain ⟨inRange, found⟩ := fits.found e.event
    cases there : (s.renderer.found e.event).node with
    | none =>
      rw [there] at made
      cases made
      rw [Option.elim_none, List.append_nil]
      exact ⟨inRange, nodeFits_without found there moved⟩
    | some node =>
      rw [there] at made
      cases made
      have alignment (results : GlResults) (same : e.event = .render results) :
          (s.gl.afterAll (foundCalls e.event)).alignment ∣ a := by
        rw [same]
        exact feasible.alignment results same
      obtain ⟨called, kept⟩ := surfaceCalls_inRange found (SurfaceOwned.found fits.owned e.event).2
        (found_held e.event fits.held) there feasible.toGlBehaves alignment moved
      refine ⟨inRange.append called, ?_⟩
      rw [Option.elim_some, afterAll_append]
      exact kept
  cases made
  have move := renderMove_of_step moved
  have pending : ∀ frame, (s.renderer.found e.event).item.pendingBuffer = some frame → FrameFits a frame := by
    rw [(found_rest ..).1]
    exact fits.pending
  exact ⟨ready.1, owned, ready.2, pending_step move (fun buffer rawId nowUs same pending taken =>
    feasible.frame buffer rawId nowUs same pending taken _) pending, held_step move pending (found_held e.event fits.held)⟩

/-- If the planes of every frame lie inside their data, and their rows fit to
the alignments that others leave, then no transfer of a run reads past the end
of a plane or of the buffer that was staged for it, whatever sizes the frames
have and whichever stagings fail. -/
theorem transfers_inRange (reach : (surface android).Reach (fun _ e => GlFits a e) s log) : Follows InRange {} log := by
  have run : Follows InRange {} log ∧ s.gl = ({} : Gl).afterAll log ∧ SurfaceFits a s := by
    refine reach.invariant (P := fun s log => Follows InRange {} log ∧ s.gl = ({} : Gl).afterAll log ∧ SurfaceFits a s) ?_ ?_
    · refine ⟨trivial, rfl, .new, .of_idle (by simp [surface, forall_planes, readyBuffer]), ?_, ?_⟩
      · intro frame there
        cases there
      · intro due
        cases due
    · intro s log e t out holds feasible run
      obtain ⟨inRange, same, fits⟩ := holds
      obtain ⟨next, kept⟩ := bounds_step fits feasible run
      refine ⟨inRange.append (same ▸ next), ?_, kept⟩
      obtain ⟨_, _, made⟩ := Option.map_eq_some_iff.mp run
      cases made
      change s.gl.afterAll _ = _
      rw [same, ← afterAll_append]
  exact run.1

end Surface

theorem twoSizes_frames {e : SurfaceEvent} (inside : e ∈ twoSizes) {buffer : Option FrameBuffer} {rawId : UInt16} {nowUs : Int}
    (same : e.event = .onFrame buffer rawId nowUs) :
    buffer = some (.nv12 (smallNv12 16)) ∨ buffer = some (.nv12 ⟨8, 2, 8, 8, List.replicate 16 17, List.replicate 8 128⟩) := by
  obtain ⟨event, known, rfl⟩ := List.mem_map.mp inside
  obtain rfl : event = .onFrame buffer rawId nowUs := same
  simp only [List.mem_cons, List.not_mem_nil, or_false, reduceCtorEq, false_or, RenderEvent.onFrame.injEq] at known
  exact known.imp And.left And.left

theorem twoSizes_alignment {e : SurfaceEvent} (inside : e ∈ twoSizes) {results : GlResults} (same : e.event = .render results) :
    results.unpackAlignment ∣ 4 := by
  obtain ⟨event, known, rfl⟩ := List.mem_map.mp inside
  obtain rfl : event = .render results := same
  simp only [List.mem_cons, List.not_mem_nil, or_false, reduceCtorEq, false_or, RenderEvent.render.injEq] at known
  rcases known with rfl | rfl <;> decide

theorem transfers_inRange_twoSizes :
    ∃ s log, (surface true).Reach (fun _ e => GlFits 4 e) s log ∧ .texSubImage2D 4 2 1 .offset ∈ log ∧ Follows InRange {} log := by
  have small (number : Nat) : FrameFits 4 ⟨number, .nv12 (smallNv12 16)⟩ := by
    simp only [FrameFits, planesOf, List.forall_mem_cons]
    refine ⟨⟨⟨?_, ?_, ?_, ?_, ?_, ?_⟩, ?_⟩, ⟨⟨?_, ?_, ?_, ?_, ?_, ?_⟩, ?_⟩, ?_⟩ <;>
      simp [nv12PlaneY, nv12PlaneUV, smallNv12, NV12Buffer.chromaWidth, NV12Buffer.chromaHeight]
  have wide (number : Nat) : FrameFits 4 ⟨number, .nv12 ⟨8, 2, 8, 8, List.replicate 16 17, List.replicate 8 128⟩⟩ := by
    simp only [FrameFits, planesOf, List.forall_mem_cons]
    refine ⟨⟨⟨?_, ?_, ?_, ?_, ?_, ?_⟩, ?_⟩, ⟨⟨?_, ?_, ?_, ?_, ?_, ?_⟩, ?_⟩, ?_⟩ <;>
      simp [nv12PlaneY, nv12PlaneUV, NV12Buffer.chromaWidth, NV12Buffer.chromaHeight]
  have behaves : ∀ e ∈ twoSizes, GlBehaves e := by decide
  have fits : ∀ e ∈ twoSizes, GlFits 4 e := by
    intro e inside
    refine ⟨behaves e inside, fun results same => twoSizes_alignment inside same, fun buffer rawId nowUs same pending taken number => ?_⟩
    rcases twoSizes_frames inside same with rfl | rfl <;> cases taken
    · exact small number
    · exact wide number
  have reach : (surface true).Reach (fun _ e => GlFits 4 e) _ _ :=
    .ofExec (fun _ e => GlFits 4 e) twoSizes rfl (Machine.meets_of_forall _ fun e inside _ => fits e inside)
  exact ⟨_, _, reach, by decide, transfers_inRange reach⟩

end WebRtcDemo.Renderer
