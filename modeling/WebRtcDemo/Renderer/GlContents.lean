import WebRtcDemo.Renderer.GlBounds

/-! The GL calls of the render node leave in its textures and buffers what
`Renderer.Node` says that they hold. -/

namespace WebRtcDemo.Renderer

open GlObjects GlTexture

/-- The objects of the plane hold its texture and its stores. -/
structure Mirrors (c : Contents Nat) (names : PlaneNames) (plane : Plane) : Prop where
  image : c.image names.tex = plane.tex
  store : plane.pbo.ids = true → ∀ i, c.store (names.ids i) = plane.pbo.store i

/-- The buffers of a plane have two names, and neither is 0. -/
structure PlaneNames.Distinct (names : PlaneNames) : Prop where
  other : names.ids 0 ≠ names.ids 1
  some : ∀ i, names.ids i ≠ 0

/-- The ready buffer has what a transfer reads at alignment 1. -/
structure StagedFits (rowLength : Bool) (gl : Gl) (names : PlaneNames) (pbo : PlaneUploadPbo) (index : Fin 2) : Prop where
  generated : pbo.ids = true
  size : gl.size (names.ids index) = pbo.capacities index
  rows : transferReads 1 0 pbo.readyW pbo.readyH pbo.readyBytesPerPixel ≤ pbo.capacities index
  reads : transferReads 1 (unpackRowLength rowLength pbo.readyStrideBytes pbo.readyBytesPerPixel) pbo.readyW pbo.readyH
    pbo.readyBytesPerPixel ≤ pbo.capacities index

def ReadyStaged (rowLength : Bool) (gl : Gl) (names : PlaneNames) (plane : Plane) : Prop :=
  ∀ index, readyBuffer plane.pbo = some index → StagedFits rowLength gl names plane.pbo index

section Plane
variable {c : Contents Nat} {gl : Gl} {names : PlaneNames} {plane : Plane} {p : PlaneSource} {rowLength succeeds : Bool}
  {outcome : StageOutcome} {alignment : Nat}

theorem ReadyStaged.of_idle (idle : readyBuffer plane.pbo = none) : ReadyStaged rowLength gl names plane := by
  intro index ready
  rw [idle] at ready
  cases ready

/-- The sizes of the plane's buffers are all that matters of the context. -/
theorem ReadyStaged.congr {other : Gl} {next : Plane} (staged : ReadyStaged rowLength gl names plane) (pbo : next.pbo = plane.pbo)
    (size : plane.pbo.ids = true → ∀ i, other.size (names.ids i) = gl.size (names.ids i)) :
    ReadyStaged rowLength other names next := by
  intro index ready
  rw [pbo] at ready ⊢
  obtain ⟨generated, same, rows, reads⟩ := staged index ready
  exact ⟨generated, (size generated index).trans same, rows, reads⟩

/-- What a transfer makes of a texture. -/
def transferred (t : Texture Nat) (w h rowLength bytesPerPixel : Nat) : Option (Block Nat) → Texture Nat
  | none => t
  | some src => texSubImage2D t w h rowLength bytesPerPixel src

theorem transferCalls_contents (unset : gl.rowLength = 0) (c : Contents Nat) (w h bytesPerPixel stride : Nat) (pixels : Pixels)
    (supplied : pixels = .offset →
      ({ gl with alignment := 1, rowLength := unpackRowLength rowLength stride bytesPerPixel } : Gl).Supplied w h bytesPerPixel) :
    c.afterAll gl (transferCalls rowLength w h bytesPerPixel stride pixels) =
      c.setImage (transferred (c.image c.bound) w h (unpackRowLength rowLength stride bytesPerPixel) bytesPerPixel
        (c.source gl pixels)) := by
  have transfer : c.after { gl with alignment := 1, rowLength := unpackRowLength rowLength stride bytesPerPixel }
      (.texSubImage2D w h bytesPerPixel pixels) =
        c.setImage (transferred (c.image c.bound) w h (unpackRowLength rowLength stride bytesPerPixel) bytesPerPixel
          (c.source gl pixels)) := by
    cases pixels with
    | client data => exact congrArg c.setImage (transferRows_packed rfl ..)
    | offset =>
      refine (if_pos (supplied rfl)).trans (congrArg c.setImage ?_)
      change transferRows _ _ _ _ _ (c.unpackStore gl) = transferred _ _ _ _ _ (c.unpackStore gl)
      cases c.unpackStore gl with
      | none => rfl
      | some data => exact transferRows_packed rfl ..
  cases rowLength with
  | false =>
    have same : ({ gl with alignment := 1 } : Gl) =
        { gl with alignment := 1, rowLength := unpackRowLength false stride bytesPerPixel } := by
      rw [show unpackRowLength false stride bytesPerPixel = gl.rowLength from unset.symm]
    rw [← same] at transfer
    exact transfer
  | true => exact transfer

theorem transferred_texImage2D (w h first rowLength bytesPerPixel : Nat) (src : Option (Block Nat)) :
    transferred (transferRows (texImage2D w h) w h first bytesPerPixel src) w h rowLength bytesPerPixel src =
      transferred (texImage2D w h) w h rowLength bytesPerPixel src := by
  cases src with
  | none => rfl
  | some data =>
    have again := transferRows_again w h first (({ alignment := 1, rowLength := rowLength } : Gl).rowBytes w bytesPerPixel)
      bytesPerPixel (some data)
    rwa [transferRows_packed rfl, transferRows_packed rfl] at again

/-- The storage, where it is allocated, and the transfer into it. -/
theorem planeCalls_contents (c : Contents Nat) (gl : Gl) (rowLength : Bool) (unset : gl.rowLength = 0) (w h bytesPerPixel stride : Nat) (pixels : Pixels)
    (image : c.image c.bound = plane.tex) (same : c.source gl pixels = c.unpackStore gl ∨ c.unpackStore gl = none)
    (allocated : gl.Supplied w h bytesPerPixel ↔ succeeds = true)
    (supplied : pixels = .offset →
      ({ gl with alignment := 1, rowLength := unpackRowLength rowLength stride bytesPerPixel } : Gl).Supplied w h bytesPerPixel) :
    c.afterAll gl (allocateCalls plane w h bytesPerPixel ++ transferCalls rowLength w h bytesPerPixel stride pixels) =
      c.setImage (transferred (allocatePlane succeeds plane w h).tex w h (unpackRowLength rowLength stride bytesPerPixel)
        bytesPerPixel (c.source gl pixels)) := by
  unfold allocateCalls allocatePlane
  split
  · rw [List.nil_append, transferCalls_contents unset c w h bytesPerPixel stride pixels supplied, image]
  · have source (t : Texture Nat) : (c.setImage t).source gl pixels = c.source gl pixels := by
      cases pixels <;> rfl
    rw [contents_append]
    change (if gl.Supplied w h bytesPerPixel then c.setImage (transferRows (texImage2D w h) w h (gl.rowBytes w bytesPerPixel)
      bytesPerPixel (c.unpackStore gl)) else c).afterAll gl (transferCalls rowLength w h bytesPerPixel stride pixels) = _
    by_cases room : gl.Supplied w h bytesPerPixel
    · rw [if_pos room, if_pos (allocated.mp room), transferCalls_contents unset _ w h bytesPerPixel stride pixels supplied]
      simp only [setImage_bound, setImage_image, setImage_again, source]
      rcases same with read | nothing
      · rw [← read, transferred_texImage2D]
      · rw [nothing]
        rfl
    · rw [if_neg room, if_neg fun succeeds => room (allocated.mpr succeeds),
        transferCalls_contents unset c w h bytesPerPixel stride pixels supplied, image]

/-- `UploadPlaneTight` uploads what the node says. -/
theorem tightCalls_contents (clean : gl.Clean) (image : c.image names.tex = plane.tex) :
    c.afterAll gl (tightCalls rowLength names p plane) =
      { c with image := Function.update c.image names.tex (uploadPlaneTight rowLength p plane).tex, bound := names.tex } := by
  have nothing : c.unpackStore gl = none := by simp [Contents.unpackStore, clean.unbound]
  exact planeCalls_contents { c with bound := names.tex } gl rowLength clean.rowLength p.width p.height p.bytesPerPixel
    p.strideBytes (.client p.data) image (.inr nothing) (iff_of_true (absurd clean.unbound) rfl) nofun

/-- `glTexImage2D` succeeds exactly where the node says so. -/
theorem StagedFits.allocates_iff {pbo : PlaneUploadPbo} {index : Fin 2} (staged : StagedFits rowLength gl names pbo index)
    (unset : gl.rowLength = 0) (some : names.ids index ≠ 0) :
    ({ gl with unpackBuffer := names.ids index } : Gl).Supplied pbo.readyW pbo.readyH pbo.readyBytesPerPixel ↔
      allocates gl.alignment pbo index = true := by
  have supplied : ({ gl with unpackBuffer := names.ids index } : Gl).Supplied pbo.readyW pbo.readyH pbo.readyBytesPerPixel ↔
      transferReads gl.alignment 0 pbo.readyW pbo.readyH pbo.readyBytesPerPixel ≤ pbo.capacities index := by
    simp only [Gl.Supplied, Gl.reads, unset, staged.size]
    exact forall_prop_of_true some
  rw [supplied, allocates, decide_eq_true_eq]
  refine ⟨.inr, fun room => room.elim (fun one => ?_) id⟩
  rw [one]
  exact staged.rows

/-- `UploadPlaneFromReadyPbo` uploads what the store holds. -/
theorem bufferCalls_contents (clean : gl.Clean) (image : c.image names.tex = plane.tex) {index : Fin 2}
    (some : names.ids index ≠ 0) (store : c.store (names.ids index) = plane.pbo.store index)
    (staged : StagedFits rowLength gl names plane.pbo index) :
    c.afterAll gl (bufferCalls rowLength names plane index) =
      { c with
        image := Function.update c.image names.tex
          (transferFromStore rowLength (allocatePlane (allocates gl.alignment plane.pbo index) plane plane.pbo.readyW
            plane.pbo.readyH) (plane.pbo.store index)).tex
        bound := names.tex } := by
  have reads : ({ c with bound := names.tex } : Contents Nat).unpackStore { gl with unpackBuffer := names.ids index } =
      plane.pbo.store index := by
    simp [Contents.unpackStore, some, store]
  have made := planeCalls_contents { c with bound := names.tex } { gl with unpackBuffer := names.ids index } rowLength
    clean.rowLength plane.pbo.readyW plane.pbo.readyH plane.pbo.readyBytesPerPixel plane.pbo.readyStrideBytes .offset image (.inl rfl)
    (staged.allocates_iff clean.rowLength some) fun _ _ => staged.size ▸ staged.reads
  simp only [Contents.source, reads] at made
  have calls : bufferCalls rowLength names plane index =
      (.bindUnpackBuffer (names.ids index) :: .bindTexture names.tex ::
        (allocateCalls plane plane.pbo.readyW plane.pbo.readyH plane.pbo.readyBytesPerPixel ++
          transferCalls rowLength plane.pbo.readyW plane.pbo.readyH plane.pbo.readyBytesPerPixel
            plane.pbo.readyStrideBytes .offset)) ++ [.bindUnpackBuffer 0] := by
    simp [bufferCalls]
  rw [calls, contents_append]
  refine made.trans ?_
  cases plane.pbo.store index with
  | none => rfl
  | some data =>
    simp only [transferFromStore, allocatePlane_pbo]
    rfl

/-- The buffer that is staged has a store of its own. -/
theorem stageCalls_contents (c : Contents Nat) (gl : Gl) (outcome : StageOutcome) (p : PlaneSource) {pbo : PlaneUploadPbo}
    (generated : pbo.ids = true) :
    c.afterAll gl (stageCalls rowLength outcome names p pbo) =
      { c with
        store := Function.update c.store (names.ids pbo.nextStageIndex)
          ((stagePlaneIntoPbo rowLength outcome p pbo).1.store pbo.nextStageIndex) } := by
  obtain ⟨mapped, intact⟩ := outcome
  unfold stageCalls stagePlaneIntoPbo
  rw [if_pos generated, if_pos generated]
  cases mapped <;> cases intact <;> cases rowLength <;>
    simp [Contents.afterAll, Contents.after, Contents.setStore, Gl.after]

theorem stagePlaneIntoPbo_store {pbo : PlaneUploadPbo} (generated : pbo.ids = true) (rowLength : Bool) (outcome : StageOutcome)
    (p : PlaneSource) :
    (stagePlaneIntoPbo rowLength outcome p pbo).1.store =
      Function.update pbo.store pbo.nextStageIndex ((stagePlaneIntoPbo rowLength outcome p pbo).1.store pbo.nextStageIndex) := by
  unfold stagePlaneIntoPbo
  rw [if_pos generated]
  simp only
  split <;> simp

/-- What calls for a plane leave: the plane that the node says, the same
buffer names as before, and all other objects as they were. -/
structure Leaves (names : PlaneNames) (c d : Contents Nat) (plane next : Plane) : Prop where
  mirrors : Mirrors d names next
  ids : next.pbo.ids = plane.pbo.ids
  image : ∀ n, n ≠ names.tex → d.image n = c.image n
  store : ∀ n, n ∉ names.buffers → d.store n = c.store n

theorem Leaves.trans {d e : Contents Nat} {middle next : Plane} (first : Leaves names c d plane middle)
    (second : Leaves names d e middle next) : Leaves names c e plane next where
  mirrors := second.mirrors
  ids := second.ids.trans first.ids
  image n other := (second.image n other).trans (first.image n other)
  store n other := (second.store n other).trans (first.store n other)

theorem Leaves.same (mirrors : Mirrors c names plane) : Leaves names c c plane plane :=
  ⟨mirrors, rfl, fun _ _ => rfl, fun _ _ => rfl⟩

/-- A new image for the texture, and the stores as they were. -/
theorem Leaves.of_image {t : Texture Nat} {next : Plane} (mirrors : Mirrors c names plane) (tex : next.tex = t)
    (pbo : next.pbo = plane.pbo) :
    Leaves names c { c with image := Function.update c.image names.tex t, bound := names.tex } plane next where
  mirrors := by
    refine ⟨(Function.update_self ..).trans tex.symm, fun generated i => ?_⟩
    rw [pbo] at generated ⊢
    exact mirrors.store generated i
  ids := by rw [pbo]
  image n other := Function.update_of_ne other ..
  store _ _ := rfl

theorem tightCalls_leaves (clean : gl.Clean) (mirrors : Mirrors c names plane) (rowLength : Bool) (p : PlaneSource) :
    Leaves names c (c.afterAll gl (tightCalls rowLength names p plane)) plane (uploadPlaneTight rowLength p plane) := by
  rw [tightCalls_contents clean mirrors.image]
  exact .of_image mirrors rfl (uploadPlaneTight_pbo ..)

theorem readyCalls_leaves (clean : gl.Clean) (mirrors : Mirrors c names plane) (distinct : names.Distinct)
    (generated : plane.pbo.ids = true) (staged : ReadyStaged rowLength gl names plane) :
    Leaves names c (c.afterAll gl (readyCalls rowLength names plane)) plane
      (uploadPlaneFromReadyPbo rowLength gl.alignment plane).1 := by
  have same := uploadPlaneFromReadyPbo_pbo rowLength gl.alignment plane
  unfold readyCalls
  unfold uploadPlaneFromReadyPbo at same ⊢
  cases waiting : readyBuffer plane.pbo with
  | none => exact .same mirrors
  | some index =>
    simp only [waiting, allocatePlane_pbo] at same ⊢
    rw [Option.elim_some, bufferCalls_contents clean mirrors.image (distinct.some index) (mirrors.store generated index)
      (staged index waiting)]
    exact .of_image mirrors rfl same

theorem ids_inj (distinct : names.Distinct) {i j : Fin 2} (same : names.ids i = names.ids j) : i = j := by
  fin_cases i <;> fin_cases j
  · rfl
  · exact absurd same distinct.other
  · exact absurd same.symm distinct.other
  · rfl

theorem stageCalls_leaves (gl : Gl) (mirrors : Mirrors c names plane) (distinct : names.Distinct)
    (generated : plane.pbo.ids = true) (rowLength : Bool) (outcome : StageOutcome) (p : PlaneSource) :
    Leaves names c (c.afterAll gl (stageCalls rowLength outcome names p plane.pbo)) plane
      { plane with pbo := (stagePlaneIntoPbo rowLength outcome p plane.pbo).1 } := by
  have stores := stagePlaneIntoPbo_store generated rowLength outcome p
  rw [stageCalls_contents c gl outcome p generated]
  generalize (stagePlaneIntoPbo rowLength outcome p plane.pbo).1.store plane.pbo.nextStageIndex = staged at stores ⊢
  refine ⟨⟨mirrors.image, fun _ i => ?_⟩, stagePlaneIntoPbo_ids .., fun _ _ => rfl, fun n other => ?_⟩
  · change Function.update c.store (names.ids plane.pbo.nextStageIndex) staged (names.ids i) = _
    rw [stores]
    by_cases same : i = plane.pbo.nextStageIndex
    · rw [same, Function.update_self, Function.update_self]
    · rw [Function.update_of_ne same, Function.update_of_ne fun names => same (ids_inj distinct names)]
      exact mirrors.store generated i
  · refine Function.update_of_ne (fun same => other ?_) ..
    rw [same]
    exact ids_mem names _

theorem asyncCalls_leaves (clean : gl.Clean) (named : Named gl names plane) (mirrors : Mirrors c names plane)
    (distinct : plane.pbo.ids = true → names.Distinct) (staged : ReadyStaged rowLength gl names plane) (outcome : StageOutcome)
    (p : PlaneSource) :
    Leaves names c (c.afterAll gl (asyncCalls rowLength gl.alignment outcome names p plane)) plane
      (uploadPlaneViaPboAsync rowLength gl.alignment outcome p plane).1 := by
  unfold asyncCalls uploadPlaneViaPboAsync
  by_cases generated : plane.pbo.ids = true
  · have apart := distinct generated
    have same := uploadPlaneFromReadyPbo_pbo rowLength gl.alignment plane
    have tidy : Tidy gl (readyCalls rowLength names plane) := readyCalls_tidy clean named.tex (named.ids generated)
    have ready := readyCalls_leaves clean mirrors apart generated staged
    simp only [if_pos generated]
    generalize (uploadPlaneFromReadyPbo rowLength gl.alignment plane).1 = next at same ready ⊢
    have there : next.pbo.ids = true := same ▸ generated
    have staged := ready.trans (stageCalls_leaves (gl.afterAll (readyCalls rowLength names plane))
      ready.mirrors apart there rowLength outcome p)
    rw [← contents_append] at staged
    have stageTidy : Tidy gl (readyCalls rowLength names plane ++ stageCalls rowLength outcome names p next.pbo) :=
      tidy.append (stageCalls_tidy tidy.clean fun _ => tidy.buffers ▸ named.ids generated)
    by_cases done : (stagePlaneIntoPbo rowLength outcome p next.pbo).2 = true
    · simp only [if_pos done, List.append_nil]
      exact staged
    · simp only [if_neg done]
      -- the plane is uploaded in the call after all, and nothing is ready
      rw [contents_append]
      have reset : Leaves names _ _ _ { next with pbo := resetPlaneUploadPbo (stagePlaneIntoPbo rowLength outcome p next.pbo).1 } :=
        ⟨⟨staged.mirrors.image, staged.mirrors.store⟩, staged.ids, staged.image, staged.store⟩
      exact reset.trans (tightCalls_leaves stageTidy.clean reset.mirrors rowLength p)
  · simp only [if_neg generated]
    exact tightCalls_leaves clean mirrors rowLength p

/-! What the calls leave of the unpack alignment and of the sizes of the buffers. -/

theorem tightCalls_state (gl : Gl) (rowLength : Bool) (names : PlaneNames) (p : PlaneSource) (plane : Plane) :
    (gl.afterAll (tightCalls rowLength names p plane)).alignment = 1 ∧
      (gl.afterAll (tightCalls rowLength names p plane)).size = gl.size := by
  unfold tightCalls allocateCalls transferCalls
  cases rowLength <;> split <;> exact ⟨rfl, rfl⟩

theorem readyCalls_state (gl : Gl) (rowLength : Bool) (names : PlaneNames) (plane : Plane) :
    (gl.afterAll (readyCalls rowLength names plane)).alignment = (if readyBuffer plane.pbo = none then gl.alignment else 1) ∧
      (gl.afterAll (readyCalls rowLength names plane)).size = gl.size := by
  unfold readyCalls
  cases readyBuffer plane.pbo with
  | none => exact ⟨rfl, rfl⟩
  | some index =>
    rw [Option.elim_some, if_neg (Option.some_ne_none index)]
    unfold bufferCalls allocateCalls transferCalls
    by_cases same : plane.cached.w = plane.pbo.readyW ∧ plane.cached.h = plane.pbo.readyH
    · simp only [if_pos same]
      cases rowLength <;> exact ⟨rfl, rfl⟩
    · simp only [if_neg same]
      cases rowLength <;> exact ⟨rfl, rfl⟩

theorem stageCalls_state (gl : Gl) (rowLength : Bool) (outcome : StageOutcome) (names : PlaneNames) (p : PlaneSource)
    {pbo : PlaneUploadPbo} (generated : pbo.ids = true) :
    (gl.afterAll (stageCalls rowLength outcome names p pbo)).alignment = gl.alignment ∧
      (gl.afterAll (stageCalls rowLength outcome names p pbo)).size =
        Function.update gl.size (names.ids pbo.nextStageIndex) (uploadBytes rowLength p) := by
  obtain ⟨mapped, intact⟩ := outcome
  unfold stageCalls
  rw [if_pos generated]
  cases mapped <;> cases intact <;> cases rowLength <;> exact ⟨rfl, rfl⟩

theorem asyncCalls_alignment (gl : Gl) (rowLength : Bool) (outcome : StageOutcome) (names : PlaneNames) (p : PlaneSource)
    (plane : Plane) :
    (gl.afterAll (asyncCalls rowLength gl.alignment outcome names p plane)).alignment =
      alignmentAfter outcome plane gl.alignment := by
  unfold asyncCalls
  by_cases generated : plane.pbo.ids = true
  · obtain ⟨ready, _⟩ := readyCalls_state gl rowLength names plane
    obtain ⟨stage, _⟩ := stageCalls_state (gl.afterAll (readyCalls rowLength names plane)) rowLength outcome names p generated
    simp only [if_pos generated, uploadPlaneFromReadyPbo_pbo]
    by_cases done : outcome.mapped = true ∧ outcome.unmapped = true
    · obtain ⟨next, index, made, _⟩ := stagePlaneIntoPbo_staged rowLength p generated done.1 done.2
      have staged : Staged outcome plane := ⟨generated, done⟩
      simp only [made, if_true, List.append_nil, afterAll_append, stage, ready, alignmentAfter, staged, and_true]
    · obtain ⟨next, made, _⟩ := stagePlaneIntoPbo_failed rowLength p plane.pbo done
      have direct : ¬ Staged outcome plane := fun staged => done staged.2
      simp only [made, Bool.false_eq_true, if_false, afterAll_append, (tightCalls_state ..).1, alignmentAfter, direct,
        and_false]
  · have direct : ¬ Staged outcome plane := fun staged => generated staged.1
    simp only [if_neg generated, (tightCalls_state ..).1, alignmentAfter, direct, and_false, if_false]

/-- The sizes of other buffers stay. -/
theorem asyncCalls_size (gl : Gl) (rowLength : Bool) (outcome : StageOutcome) (names : PlaneNames) (p : PlaneSource)
    (plane : Plane) {n : Nat} (other : n ∉ names.buffers) :
    (gl.afterAll (asyncCalls rowLength alignment outcome names p plane)).size n = gl.size n := by
  unfold asyncCalls
  by_cases generated : plane.pbo.ids = true
  · obtain ⟨_, ready⟩ := readyCalls_state gl rowLength names plane
    obtain ⟨_, stage⟩ := stageCalls_state (gl.afterAll (readyCalls rowLength names plane)) rowLength outcome names p generated
    have different : n ≠ names.ids plane.pbo.nextStageIndex := fun same => other (same ▸ ids_mem names _)
    have kept : (gl.afterAll (readyCalls rowLength names plane ++ stageCalls rowLength outcome names p plane.pbo)).size n =
        gl.size n := by
      rw [afterAll_append, stage, Function.update_of_ne different, ready]
    simp only [if_pos generated, uploadPlaneFromReadyPbo_pbo]
    split
    · rw [List.append_nil]
      exact kept
    · rw [afterAll_append, (tightCalls_state ..).2]
      exact kept
  · rw [if_neg generated, (tightCalls_state ..).2]

/-- What an upload stages lies in its buffer, if the stride holds a row. -/
theorem asyncCalls_staged (staged : ReadyStaged rowLength gl names plane) (row : p.width * p.bytesPerPixel ≤ p.strideBytes)
    (positive : 0 < p.bytesPerPixel) (alignment : Nat) (outcome : StageOutcome) :
    ReadyStaged rowLength (gl.afterAll (asyncCalls rowLength alignment outcome names p plane)) names
      (uploadPlaneViaPboAsync rowLength alignment outcome p plane).1 := by
  by_cases generated : plane.pbo.ids = true
  · by_cases done : outcome.mapped = true ∧ outcome.unmapped = true
    · have ids := uploadPlaneFromReadyPbo_pbo rowLength alignment plane
      obtain ⟨_, stage⟩ := stageCalls_state (gl.afterAll (readyCalls rowLength names plane)) rowLength outcome names p generated
      intro index waiting
      unfold asyncCalls
      unfold uploadPlaneViaPboAsync at waiting ⊢
      simp only [if_pos generated, ids] at waiting ⊢
      unfold stagePlaneIntoPbo at waiting ⊢
      simp only [if_pos generated, if_pos done, if_true, readyBuffer, Option.some.injEq] at waiting ⊢
      subst waiting
      rw [List.append_nil, afterAll_append]
      have rows : transferReads 1 0 p.width p.height p.bytesPerPixel ≤ p.width * p.bytesPerPixel * p.height :=
        reads_of_stride (show ({ alignment := 1 } : Gl).alignment = 1 from rfl) le_rfl le_rfl p.height
      have reads := uploadBytes_reads row positive rowLength
        { alignment := 1, rowLength := unpackRowLength rowLength p.strideBytes p.bytesPerPixel } rfl rfl
      refine ⟨generated, ?_, ?_, ?_⟩
      · simp only [stage, Function.update_self]
      · simp only [Function.update_self]
        exact rows.trans (rows_le_uploadBytes row rowLength)
      · simp only [Function.update_self]
        exact reads
    · refine .of_idle ?_
      obtain ⟨next, made, _⟩ := stagePlaneIntoPbo_failed rowLength p plane.pbo done
      unfold uploadPlaneViaPboAsync
      rw [if_pos generated]
      simp only [uploadPlaneFromReadyPbo_pbo, made, Bool.false_eq_true, if_false, uploadPlaneTight_pbo]
      exact readyBuffer_reset next
  · refine .of_idle ?_
    unfold uploadPlaneViaPboAsync
    rw [if_neg generated, uploadPlaneTight_pbo]
    exact Option.eq_none_iff_forall_ne_some.mpr fun index ready => generated (staged index ready).generated

end Plane

/-! The four planes. -/

inductive PlaneKind
  | y
  | u
  | v
  | uv
  deriving DecidableEq

def NodeNames.of (names : NodeNames) : PlaneKind → PlaneNames
  | .y => names.y
  | .u => names.u
  | .v => names.v
  | .uv => names.uv

def RenderNode.plane (node : RenderNode) : PlaneKind → Plane
  | .y => node.planeY
  | .u => node.planeU
  | .v => node.planeV
  | .uv => node.planeUV

/-- The node after the upload of one plane, which leaves an unpack alignment. -/
def RenderNode.setPlane (node : RenderNode) (plane : Plane) (unpackAlignment : Nat) : PlaneKind → RenderNode
  | .y => { node with planeY := plane, unpackAlignment := unpackAlignment }
  | .u => { node with planeU := plane, unpackAlignment := unpackAlignment }
  | .v => { node with planeV := plane, unpackAlignment := unpackAlignment }
  | .uv => { node with planeUV := plane, unpackAlignment := unpackAlignment }

theorem setPlane_self (node : RenderNode) (plane : Plane) (alignment : Nat) (k : PlaneKind) :
    (node.setPlane plane alignment k).plane k = plane := by
  cases k <;> rfl

theorem setPlane_of_ne (node : RenderNode) (plane : Plane) (alignment : Nat) {j k : PlaneKind} (other : j ≠ k) :
    (node.setPlane plane alignment k).plane j = node.plane j := by
  cases j <;> cases k <;> first | rfl | exact absurd rfl other

theorem setPlane_rest (node : RenderNode) (plane : Plane) (alignment : Nat) (k : PlaneKind) :
    (node.setPlane plane alignment k).supportsUnpackRowLength = node.supportsUnpackRowLength ∧
      (node.setPlane plane alignment k).unpackAlignment = alignment := by
  cases k <;> exact ⟨rfl, rfl⟩

/-- The planes have names of their own. -/
structure NodeNames.Separate (inUse : Bool) (names : NodeNames) : Prop where
  tex : ∀ j k, j ≠ k → (names.of j).tex ≠ (names.of k).tex
  ids : inUse = true → ∀ j k, j ≠ k → ∀ i, (names.of j).ids i ∉ (names.of k).buffers
  distinct : inUse = true → ∀ k, (names.of k).Distinct

/-- The objects of the context hold what the node says. -/
structure NodeMirrors (inUse : Bool) (gl : Gl) (names : NodeNames) (c : Contents Nat) (node : RenderNode) : Prop where
  clean : gl.Clean
  named : ∀ k, Named gl (names.of k) (node.plane k)
  planes : ∀ k, Mirrors c (names.of k) (node.plane k)
  ids : ∀ k, (node.plane k).pbo.ids = true → inUse = true
  alignment : gl.alignment = node.unpackAlignment
  staged : ∀ k, ReadyStaged node.supportsUnpackRowLength gl (names.of k) (node.plane k)

section Node
variable {inUse : Bool} {gl : Gl} {xs : List Call} {names : NodeNames} {c d : Contents Nat} {node next : RenderNode}

/-- One plane is uploaded; the others have other names. -/
theorem NodeMirrors.upload (mirrors : NodeMirrors inUse gl names c node) (separate : names.Separate inUse) (k : PlaneKind)
    {plane : Plane} (tidy : Tidy gl xs) (leaves : Leaves (names.of k) c (c.afterAll gl xs) (node.plane k) plane)
    (size : ∀ n, n ∉ (names.of k).buffers → (gl.afterAll xs).size n = gl.size n)
    (staged : ReadyStaged node.supportsUnpackRowLength (gl.afterAll xs) (names.of k) plane) :
    NodeMirrors inUse (gl.afterAll xs) names (c.afterAll gl xs) (node.setPlane plane (gl.afterAll xs).alignment k) where
  clean := tidy.clean
  named j := by
    by_cases same : j = k
    · rw [same, setPlane_self]
      exact ⟨((mirrors.named k).after tidy).tex, leaves.ids ▸ ((mirrors.named k).after tidy).ids⟩
    · rw [setPlane_of_ne node plane _ same]
      exact (mirrors.named j).after tidy
  planes j := by
    by_cases same : j = k
    · rw [same, setPlane_self]
      exact leaves.mirrors
    · rw [setPlane_of_ne node plane _ same]
      obtain ⟨image, store⟩ := mirrors.planes j
      refine ⟨(leaves.image _ (separate.tex j k same)).trans image, fun generated i => ?_⟩
      have there := mirrors.ids j generated
      exact (leaves.store _ (separate.ids there j k same i)).trans (store generated i)
  ids j := by
    by_cases same : j = k
    · rw [same, setPlane_self, leaves.ids]
      exact mirrors.ids k
    · rw [setPlane_of_ne node plane _ same]
      exact mirrors.ids j
  alignment := (setPlane_rest ..).2.symm
  staged j := by
    rw [(setPlane_rest ..).1]
    by_cases same : j = k
    · rw [same, setPlane_self]
      exact staged
    · rw [setPlane_of_ne node plane _ same]
      refine (mirrors.staged j).congr rfl fun generated i => ?_
      exact size _ (separate.ids (mirrors.ids j generated) j k same i)

theorem NodeMirrors.async (mirrors : NodeMirrors inUse gl names c node) (separate : names.Separate inUse) (k : PlaneKind)
    (outcome : StageOutcome) {p : PlaneSource} (row : p.width * p.bytesPerPixel ≤ p.strideBytes)
    (positive : 0 < p.bytesPerPixel) :
    let calls := asyncCalls node.supportsUnpackRowLength node.unpackAlignment outcome (names.of k) p (node.plane k)
    NodeMirrors inUse (gl.afterAll calls) names (c.afterAll gl calls)
      (node.setPlane
        (uploadPlaneViaPboAsync node.supportsUnpackRowLength node.unpackAlignment outcome p (node.plane k)).1
        (alignmentAfter outcome (node.plane k) node.unpackAlignment) k) := by
  have distinct (generated : (node.plane k).pbo.ids = true) := separate.distinct (mirrors.ids k generated) k
  rw [← mirrors.alignment, ← asyncCalls_alignment gl node.supportsUnpackRowLength outcome (names.of k) p (node.plane k)]
  exact mirrors.upload separate k (asyncCalls_tidy mirrors.clean (mirrors.named k))
    (asyncCalls_leaves mirrors.clean (mirrors.named k) (mirrors.planes k) distinct (mirrors.staged k) outcome p)
    (fun _ => asyncCalls_size gl _ outcome _ p _) (asyncCalls_staged (mirrors.staged k) row positive _ outcome)

theorem NodeMirrors.tight (mirrors : NodeMirrors inUse gl names c node) (separate : names.Separate inUse) (k : PlaneKind)
    (p : PlaneSource) :
    let calls := tightCalls node.supportsUnpackRowLength (names.of k) p (node.plane k)
    NodeMirrors inUse (gl.afterAll calls) names (c.afterAll gl calls)
      (node.setPlane (uploadPlaneTight node.supportsUnpackRowLength p (node.plane k)) 1 k) := by
  obtain ⟨one, size⟩ := tightCalls_state gl node.supportsUnpackRowLength (names.of k) p (node.plane k)
  rw [← one]
  exact mirrors.upload separate k (tightCalls_tidy mirrors.clean (mirrors.named k).tex)
    (tightCalls_leaves mirrors.clean (mirrors.planes k) _ p) (fun n _ => congrFun size n)
    ((mirrors.staged k).congr (uploadPlaneTight_pbo ..) fun _ i => congrFun size _)

/-- The strides of a frame hold its rows. -/
def FrameRows (frame : QueuedFrame) : Prop := ∀ p ∈ planesOf frame, p.width * p.bytesPerPixel ≤ p.strideBytes

theorem nv12Calls_mirrors (mirrors : NodeMirrors inUse gl names c node) (separate : names.Separate inUse) (results : GlResults)
    {number : Nat} {b : NV12Buffer} (rows : FrameRows ⟨number, .nv12 b⟩) :
    NodeMirrors inUse (gl.afterAll (nv12Calls results names number b node)) names
      (c.afterAll gl (nv12Calls results names number b node)) (uploadNv12Planes results number b node).1 := by
  obtain ⟨rowsY, rowsUV⟩ : _ ∧ _ := by simpa [FrameRows, planesOf] using rows
  unfold nv12Calls uploadNv12Planes
  split
  · rw [afterAll_append, contents_append]
    exact (mirrors.async separate .y results.y rowsY Nat.one_pos).async separate .uv results.uv rowsUV Nat.two_pos
  · rw [afterAll_append, contents_append]
    exact (mirrors.tight separate .y _).tight separate .uv _

theorem i420Calls_mirrors (mirrors : NodeMirrors inUse gl names c node) (separate : names.Separate inUse) (results : GlResults)
    {frame : QueuedFrame} {b : I420Buffer} (planes : planesOf frame =
      [i420PlaneY frame.number b, i420PlaneU frame.number b, i420PlaneV frame.number b]) (rows : FrameRows frame) :
    NodeMirrors inUse (gl.afterAll (i420Calls results names frame.number b node)) names
      (c.afterAll gl (i420Calls results names frame.number b node)) (uploadI420Planes results frame.number b node).1 := by
  obtain ⟨rowsY, rowsU, rowsV⟩ : _ ∧ _ ∧ _ := by simpa [FrameRows, planes] using rows
  unfold i420Calls uploadI420Planes
  split
  · simp only [afterAll_append, contents_append]
    exact ((mirrors.async separate .y results.y rowsY Nat.one_pos).async separate .u results.u rowsU Nat.one_pos).async
      separate .v results.v rowsV Nat.one_pos
  · simp only [afterAll_append, contents_append]
    exact ((mirrors.tight separate .y _).tight separate .u _).tight separate .v _

theorem NodeMirrors.of_planes (mirrors : NodeMirrors inUse gl names c node) (planes : next.planes = node.planes)
    (rowLength : next.supportsUnpackRowLength = node.supportsUnpackRowLength)
    (alignment : next.unpackAlignment = node.unpackAlignment) : NodeMirrors inUse gl names c next := by
  have same (k : PlaneKind) : next.plane k = node.plane k := by
    simp only [RenderNode.planes, List.cons.injEq, and_true] at planes
    obtain ⟨y, u, v, uv⟩ := planes
    cases k <;> simp only [RenderNode.plane, y, u, v, uv]
  refine ⟨mirrors.clean, fun k => ?_, fun k => ?_, fun k => ?_, alignment ▸ mirrors.alignment, fun k => ?_⟩
  · rw [same]
    exact mirrors.named k
  · rw [same]
    exact mirrors.planes k
  · rw [same]
    exact mirrors.ids k
  · rw [same, rowLength]
    exact mirrors.staged k

theorem reset_plane (node : RenderNode) (k : PlaneKind) :
    (resetCpuUploadPipeline node).plane k = resetPlane (node.plane k) := by
  cases k <;> rfl

/-- What is ready is forgotten, but it stays where it is. -/
theorem NodeMirrors.reset (mirrors : NodeMirrors inUse gl names c node) :
    NodeMirrors inUse gl names c (resetCpuUploadPipeline node) where
  clean := mirrors.clean
  named k := by
    rw [reset_plane]
    exact ⟨(mirrors.named k).tex, (mirrors.named k).ids⟩
  planes k := by
    rw [reset_plane]
    exact ⟨(mirrors.planes k).image, (mirrors.planes k).store⟩
  ids k := by
    rw [reset_plane]
    exact mirrors.ids k
  alignment := mirrors.alignment
  staged k := by
    rw [reset_plane]
    exact .of_idle (readyBuffer_reset _)

theorem NodeMirrors.enterCpuPath (mirrors : NodeMirrors inUse gl names c node) (path : UploadPathKind) :
    NodeMirrors inUse gl names c (Renderer.enterCpuPath path node) := by
  unfold Renderer.enterCpuPath
  split
  · exact mirrors
  · exact mirrors.reset.of_planes rfl rfl rfl

theorem NodeMirrors.enterOesPath (mirrors : NodeMirrors inUse gl names c node) :
    NodeMirrors inUse gl names c (Renderer.enterOesPath node) := by
  unfold Renderer.enterOesPath
  split
  · exact mirrors
  · exact mirrors.reset.of_planes rfl rfl rfl

theorem frameCalls_mirrors (mirrors : NodeMirrors inUse gl names c node) (separate : names.Separate inUse) (android : Bool)
    (results : GlResults) {frame : QueuedFrame} (rows : FrameRows frame) :
    NodeMirrors inUse (gl.afterAll (frameCalls android results names frame node)) names
      (c.afterAll gl (frameCalls android results names frame node)) (uploadHeldFrame android results frame node) := by
  have cleared : NodeMirrors inUse gl names c (clearKind node) := mirrors.of_planes rfl rfl rfl
  refine frameCalls_cases (P := fun calls next => NodeMirrors inUse (gl.afterAll calls) names (c.afterAll gl calls) next)
    android results names frame node ?_ ?_ ?_ ?_
  · intro b same
    obtain ⟨number, _⟩ := frame
    cases same
    exact (nv12Calls_mirrors (cleared.enterCpuPath .nv12) separate results rows).of_planes rfl rfl rfl
  · intro b resolved
    obtain ⟨_, _, planes⟩ := frameCalls_resolved resolved android results names node
    unfold uploadI420
    simp only [resolved]
    exact (i420Calls_mirrors (cleared.enterCpuPath .i420) separate results planes rows).of_planes rfl rfl rfl
  · intro absent
    unfold uploadI420
    simp only [absent]
    exact (cleared.enterCpuPath .i420).of_planes rfl rfl rfl
  · intro textureId
    have entered := mirrors.enterOesPath
    unfold uploadOes
    simp only
    split <;> exact entered.of_planes rfl rfl rfl

theorem uploadCalls_mirrors (mirrors : NodeMirrors inUse gl names c node) (separate : names.Separate inUse) (android : Bool)
    (results : GlResults) (held : node.pendingUpload = true → ∀ frame, node.heldBuffer = some frame → FrameRows frame) :
    NodeMirrors inUse (gl.afterAll (uploadCalls android results names node)) names
      (c.afterAll gl (uploadCalls android results names node)) (uploadIfPending android results node) := by
  have started : NodeMirrors inUse gl names c { node with pendingUpload := false } := mirrors.of_planes rfl rfl rfl
  exact uploadCalls_cases (P := fun calls next => NodeMirrors inUse (gl.afterAll calls) names (c.afterAll gl calls) next)
    android results names node (fun _ => mirrors) (mirrors.of_planes rfl rfl rfl)
    fun pending frame holding => frameCalls_mirrors started separate android results (held pending frame holding)

/-- Drawing binds textures and changes none. -/
theorem drawCalls_contents (c : Contents Nat) (gl : Gl) (names : NodeNames) (node : RenderNode) :
    (c.afterAll gl (drawCalls names node)).image = c.image ∧ (c.afterAll gl (drawCalls names node)).store = c.store := by
  unfold drawCalls
  split
  · exact ⟨rfl, rfl⟩
  · cases node.frameIsNv12 <;> exact ⟨rfl, rfl⟩

/-- The pictures of the effects: the textures of the planes that are drawn. -/
def sampled : RenderAction → Option (List (Texture Nat))
  | .drew textures => some textures
  | .drewOes _ => some []
  | _ => none

theorem sampledTimings_sampled (node : RenderNode) : (sampledTimings node).filterMap sampled = [] := by
  unfold sampledTimings
  split <;> rfl

/-- The names that are drawn hold what the node samples. -/
theorem drawCalls_pictures (planes : ∀ k, Mirrors c (names.of k) (node.plane k)) (gl : Gl) :
    c.pictures gl (drawCalls names node) = (draw node :: sampledTimings node).filterMap sampled := by
  have y : c.image names.y.tex = node.planeY.tex := (planes .y).image
  have u : c.image names.u.tex = node.planeU.tex := (planes .u).image
  have v : c.image names.v.tex = node.planeV.tex := (planes .v).image
  have uv : c.image names.uv.tex = node.planeUV.tex := (planes .uv).image
  have timings := sampledTimings_sampled node
  unfold drawCalls draw
  by_cases oes : node.frameIsOes = true ∧ node.oesProgramLinked = true
  · rw [if_pos (by simpa using oes), if_pos oes, List.filterMap_cons, timings]
    rfl
  · rw [if_neg (by simpa using oes), if_neg oes, List.filterMap_cons, timings]
    cases nv12 : node.frameIsNv12 <;>
      simp [sampled, sampledTextures, nv12, Contents.pictures, Contents.drawn, Contents.after, y, u, v, uv]

/-! Only `render` draws. -/

theorem tightCalls_quiet (rowLength : Bool) (names : PlaneNames) (p : PlaneSource) (plane : Plane) :
    (tightCalls rowLength names p plane).any Call.draws = false := by
  unfold tightCalls allocateCalls transferCalls
  cases rowLength <;> split <;> rfl

theorem readyCalls_quiet (rowLength : Bool) (names : PlaneNames) (plane : Plane) :
    (readyCalls rowLength names plane).any Call.draws = false := by
  unfold readyCalls
  cases readyBuffer plane.pbo with
  | none => rfl
  | some index =>
    simp only [Option.elim_some, bufferCalls, allocateCalls, transferCalls]
    split <;> cases rowLength <;> rfl

theorem stageCalls_quiet (rowLength : Bool) (outcome : StageOutcome) (names : PlaneNames) (p : PlaneSource) (pbo : PlaneUploadPbo) :
    (stageCalls rowLength outcome names p pbo).any Call.draws = false := by
  obtain ⟨mapped, intact⟩ := outcome
  unfold stageCalls
  split
  · cases mapped <;> cases intact <;> cases rowLength <;> rfl
  · rfl

theorem asyncCalls_quiet (rowLength : Bool) (alignment : Nat) (outcome : StageOutcome) (names : PlaneNames) (p : PlaneSource)
    (plane : Plane) : (asyncCalls rowLength alignment outcome names p plane).any Call.draws = false := by
  unfold asyncCalls
  split
  · simp only [List.any_append, readyCalls_quiet, stageCalls_quiet, Bool.false_or]
    split
    · rfl
    · exact tightCalls_quiet ..
  · exact tightCalls_quiet ..

theorem frameCalls_quiet (android : Bool) (results : GlResults) (names : NodeNames) (frame : QueuedFrame) (node : RenderNode) :
    (frameCalls android results names frame node).any Call.draws = false := by
  have nv12 (number : Nat) (b : NV12Buffer) (node : RenderNode) : (nv12Calls results names number b node).any Call.draws = false := by
    unfold nv12Calls
    split <;> simp only [List.any_append, asyncCalls_quiet, tightCalls_quiet, Bool.false_or]
  have i420 (number : Nat) (b : I420Buffer) (node : RenderNode) : (i420Calls results names number b node).any Call.draws = false := by
    unfold i420Calls
    split <;> simp only [List.any_append, asyncCalls_quiet, tightCalls_quiet, Bool.false_or]
  unfold frameCalls
  split
  · rfl
  · exact nv12 ..
  · cases resolveI420ForUpload frame.buffer with
    | none => rfl
    | some b => simpa using i420 frame.number b (Renderer.enterCpuPath .i420 node)

theorem uploadCalls_quiet (android : Bool) (results : GlResults) (names : NodeNames) (node : RenderNode) :
    (uploadCalls android results names node).any Call.draws = false := by
  unfold uploadCalls
  split
  · cases node.heldBuffer with
    | none => rfl
    | some frame => simpa using frameCalls_quiet android results names frame node
  · rfl

/-! A node that draws. -/

theorem NodeOwned.separate (owned : NodeOwned gl names node) (initialized : node.glInitialized = true) :
    names.Separate (buffersInUse node) where
  tex j k other := by
    have distinct := owned.textures_nodup initialized
    simp only [NodeNames.textures, List.nodup_cons, List.mem_cons, List.not_mem_nil, or_false, not_or] at distinct
    obtain ⟨⟨yu, yv, yuv⟩, ⟨uv, uuv⟩, vuv, _⟩ := distinct
    cases j <;> cases k <;> first | exact absurd rfl other | assumption | exact Ne.symm (by assumption)
  ids inUse j k other i shared := by
    have apart := owned.apart inUse
    simp only [List.pairwise_cons, List.forall_mem_cons] at apart
    obtain ⟨⟨yu, yv, yuv, _⟩, ⟨uv, uuv, _⟩, ⟨vuv, _⟩, _⟩ := apart
    have mine := ids_mem (names.of j) i
    cases j <;> cases k <;> first
      | exact absurd rfl other
      | exact yu _ mine shared | exact yv _ mine shared | exact yuv _ mine shared
      | exact uv _ mine shared | exact uuv _ mine shared | exact vuv _ mine shared
      | exact yu _ shared mine | exact yv _ shared mine | exact yuv _ shared mine
      | exact uv _ shared mine | exact uuv _ shared mine | exact vuv _ shared mine
  distinct inUse k := by
    have distinct := owned.buffers_nodup inUse
    simp only [NodeNames.buffers, PlaneNames.buffers, List.cons_append, List.nil_append, List.nodup_cons, List.mem_cons,
      List.not_mem_nil, or_false, not_or] at distinct
    cases k <;> refine ⟨by tauto, fun i => ?_⟩ <;> fin_cases i <;> exact Ne.symm (by tauto)

theorem NodeOwned.mirrors (owned : NodeOwned gl names node) (initialized : node.glInitialized = true)
    (planes : ∀ k, Mirrors c (names.of k) (node.plane k)) (alignment : gl.alignment = node.unpackAlignment)
    (staged : ∀ k, ReadyStaged node.supportsUnpackRowLength gl (names.of k) (node.plane k)) :
    NodeMirrors (buffersInUse node) gl names c node where
  clean := owned.clean
  named k := by
    obtain ⟨y, u, v, uv⟩ := owned.named initialized
    cases k
    · exact y
    · exact u
    · exact v
    · exact uv
  planes := planes
  ids k := by
    have ids := owned.ids
    rw [forall_planes] at ids
    obtain ⟨y, u, v, uv⟩ := ids
    cases k
    · exact y
    · exact u
    · exact v
    · exact uv
  alignment := alignment
  staged := staged

/-- What is uploaded is drawn, if there is something to draw. -/
theorem NodeMirrors.rendered (mirrors : NodeMirrors inUse gl names c node) (separate : names.Separate inUse) (android : Bool)
    (results : GlResults) (held : node.pendingUpload = true → ∀ frame, node.heldBuffer = some frame → FrameRows frame) :
    let done := uploadIfPending android results node
    let calls := uploadCalls android results names node ++ if done.hasData then drawCalls names done else []
    NodeMirrors inUse (gl.afterAll calls) names (c.afterAll gl calls) done ∧
      c.pictures gl calls = (if done.hasData then draw done :: sampledTimings done else []).filterMap sampled := by
  have upload := uploadCalls_mirrors mirrors separate android results held
  have quiet := pictures_of_quiet (uploadCalls_quiet android results names node) c gl
  simp only [afterAll_append, contents_append, pictures_append, quiet, List.nil_append]
  split
  · refine ⟨?_, drawCalls_pictures upload.planes _⟩
    obtain ⟨image, store⟩ := drawCalls_contents (c.afterAll gl (uploadCalls android results names node))
      (gl.afterAll (uploadCalls android results names node)) names (uploadIfPending android results node)
    rw [drawCalls_size]
    refine ⟨upload.clean, upload.named, fun k => ?_, upload.ids, upload.alignment, upload.staged⟩
    obtain ⟨tex, stores⟩ := upload.planes k
    exact ⟨(congrFun image _).trans tex, fun generated i => (congrFun store _).trans (stores generated i)⟩
  · exact ⟨upload, rfl⟩

/-- New names have nothing under them. -/
theorem initCalls_contents (supported : Bool) (names : NodeNames) (c : Contents Nat) (gl : Gl) (k : PlaneKind) :
    (c.afterAll gl (initCalls supported names)).image (names.of k).tex = genTexture ∧
      (supported = true → ∀ i, (c.afterAll gl (initCalls supported names)).store ((names.of k).ids i) = none) := by
  cases supported with
  | false => cases k <;> simp [initCalls, Contents.afterAll, Contents.after, NodeNames.of]
  | true =>
    refine ⟨by cases k <;> simp [initCalls, Contents.afterAll, Contents.after, NodeNames.of], fun _ i => ?_⟩
    cases k <;> fin_cases i <;>
      simp [initCalls, Contents.afterAll, Contents.after, NodeNames.of, PlaneNames.buffers]

theorem initCalls_alignment (supported : Bool) (names : NodeNames) (gl : Gl) :
    (gl.afterAll (initCalls supported names)).alignment = gl.alignment := by
  cases supported <;> rfl

theorem ensureInitialized_alignment {android : Bool} {results : GlResults} (new : node.glInitialized = false)
    (initialized : ensureInitialized android results node = some next) : next.unpackAlignment = results.unpackAlignment := by
  unfold ensureInitialized at initialized
  rw [if_neg (by simp [new])] at initialized
  split at initialized
  · cases initialized
    rfl
  · cases initialized

theorem initCalls_quiet (supported : Bool) (names : NodeNames) : (initCalls supported names).any Call.draws = false := by
  cases supported <;> rfl

/-- Buffers without names have no store. -/
def StoreNamed (plane : Plane) : Prop := plane.pbo.ids = false → ∀ i, plane.pbo.store i = none

theorem storeNamed_kept : KeptByUploads Anyhow StoreNamed where
  idle _ _ _ := trivial
  reset _ held := held
  tight rowLength p plane held := by
    unfold StoreNamed
    rw [uploadPlaneTight_pbo]
    exact held
  async rowLength alignment outcome p plane _ held := by
    intro unnamed i
    rw [uploadPlaneViaPboAsync_ids] at unnamed
    unfold uploadPlaneViaPboAsync
    rw [if_neg (by simp [unnamed])]
    rw [uploadPlaneTight_pbo]
    exact held unnamed i

/-- What holds of the node and the objects between two calls of it. -/
structure NodeHeld (gl : Gl) (names : NodeNames) (c : Contents Nat) (node : RenderNode) : Prop where
  named : ∀ plane ∈ node.planes, StoreNamed plane
  planes : node.glInitialized = true → ∀ k, Mirrors c (names.of k) (node.plane k)
  staged : ∀ k, ReadyStaged node.supportsUnpackRowLength gl (names.of k) (node.plane k)

theorem plane_mem (node : RenderNode) (k : PlaneKind) : node.plane k ∈ node.planes := by
  cases k <;> simp [RenderNode.plane, RenderNode.planes]

/-- New names have empty textures and stores, and nothing is ready in them. -/
theorem NodeHeld.initialize (held : NodeHeld gl names c node) (owned : NodeOwned gl names node) (new : node.glInitialized = false)
    {android : Bool} {results : GlResults} (initialized : ensureInitialized android results node = some next) (given : NodeNames) :
    NodeHeld (gl.afterAll (initCalls results.supportsPixelUnpackBuffer given)) given
      (c.afterAll gl (initCalls results.supportsPixelUnpackBuffer given)) next := by
  have absent : buffersInUse node = false := by rw [buffersInUse, new, Bool.false_and]
  have unnamed : ∀ plane ∈ node.planes, plane.pbo.ids = false ∧ ∀ i, plane.pbo.store i = none := by
    intro plane inside
    have none : plane.pbo.ids = false := by
      by_contra generated
      have inUse := owned.ids plane inside (by simpa using generated)
      rw [absent] at inUse
      cases inUse
    exact ⟨none, held.named plane inside none⟩
  have made (k : PlaneKind) : next.plane k = genPlane results.supportsPixelUnpackBuffer (node.plane k) := by
    unfold ensureInitialized at initialized
    rw [if_neg (by simp [new])] at initialized
    split at initialized
    · cases initialized
      cases k <;> rfl
    · cases initialized
  obtain ⟨_, _, _, _, planes⟩ := ensureInitialized_new new initialized
  refine ⟨fun plane inside => ?_, fun _ k => ?_, fun k => ?_⟩
  · rw [planes] at inside
    obtain ⟨before, known, rfl⟩ := List.mem_map.mp inside
    intro _ i
    unfold genPlane
    cases results.supportsPixelUnpackBuffer <;> exact (unnamed before known).2 i
  · obtain ⟨image, store⟩ := initCalls_contents results.supportsPixelUnpackBuffer given c gl k
    obtain ⟨ids, stores⟩ := unnamed _ (plane_mem node k)
    rw [made]
    refine ⟨image, fun generated i => ?_⟩
    unfold genPlane at generated ⊢
    cases supported : results.supportsPixelUnpackBuffer with
    | false =>
      simp only [supported, Bool.false_eq_true, if_false, ids] at generated
    | true =>
      rw [supported] at store
      exact (store rfl i).trans (stores i).symm
  · refine .of_idle ?_
    rw [made, genPlane_ready]
    refine Option.eq_none_iff_forall_ne_some.mpr fun index ready => ?_
    have generated := (held.staged k index ready).generated
    rw [(unnamed _ (plane_mem node k)).1] at generated
    cases generated

theorem NodeHeld.render (held : NodeHeld gl names c node) (owned : NodeOwned gl names node) (android : Bool) (results : GlResults)
    {given : NodeNames} (textures : given.textures.Nodup) (buffers : (0 :: given.buffers).Nodup)
    (found : gl.alignment = results.unpackAlignment) (same : node.unpackAlignment = results.unpackAlignment)
    (rows : node.pendingUpload = true → ∀ frame, node.heldBuffer = some frame → FrameRows frame) :
    let after := if !node.glInitialized && results.context then given.given results.supportsPixelUnpackBuffer else names
    let calls := renderCalls android results after node
    NodeHeld (gl.afterAll calls) after (c.afterAll gl calls) (Renderer.render android results node).1 ∧
      c.pictures gl calls = (Renderer.render android results node).2.filterMap sampled := by
  unfold renderCalls Renderer.render
  cases there : node.glInitialized with
  | true =>
    have ready : ensureInitialized android results node = some node := by simp [ensureInitialized, there]
    obtain ⟨done, drawn⟩ := (owned.mirrors there (held.planes there) (found.trans same.symm) held.staged).rendered
      (owned.separate there) android results rows
    have kept := storeNamed_kept.uploadIfPending android results (fun path _ => pathFinds_anyhow results node path) held.named
    simp only [ready, Bool.not_true, Bool.false_and, Bool.false_eq_true, if_false, if_true, List.nil_append]
    exact ⟨⟨kept, fun _ => done.planes, done.staged⟩, drawn⟩
  | false =>
    cases ready : ensureInitialized android results node with
    | none =>
      have noContext : results.context = false := by simpa [ensureInitialized, there] using ready
      simp only [noContext, Bool.and_false, Bool.false_eq_true, if_false]
      exact ⟨held, rfl⟩
    | some next =>
      obtain ⟨context, supported, pending, holding, _⟩ := ensureInitialized_new there ready
      obtain ⟨_, made⟩ := owned.initialize there ready textures buffers
      have start := held.initialize owned there ready (given.given results.supportsPixelUnpackBuffer)
      have initialized := ensureInitialized_initialized ready
      have aligned := (initCalls_alignment results.supportsPixelUnpackBuffer
        (given.given results.supportsPixelUnpackBuffer) gl).trans (found.trans (ensureInitialized_alignment there ready).symm)
      rw [supported] at made
      simp only [context, supported, Bool.not_false, Bool.and_true, Bool.false_eq_true, if_false, if_true, List.append_assoc]
      generalize given.given results.supportsPixelUnpackBuffer = names at made start aligned ⊢
      obtain ⟨done, drawn⟩ := (made.mirrors initialized (start.planes initialized) aligned start.staged).rendered
        (made.separate initialized) android results (by rwa [pending, holding])
      have kept := storeNamed_kept.uploadIfPending android results (fun path _ => pathFinds_anyhow results next path) start.named
      rw [afterAll_append, contents_append, pictures_append, pictures_of_quiet (initCalls_quiet ..)]
      exact ⟨⟨kept, fun _ => done.planes, done.staged⟩, drawn⟩

theorem NodeHeld.of_rest (held : NodeHeld gl names c node) (planes : next.planes = node.planes)
    (initialized : next.glInitialized = node.glInitialized)
    (rowLength : next.supportsUnpackRowLength = node.supportsUnpackRowLength) : NodeHeld gl names c next := by
  have same (k : PlaneKind) : next.plane k = node.plane k := by
    simp only [RenderNode.planes, List.cons.injEq, and_true] at planes
    obtain ⟨y, u, v, uv⟩ := planes
    cases k <;> simp only [RenderNode.plane, y, u, v, uv]
  refine ⟨planes ▸ held.named, fun there k => ?_, fun k => ?_⟩
  · rw [same]
    exact held.planes (initialized ▸ there) k
  · rw [same, rowLength]
    exact held.staged k

theorem NodeHeld.sync (held : NodeHeld gl names c node) (item : VideoRenderer) :
    NodeHeld gl names c (Renderer.sync item node).2 := by
  rcases sync_cases item node with ⟨frame, _, taken⟩ | unchanged | emptied
  · rw [taken]
    exact held.of_rest rfl rfl rfl
  · rw [unchanged]
    exact held.of_rest rfl rfl rfl
  · rw [emptied]
    exact held.of_rest rfl rfl rfl

/-- Nothing is known of what was deleted. -/
theorem NodeHeld.destroy (held : NodeHeld gl names c node) (owned : NodeOwned gl names node) (context : Bool) :
    NodeHeld (gl.afterAll (destroyCalls context names node)) (if node.glInitialized && context then {} else names)
      (c.afterAll gl (destroyCalls context names node)) (destroyGlResources context node) := by
  unfold destroyCalls destroyGlResources
  by_cases gone : node.glInitialized = true ∧ context = true
  · have both : (node.glInitialized && context) = true := by simpa using gone
    rw [if_pos both, if_pos both, if_pos gone]
    have named := held.named
    rw [forall_planes] at named
    obtain ⟨y, u, v, uv⟩ := named
    cases supported : node.supportsPixelUnpackBuffer with
    | false =>
      have idle (k : PlaneKind) : readyBuffer (node.plane k).pbo = none := by
        refine Option.eq_none_iff_forall_ne_some.mpr fun index ready => ?_
        have inUse := owned.ids _ (plane_mem node k) (held.staged k index ready).generated
        rw [buffersInUse, supported, Bool.and_false] at inUse
        cases inUse
      refine ⟨(forall_planes _).mpr ⟨y, u, v, uv⟩, fun there => ?_, fun k => .of_idle ?_⟩
      · cases there
      · cases k
        · exact idle .y
        · exact idle .u
        · exact idle .v
        · exact idle .uv
    | true =>
      refine ⟨(forall_planes _).mpr ⟨fun _ _ => rfl, fun _ _ => rfl, fun _ _ => rfl, fun _ _ => rfl⟩,
        fun there => ?_, fun k => .of_idle ?_⟩
      · cases there
      · cases k <;> rfl
  · have other : ¬(node.glInitialized && context) = true := by simpa using gone
    rw [if_neg other, if_neg other, if_neg gone]
    exact held

theorem destroyCalls_quiet (context : Bool) (names : NodeNames) (node : RenderNode) :
    (destroyCalls context names node).any Call.draws = false := by
  unfold destroyCalls
  split
  · cases node.supportsPixelUnpackBuffer <;> rfl
  · rfl

/-- A node that is not there holds nothing. -/
theorem NodeHeld.fresh (gl : Gl) (names : NodeNames) (c : Contents Nat) : NodeHeld gl names c {} where
  named := by
    rw [forall_planes]
    exact ⟨fun _ _ => rfl, fun _ _ => rfl, fun _ _ => rfl, fun _ _ => rfl⟩
  planes there := by cases there
  staged k := .of_idle (by cases k <;> rfl)

end Node

/-! The pictures of a whole run. -/

section Surface
variable {android : Bool} {s t : Surface} {e : SurfaceEvent} {out log : List Call}

/-- GL behaves, and the strides of the frame that is delivered hold its rows. -/
structure GlRows (e : SurfaceEvent) : Prop extends GlBehaves e where
  frame : ∀ buffer rawId nowUs, e.event = .onFrame buffer rawId nowUs →
    ∀ pending, pendingOf buffer = some pending → ∀ number, FrameRows ⟨number, pending⟩

structure SurfaceHeld (s : Surface) : Prop where
  owned : SurfaceOwned s
  held : NodeHeld s.gl s.names s.contents (s.renderer.node.getD {})
  pending : ∀ frame, s.renderer.item.pendingBuffer = some frame → FrameRows frame
  rows : (s.renderer.node.getD {}).pendingUpload = true →
    ∀ frame, (s.renderer.node.getD {}).heldBuffer = some frame → FrameRows frame

theorem renderNode_effects (android : Bool) (s : State) (results : GlResults) :
    (renderNode android s results).2 = s.node.elim [] fun node => (render android results node).2 := by
  unfold renderNode
  cases s.node <;> rfl

/-- What a render finds has no names. -/
theorem SurfaceHeld.found (held : SurfaceHeld s) (event : RenderEvent) :
    s.contents.afterAll s.gl (foundCalls event) = s.contents ∧ s.contents.pictures s.gl (foundCalls event) = [] ∧
      NodeHeld (s.gl.afterAll (foundCalls event)) s.names s.contents ((s.renderer.found event).node.getD {}) := by
  have aligned : s.contents.afterAll s.gl (foundCalls event) = s.contents ∧
      s.contents.pictures s.gl (foundCalls event) = [] ∧
      NodeHeld (s.gl.afterAll (foundCalls event)) s.names s.contents (s.renderer.node.getD {}) := by
    obtain ⟨named, planes, staged⟩ := held.held
    cases event with
    | render results => exact ⟨rfl, rfl, named, planes, fun k => (staged k).congr rfl fun _ _ => rfl⟩
    | onFrame | updatePaintNode | releaseResources | setVideoTrack | clearVideoTrack => exact ⟨rfl, rfl, named, planes, staged⟩
  obtain ⟨same, quiet, held⟩ := aligned
  exact ⟨same, quiet, found_node event held fun _ _ held => ⟨held.named, held.planes, held.staged⟩⟩

/-- The node that a render finds knows the alignment of the context. -/
theorem found_alignment {node : RenderNode} (there : (s.renderer.found e.event).node = some node) (results : GlResults)
    (same : e.event = .render results) :
    (s.gl.afterAll (foundCalls e.event)).alignment = results.unpackAlignment ∧
      node.unpackAlignment = results.unpackAlignment := by
  rw [same] at there ⊢
  obtain ⟨before, _, rfl⟩ := Option.map_eq_some_iff.mp there
  exact ⟨rfl, rfl⟩

theorem nodeHeld_without {r t : State} {event : RenderEvent} {effects : List RenderAction} {gl : Gl} {names : NodeNames}
    {c : Contents Nat} (held : NodeHeld gl names c (r.node.getD {})) (absent : r.node = none)
    (moved : step android r event = some (t, effects)) :
    NodeHeld gl names c (t.node.getD {}) ∧ effects.filterMap sampled = [] := by
  cases renderMove_of_step moved with
  | delivers buffer rawId nowUs attached => exact ⟨held, rfl⟩
  | syncs => exact ⟨held.sync r.item, rfl⟩
  | drops => exact ⟨.fresh .., rfl⟩
  | renders results =>
    rw [renderNode_node, renderNode_effects, absent]
    exact ⟨.fresh .., rfl⟩
  | releases context =>
    simp only [absent]
    exact ⟨.fresh .., rfl⟩
  | keeps track same => exact ⟨held, rfl⟩
  | replaces track other => exact ⟨held, rfl⟩
  | clears => exact ⟨held, rfl⟩

theorem surfaceCalls_held {r next : State} {effects : List RenderAction} {gl : Gl} {c : Contents Nat} {node : RenderNode}
    (owned : NodeOwned gl s.names (r.node.getD {})) (held : NodeHeld gl s.names c (r.node.getD {}))
    (rows : (r.node.getD {}).pendingUpload = true → ∀ frame, (r.node.getD {}).heldBuffer = some frame → FrameRows frame)
    (there : r.node = some node) (behaves : GlBehaves e)
    (found : ∀ results, e.event = .render results →
      gl.alignment = results.unpackAlignment ∧ node.unpackAlignment = results.unpackAlignment)
    (moved : step android r e.event = some (next, effects)) :
    NodeHeld (gl.afterAll (surfaceCalls android s e node)) (namesAfter s e node)
        (c.afterAll gl (surfaceCalls android s e node)) (next.node.getD {}) ∧
      c.pictures gl (surfaceCalls android s e node) = effects.filterMap sampled := by
  obtain ⟨event, given, context⟩ := e
  obtain ⟨textures, buffers, rfl⟩ := behaves
  cases renderMove_of_step moved with
  | delivers buffer rawId nowUs attached => exact ⟨held, rfl⟩
  | syncs => exact ⟨held.sync r.item, rfl⟩
  | drops => exact ⟨.fresh .., pictures_of_quiet (destroyCalls_quiet ..) ..⟩
  | renders results =>
    rw [there] at owned held rows
    rw [renderNode_node, renderNode_effects, there]
    obtain ⟨set, same⟩ := found results rfl
    exact held.render owned android results textures buffers set same rows
  | releases context =>
    rw [there] at owned held
    simp only [there]
    exact ⟨held.destroy owned context, pictures_of_quiet (destroyCalls_quiet ..) ..⟩
  | keeps track same => exact ⟨held, rfl⟩
  | replaces track other => exact ⟨held, rfl⟩
  | clears => exact ⟨held, rfl⟩

theorem surface_held (held : SurfaceHeld s) (behaves : GlBehaves e)
    (rows : ∀ buffer rawId nowUs, e.event = .onFrame buffer rawId nowUs →
      ∀ pending, pendingOf buffer = some pending → FrameRows ⟨s.renderer.delivered, pending⟩)
    (run : surfaceStep android s e = some (t, out)) :
    SurfaceHeld t ∧ ∃ effects, (shared android).step s.renderer e.event = some (t.renderer, effects) ∧
      s.contents.pictures s.gl out = effects.filterMap sampled := by
  obtain ⟨_, owned⟩ := surface_step held.owned behaves run
  obtain ⟨⟨next, effects⟩, moved, made⟩ := Option.map_eq_some_iff.mp run
  obtain ⟨same, quiet, found⟩ := held.found e.event
  obtain ⟨item, delivered⟩ := found_rest s.renderer e.event
  have move := renderMove_of_step moved
  have due := found_held e.event held.rows
  have frames := pending_step move (delivered ▸ rows) (item ▸ held.pending)
  have kept := held_step move (item ▸ held.pending) due
  have node : NodeHeld t.gl t.names t.contents (t.renderer.node.getD {}) ∧
      s.contents.pictures s.gl out = effects.filterMap sampled := by
    cases there : (s.renderer.found e.event).node with
    | none =>
      rw [there] at made
      cases made
      obtain ⟨still, nothing⟩ := nodeHeld_without found there moved
      simp only [Option.elim_none, List.append_nil, same, quiet, nothing]
      exact ⟨still, trivial⟩
    | some node =>
      rw [there] at made
      cases made
      obtain ⟨still, drawn⟩ := surfaceCalls_held (held.owned.found e.event).2 found due there behaves
        (found_alignment there) moved
      simp only [Option.elim_some, afterAll_append, contents_append, pictures_append, same, quiet, List.nil_append]
      exact ⟨still, drawn⟩
  cases made
  exact ⟨⟨owned, node.1, frames, kept⟩, effects, moved, node.2⟩

/-- The context is what the calls made of it. -/
theorem surface_log (gl : s.gl = ({} : Gl).afterAll log) (contents : s.contents = ({} : Contents Nat).afterAll {} log)
    (run : surfaceStep android s e = some (t, out)) :
    t.gl = ({} : Gl).afterAll (log ++ out) ∧ t.contents = ({} : Contents Nat).afterAll {} (log ++ out) := by
  obtain ⟨_, _, made⟩ := Option.map_eq_some_iff.mp run
  cases made
  change s.gl.afterAll _ = _ ∧ s.contents.afterAll s.gl _ = _
  rw [contents, gl, ← afterAll_append, ← contents_append]
  exact ⟨rfl, rfl⟩

/-- The GL calls of every run draw the pictures of a run of the node, and
between them the textures and the buffers hold what the node says. -/
theorem pictures_refine (reach : (surface android).Reach (fun _ e => GlRows e) s log) :
    ∃ effects, (shared android).Reach Machine.Always s.renderer effects ∧
      ({} : Contents Nat).pictures {} log = effects.filterMap sampled ∧
      ∀ node ∈ s.renderer.node, node.glInitialized = true → ∀ k, Mirrors s.contents (s.names.of k) (node.plane k) := by
  have run : (s.gl = ({} : Gl).afterAll log ∧ s.contents = ({} : Contents Nat).afterAll {} log) ∧
      SurfaceHeld s ∧ ∃ effects, (shared android).Reach Machine.Always s.renderer effects ∧
        ({} : Contents Nat).pictures {} log = effects.filterMap sampled := by
    refine reach.invariant (P := fun s log =>
      (s.gl = ({} : Gl).afterAll log ∧ s.contents = ({} : Contents Nat).afterAll {} log) ∧
      SurfaceHeld s ∧ ∃ effects, (shared android).Reach Machine.Always s.renderer effects ∧
        ({} : Contents Nat).pictures {} log = effects.filterMap sampled) ?_ ?_
    · exact ⟨⟨rfl, rfl⟩, ⟨.new, .fresh .., nofun, nofun⟩, [], .start, rfl⟩
    · intro s log e t out holds feasible run
      obtain ⟨⟨gl, contents⟩, held, effects, before, drawn⟩ := holds
      obtain ⟨still, more, moved, next⟩ := surface_held held feasible.toGlBehaves
        (fun buffer rawId nowUs same pending taken => feasible.frame buffer rawId nowUs same pending taken _) run
      refine ⟨surface_log gl contents run, still, effects ++ more, before.next trivial moved, ?_⟩
      rw [pictures_append, ← gl, ← contents, drawn, next, List.filterMap_append]
  obtain ⟨_, held, effects, reached, drawn⟩ := run
  refine ⟨effects, reached, drawn, fun node there initialized => ?_⟩
  have planes := held.held.planes
  rw [Option.mem_def.mp there] at planes
  exact planes initialized

end Surface

theorem twoSizes_rows : ∀ e ∈ twoSizes, GlRows e := by
  have behaves : ∀ e ∈ twoSizes, GlBehaves e := by decide
  intro e inside
  refine ⟨behaves e inside, fun buffer rawId nowUs same pending taken number => ?_⟩
  rcases twoSizes_frames inside same with rfl | rfl <;> cases taken <;>
    simp [FrameRows, planesOf, nv12PlaneY, nv12PlaneUV, smallNv12, NV12Buffer.chromaWidth]

theorem pictures_refine_twoSizes :
    ∃ s log effects, (surface true).Reach (fun _ e => GlRows e) s log ∧
      (({} : Contents Nat).pictures {} log).map List.length = [2] ∧
      (shared true).Reach Machine.Always s.renderer effects ∧ ({} : Contents Nat).pictures {} log = effects.filterMap sampled := by
  have reach : (surface true).Reach (fun _ e => GlRows e) _ _ :=
    .ofExec (fun _ e => GlRows e) twoSizes rfl (Machine.meets_of_forall _ fun e inside _ => twoSizes_rows e inside)
  obtain ⟨effects, reached, same, _⟩ := pictures_refine reach
  exact ⟨_, _, effects, reach, by decide, reached, same⟩

end WebRtcDemo.Renderer
