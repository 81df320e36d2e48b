import WebRtcDemo.Renderer.Storage

/-! What the ways of uploading a plane leave in its texture. -/

namespace WebRtcDemo.Renderer

open GlTexture

/-- A plane that can be uploaded: the rows lie inside the data, and the stride
is a whole number of pixels. -/
structure PlaneSource.Valid (p : PlaneSource) : Prop where
  width : 1 ≤ p.width
  height : 1 ≤ p.height
  bytesPerPixel : p.bytesPerPixel = 1 ∨ p.bytesPerPixel = 2
  stride : p.width * p.bytesPerPixel ≤ p.strideBytes
  pixels : p.bytesPerPixel ∣ p.strideBytes
  data : p.strideBytes * p.height ≤ p.data.bytes.length

instance (p : PlaneSource) : Decidable p.Valid :=
  decidable_of_iff (1 ≤ p.width ∧ 1 ≤ p.height ∧ (p.bytesPerPixel = 1 ∨ p.bytesPerPixel = 2) ∧
      p.width * p.bytesPerPixel ≤ p.strideBytes ∧ p.bytesPerPixel ∣ p.strideBytes ∧
      p.strideBytes * p.height ≤ p.data.bytes.length)
    ⟨fun ⟨w, h, b, s, d, l⟩ => ⟨w, h, b, s, d, l⟩, fun ⟨w, h, b, s, d, l⟩ => ⟨w, h, b, s, d, l⟩⟩

/-- The bytes of pixel `(x, y)` of a plane. -/
def PlaneSource.sample (p : PlaneSource) (x y : Nat) : Bytes :=
  (p.data.bytes.drop (y * p.strideBytes + x * p.bytesPerPixel)).take p.bytesPerPixel

/-- The texture is the picture of the plane. -/
structure ShowsPlane (t : Texture Nat) (p : PlaneSource) : Prop where
  width : t.width = p.width
  height : t.height = p.height
  texel : ∀ x y, x < p.width → y < p.height → t.texel x y = some ⟨p.data.tag, p.sample x y⟩

/-- A plane together with the fact that its cached size is the one of its
texture. The uploads keep it where what they allocate is there
(`PlaneSized.tight`, `PlaneSized.async`). -/
abbrev SizedPlane : Type := { plane : Plane // PlaneSized plane }

/-! Packed rows. -/

theorem tightRows_succ (src : Bytes) (stride rowBytes rows : Nat) :
    tightRows src stride rowBytes (rows + 1) =
      tightRows src stride rowBytes rows ++ (src.drop (rows * stride)).take rowBytes := by
  simp [tightRows, List.range_succ]

theorem length_tightRows {src : Bytes} {stride rowBytes rows : Nat} (fits : rowBytes ≤ stride)
    (enough : stride * rows ≤ src.length) : (tightRows src stride rowBytes rows).length = rowBytes * rows := by
  induction rows with
  | zero => rfl
  | succ rows ih =>
    rw [Nat.mul_succ] at enough
    have whole : rowBytes ≤ (src.drop (rows * stride)).length := by
      rw [List.length_drop, Nat.mul_comm]
      omega
    rw [tightRows_succ, List.length_append, ih (by omega), List.length_take_of_le whole, Nat.mul_succ]

/-- A piece of a packed row is the same piece of the padded one. -/
theorem tightRows_piece {src : Bytes} {stride rowBytes rows y k n : Nat} (fits : rowBytes ≤ stride)
    (enough : stride * rows ≤ src.length) (row : y < rows) (piece : k + n ≤ rowBytes) :
    ((tightRows src stride rowBytes rows).drop (y * rowBytes + k)).take n = (src.drop (y * stride + k)).take n := by
  induction rows with
  | zero => cases row
  | succ rows ih =>
    rw [Nat.mul_succ] at enough
    have packed := length_tightRows fits (show stride * rows ≤ src.length by omega)
    rw [tightRows_succ]
    rcases Nat.lt_succ_iff_lt_or_eq.mp row with earlier | rfl
    · have below : (y + 1) * rowBytes ≤ rows * rowBytes := Nat.mul_le_mul_right _ earlier
      rw [Nat.succ_mul, Nat.mul_comm rows] at below
      rw [List.drop_append_of_le_length (by omega), List.take_append_of_le_length (by rw [List.length_drop]; omega)]
      exact ih (by omega) earlier
    · -- the last row follows the packed ones
      have start : y * rowBytes + k = (tightRows src stride rowBytes y).length + k := by rw [packed, Nat.mul_comm]
      rw [start, List.drop_length_add_append, List.drop_take, List.take_take, List.drop_drop, Nat.min_eq_left (by omega)]

/-! The pixels that a transfer reads. -/

variable {p : PlaneSource}

theorem PlaneSource.Valid.positive (valid : p.Valid) : 0 < p.bytesPerPixel := by
  rcases valid.bytesPerPixel with one | two <;> omega

/-- With the row length of the stride the transfer reads the plane in place. -/
theorem pixel_padded (valid : p.Valid) (x y : Nat) :
    pixel p.data p.width (unpackRowLength true p.strideBytes p.bytesPerPixel) p.bytesPerPixel x y =
      ⟨p.data.tag, p.sample x y⟩ := by
  obtain ⟨r, exact⟩ := valid.pixels
  have positive := valid.positive
  have rows : unpackRowLength true p.strideBytes p.bytesPerPixel = r := by
    rw [unpackRowLength, if_pos rfl, exact, Nat.mul_div_cancel_left r positive]
  have some : r ≠ 0 := by
    rintro rfl
    have size := valid.stride
    have area : 0 < p.width * p.bytesPerPixel := Nat.mul_pos valid.width positive
    omega
  have place : (y * r + x) * p.bytesPerPixel = y * p.strideBytes + x * p.bytesPerPixel := by
    rw [exact]
    ring
  rw [rows, pixel, if_neg some, place]
  rfl

/-- Packed rows are read with the row length of the width. -/
theorem pixel_packed (valid : p.Valid) {x y rowLength : Nat} (inside : x < p.width ∧ y < p.height)
    (packed : rowLength = 0 ∨ rowLength = p.width) :
    pixel ⟨p.data.tag, tightRows p.data.bytes p.strideBytes (p.width * p.bytesPerPixel) p.height⟩ p.width rowLength
      p.bytesPerPixel x y = ⟨p.data.tag, p.sample x y⟩ := by
  have rows : (if rowLength = 0 then p.width else rowLength) = p.width := by
    rcases packed with rfl | rfl
    · rfl
    · exact ite_self _
  have place : (y * p.width + x) * p.bytesPerPixel = y * (p.width * p.bytesPerPixel) + x * p.bytesPerPixel := by
    ring
  have piece : x * p.bytesPerPixel + p.bytesPerPixel ≤ p.width * p.bytesPerPixel := by
    rw [← Nat.succ_mul]
    exact Nat.mul_le_mul_right _ inside.1
  have same := tightRows_piece valid.stride valid.data inside.2 piece
  simp only [pixel, rows, place, PlaneSource.sample]
  rw [same]

/-- Rows without padding are packed as they are. -/
theorem pixel_dense (dense : p.strideBytes = p.width * p.bytesPerPixel) (x y : Nat) :
    pixel p.data p.width 0 p.bytesPerPixel x y = ⟨p.data.tag, p.sample x y⟩ := by
  have place : (y * p.width + x) * p.bytesPerPixel = y * p.strideBytes + x * p.bytesPerPixel := by
    rw [dense]
    ring
  rw [pixel, if_pos rfl, place]
  rfl

theorem PlaneSource.Valid.sample_inside (valid : p.Valid) {x y : Nat} (inside : x < p.width ∧ y < p.height) :
    y * p.strideBytes + x * p.bytesPerPixel + p.bytesPerPixel ≤ p.strideBytes * p.height := by
  have column : (x + 1) * p.bytesPerPixel ≤ p.width * p.bytesPerPixel := Nat.mul_le_mul_right _ inside.1
  have row : (y + 1) * p.strideBytes ≤ p.height * p.strideBytes := Nat.mul_le_mul_right _ inside.2
  have stride := valid.stride
  rw [Nat.succ_mul] at column row
  rw [Nat.mul_comm p.strideBytes]
  omega

/-- Any data that reads as the plane, at any row length. -/
theorem showsPlane_of_transfer {plane : Plane} (sized : PlaneSized plane) {rowLength : Nat} {data : Block Nat}
    (reads : ∀ x y, x < p.width ∧ y < p.height →
      pixel data p.width rowLength p.bytesPerPixel x y = ⟨p.data.tag, p.sample x y⟩) :
    ShowsPlane (texSubImage2D (allocatePlane true plane p.width p.height).tex p.width p.height rowLength p.bytesPerPixel
      data) p := by
  obtain ⟨width, height, _⟩ : (allocatePlane true plane p.width p.height).tex.width = p.width ∧ _ ∧ _ :=
    allocatePlane_size sized (.inr rfl)
  refine ⟨?_, ?_, ?_⟩
  · rw [texSubImage2D_width, width]
  · rw [texSubImage2D_height, height]
  · intro x y column row
    rw [texSubImage2D_texel ⟨width.ge, height.ge⟩ ⟨column, row⟩, reads x y ⟨column, row⟩]

/-! The ways of uploading. -/

theorem showsPlane_dense {plane : Plane} (sized : PlaneSized plane) (dense : p.strideBytes = p.width * p.bytesPerPixel)
    (stride : Nat) : ShowsPlane (uploadPlaneTight false { p with strideBytes := stride } plane).tex p :=
  showsPlane_of_transfer sized fun x y _ => pixel_dense dense x y

/-- The ready buffer holds the copy of a plane, in a store of exactly its size. -/
structure HoldsCopy (rowLength : Bool) (p : PlaneSource) (pbo : PlaneUploadPbo) (index : Fin 2) : Prop where
  ready : readyBuffer pbo = some index
  copied : pbo.store index = some ⟨p.data.tag, copyPlaneForUpload p rowLength⟩
  allocated : pbo.capacities index = uploadBytes rowLength p
  width : pbo.readyW = p.width
  height : pbo.readyH = p.height
  stride : pbo.readyStrideBytes = p.strideBytes
  bytesPerPixel : pbo.readyBytesPerPixel = p.bytesPerPixel

theorem stagePlaneIntoPbo_holdsCopy {gl : StageOutcome} {pbo : PlaneUploadPbo} (ids : pbo.ids = true)
    (mapped : gl.mapped = true) (unmapped : gl.unmapped = true) (rowLength : Bool) (p : PlaneSource) :
    (stagePlaneIntoPbo rowLength gl p pbo).2 = true ∧
      HoldsCopy rowLength p (stagePlaneIntoPbo rowLength gl p pbo).1 pbo.nextStageIndex := by
  unfold stagePlaneIntoPbo
  rw [if_pos ids]
  simp only [mapped, unmapped, and_self, if_true]
  exact ⟨trivial, rfl, Function.update_self .., Function.update_self .., rfl, rfl, rfl, rfl⟩

section uploads
variable (valid : p.Valid) {plane : Plane} (sized : PlaneSized plane)
include valid

theorem length_copyPlaneForUpload (rowLength : Bool) : (copyPlaneForUpload p rowLength).length = uploadBytes rowLength p := by
  unfold copyPlaneForUpload uploadBytes
  simp only
  split
  · exact List.length_take_of_le valid.data
  · exact length_tightRows valid.stride valid.data

/-- A copy for the upload reads as the plane at the row length of its stride. -/
theorem pixel_copyPlaneForUpload (rowLength : Bool) {x y : Nat} (inside : x < p.width ∧ y < p.height) :
    pixel ⟨p.data.tag, copyPlaneForUpload p rowLength⟩ p.width (unpackRowLength rowLength p.strideBytes p.bytesPerPixel)
      p.bytesPerPixel x y = ⟨p.data.tag, p.sample x y⟩ := by
  unfold copyPlaneForUpload
  simp only
  split
  · rename_i padded
    obtain ⟨rfl, _⟩ := padded
    have room := valid.sample_inside inside
    let copied : PlaneSource := { p with data := ⟨p.data.tag, p.data.bytes.take (p.strideBytes * p.height)⟩ }
    have copiedValid : copied.Valid :=
      { valid with data := (List.length_take_of_le valid.data).ge }
    -- the copy ends after the last row, behind every pixel
    have same : copied.sample x y = p.sample x y := by
      simp only [PlaneSource.sample, copied]
      rw [List.drop_take, List.take_take, Nat.min_eq_left (by omega)]
    rw [← same]
    exact pixel_padded copiedValid x y
  · rename_i packed
    refine pixel_packed valid inside ?_
    unfold unpackRowLength
    split
    · have dense : p.strideBytes = p.width * p.bytesPerPixel := by
        by_contra other
        exact packed ⟨by assumption, other⟩
      exact .inr (by rw [dense, Nat.mul_div_cancel _ valid.positive])
    · exact .inl rfl

include sized

theorem showsPlane_padded : ShowsPlane (uploadPlaneTight true p plane).tex p :=
  showsPlane_of_transfer sized fun x y _ => pixel_padded valid x y

theorem showsPlane_packed (stride : Nat) :
    ShowsPlane (uploadPlaneTight false { p with
      data := ⟨p.data.tag, tightRows p.data.bytes p.strideBytes (p.width * p.bytesPerPixel) p.height⟩
      strideBytes := stride } plane).tex p :=
  showsPlane_of_transfer sized fun _ _ inside => pixel_packed valid inside (.inl rfl)

theorem showsPlane_prepared (luminance : p.bytesPerPixel = 1) (stride : Nat) :
    ShowsPlane (uploadPlaneTight false { p with
      data := prepareTightPlaneIfNeeded p.data p.strideBytes p.width p.height false
      strideBytes := stride } plane).tex p := by
  unfold prepareTightPlaneIfNeeded
  split
  · rename_i dense
    have rows : p.strideBytes = p.width * p.bytesPerPixel := by simpa [luminance] using dense
    exact showsPlane_dense sized rows stride
  · have packed := showsPlane_packed valid sized stride
    rw [luminance, Nat.mul_one] at packed
    rw [luminance]
    exact packed

theorem HoldsCopy.showsPlane {rowLength : Bool} {index : Fin 2} (copy : HoldsCopy rowLength p plane.pbo index) :
    (uploadPlaneFromReadyPbo rowLength 1 plane).2 = true ∧
      ShowsPlane (uploadPlaneFromReadyPbo rowLength 1 plane).1.tex p := by
  unfold uploadPlaneFromReadyPbo
  rw [copy.ready]
  simp only [allocates_of_packed, allocatePlane_pbo, copy.copied, transferFromStore, copy.width, copy.height, copy.stride, copy.bytesPerPixel]
  exact ⟨trivial, showsPlane_of_transfer sized fun _ _ inside => pixel_copyPlaneForUpload valid rowLength inside⟩

end uploads

/-- The inline packing of the interleaved plane. -/
theorem showsPlane_tightUV {number : Nat} {b : NV12Buffer} (valid : (nv12PlaneUV number b).Valid) {plane : Plane}
    (sized : PlaneSized plane) :
    ShowsPlane (uploadPlaneTight false (nv12TightUV false number b) plane).tex (nv12PlaneUV number b) := by
  by_cases dense : b.strideUV = b.chromaWidth * 2
  · have same : nv12TightUV false number b = { nv12PlaneUV number b with strideBytes := b.chromaWidth * 2 } := by
      simp [nv12TightUV, nv12PlaneUV, dense]
    rw [same]
    exact showsPlane_dense sized dense _
  · have same : nv12TightUV false number b = { nv12PlaneUV number b with
        data := ⟨number, tightRows b.dataUV b.strideUV (b.chromaWidth * 2) b.chromaHeight⟩
        strideBytes := b.chromaWidth * 2 } := by
      simp [nv12TightUV, nv12PlaneUV, dense]
    rw [same]
    exact showsPlane_packed valid sized _

/-- Every plane with two bytes for each pixel is the interleaved plane of a buffer. -/
theorem exists_nv12PlaneUV {p : PlaneSource} (interleaved : p.bytesPerPixel = 2) : ∃ number b, p = nv12PlaneUV number b := by
  refine ⟨p.data.tag, ⟨2 * p.width, 2 * p.height, 0, p.strideBytes, [], p.data.bytes⟩, ?_⟩
  have width : (2 * p.width + 1) / 2 = p.width := by omega
  have height : (2 * p.height + 1) / 2 = p.height := by omega
  rw [nv12PlaneUV, NV12Buffer.chromaWidth, NV12Buffer.chromaHeight, width, height, ← interleaved]

/-- All ways of uploading a plane leave its picture in the texture: in place
with the row length, packed without it, and through a buffer with either, at
alignment 1; and the copy in the buffer has exactly the size of the store. -/
theorem upload_paths_agree {p : PlaneSource} (valid : p.Valid) (plane : SizedPlane) :
    ShowsPlane (uploadPlaneTight true p plane).tex p ∧
      (p.bytesPerPixel = 1 → ∀ stride, ShowsPlane (uploadPlaneTight false { p with
        data := prepareTightPlaneIfNeeded p.data p.strideBytes p.width p.height false
        strideBytes := stride } plane).tex p) ∧
      (p.bytesPerPixel = 2 → (∃ number b, p = nv12PlaneUV number b) ∧ ∀ number b, p = nv12PlaneUV number b →
        ShowsPlane (uploadPlaneTight false (nv12TightUV false number b) plane).tex p) ∧
      ∀ rowLength gl, Staged gl plane →
        (stagePlaneIntoPbo rowLength gl p plane.val.pbo).2 = true ∧
        ShowsPlane (uploadPlaneFromReadyPbo rowLength 1
          { plane.val with pbo := (stagePlaneIntoPbo rowLength gl p plane.val.pbo).1 }).1.tex p ∧
        (copyPlaneForUpload p rowLength).length = uploadBytes rowLength p ∧
        (stagePlaneIntoPbo rowLength gl p plane.val.pbo).1.capacities plane.val.pbo.nextStageIndex =
          (copyPlaneForUpload p rowLength).length := by
  obtain ⟨plane, sized⟩ := plane
  refine ⟨showsPlane_padded valid sized, showsPlane_prepared valid sized, ?_, ?_⟩
  · intro interleaved
    refine ⟨exists_nv12PlaneUV interleaved, ?_⟩
    rintro number b rfl
    exact showsPlane_tightUV valid sized
  · intro rowLength gl staged
    obtain ⟨done, copy⟩ := stagePlaneIntoPbo_holdsCopy staged.1 staged.2.1 staged.2.2 rowLength p
    have size := length_copyPlaneForUpload valid rowLength
    have resized : PlaneSized { plane with pbo := (stagePlaneIntoPbo rowLength gl p plane.pbo).1 } := sized
    exact ⟨done, (copy.showsPlane valid resized).2, size, copy.allocated.trans size.symm⟩

/-- A padded luma plane of three by two pixels, through a buffer and packed, and
the padded interleaved plane of such a picture. -/
theorem upload_paths_agree_padded :
    ∃ (plane : SizedPlane) (p : PlaneSource) (b : NV12Buffer), p.Valid ∧ (nv12PlaneUV 0 b).Valid ∧
      Staged ⟨true, true⟩ plane ∧
      ShowsPlane (uploadPlaneFromReadyPbo false 1
        { plane.val with pbo := (stagePlaneIntoPbo false ⟨true, true⟩ p plane.val.pbo).1 }).1.tex p ∧
      ShowsPlane (uploadPlaneTight false { p with
        data := prepareTightPlaneIfNeeded p.data p.strideBytes p.width p.height false } plane).tex p ∧
      ShowsPlane (uploadPlaneTight false (nv12TightUV false 0 b) plane).tex (nv12PlaneUV 0 b) := by
  have luma : PlaneSource.Valid ⟨3, 2, 1, ⟨0, [1, 2, 3, 0, 4, 5, 6, 0]⟩, 4⟩ :=
    ⟨by decide, by decide, by decide, by decide, by decide, by decide⟩
  have chroma : PlaneSource.Valid (nv12PlaneUV 0 ⟨3, 2, 4, 6, [], [7, 8, 9, 10, 0, 0]⟩) :=
    ⟨by decide, by decide, by decide, by decide, by decide, by decide⟩
  have staged : Staged ⟨true, true⟩ { pbo := { ids := true } } := by decide
  obtain ⟨_, prepared, _, buffered⟩ := upload_paths_agree luma ⟨{ pbo := { ids := true } }, rfl, rfl⟩
  obtain ⟨_, _, packed, _⟩ := upload_paths_agree chroma ⟨{ pbo := { ids := true } }, rfl, rfl⟩
  exact ⟨⟨{ pbo := { ids := true } }, rfl, rfl⟩, _, _, luma, chroma, staged, (buffered false _ staged).2.1,
    prepared rfl 4, (packed rfl).2 0 _ rfl⟩

end WebRtcDemo.Renderer
