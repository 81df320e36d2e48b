import WebRtcDemo.Lib.Memory
import WebRtcDemo.Decoder.Codec

/-! The bytes that `FillNV12BufferFromNv12` copies. -/

namespace WebRtcDemo.Decoder

open CInt Memory

/-- The two planes of an `NV12Buffer`. -/
structure Nv12Planes where
  dataY : Nat → UInt8
  dataUV : Nat → UInt8

/-- `StrideUV` of `NV12Buffer::Create`. -/
def strideUV (width : Int) : Nat := (2 * ((width + 1) / 2)).toNat

/-- The two loops. The source is addressed from the start of the codec's buffer. -/
def copyNv12 (src : Int → UInt8) (offset width height yStride sliceHeight : Int) (dst : Nv12Planes) : Nv12Planes :=
  let yPlane := wrap (yStride * sliceHeight)
  let uvRows := halfUp height
  { dataY := copyRows src offset yStride width.toNat width.toNat height.toNat dst.dataY
    dataUV := copyRows src (offset + yPlane) yStride (strideUV width) width.toNat uvRows.toNat dst.dataUV }

/-- `FillNV12BufferFromNv12` with the planes it leaves; `none` where it returns false. -/
def fillNV12Planes (src : Int → UInt8) (cap : Nat) (offset width height yStride sliceHeight : Int) (dst : Nv12Planes) :
    Option Nv12Planes :=
  if fillNV12BufferFromNv12 cap offset width height yStride sliceHeight then
    some (copyNv12 src offset width height yStride sliceHeight dst)
  else none

/-- The sizes of a picture in the codec's buffer: the rows lie `yStride` apart,
and the chroma starts after `sliceHeight` of them. -/
structure Geometry (width height yStride sliceHeight : Int) : Prop where
  columns : 0 < width
  rows : 0 < height
  stride : width ≤ yStride
  slice : height ≤ sliceHeight

/-- Every luma sample and both samples of every chroma position are those of the source. -/
structure Faithful (src : Int → UInt8) (offset width height yStride sliceHeight : Int) (dst : Nv12Planes) : Prop where
  luma : ∀ x y : Nat, x < width → y < height →
    dst.dataY (y * width.toNat + x) = src (offset + y * yStride + x)
  chromaU : ∀ cx cy : Nat, cx < (width + 1) / 2 → cy < (height + 1) / 2 →
    dst.dataUV (cy * strideUV width + 2 * cx) = src (offset + yStride * sliceHeight + cy * yStride + 2 * cx)
  chromaV : ∀ cx cy : Nat, cx < (width + 1) / 2 → cy < (height + 1) / 2 →
    dst.dataUV (cy * strideUV width + (2 * cx + 1)) =
      src (offset + yStride * sliceHeight + cy * yStride + 2 * cx + 1)

variable {cap : Nat} {offset width height yStride sliceHeight : Int}

theorem fillNV12Planes_eq_some {src : Int → UInt8} {old new : Nv12Planes}
    (filled : fillNV12Planes src cap offset width height yStride sliceHeight old = some new) :
    new = copyNv12 src offset width height yStride sliceHeight old := by
  unfold fillNV12Planes at filled
  split at filled
  · exact (Option.some.inj filled).symm
  · cases filled

theorem wrap_lt (x : Int) : wrap x < 2 ^ 31 := by
  have bound := Int.bmod_lt (x := x) (m := 2 ^ 32) (by decide)
  unfold wrap
  omega

theorem le_strideUV (width : Int) : width.toNat ≤ strideUV width := by
  unfold strideUV
  omega

theorem Geometry.area (geometry : Geometry width height yStride sliceHeight) : 0 ≤ yStride * sliceHeight := by
  have := geometry.columns
  have := geometry.rows
  have := geometry.stride
  have := geometry.slice
  exact Int.mul_nonneg (by omega) (by omega)

/-- With an odd width the last sample of a chroma row is beyond what is copied. -/
theorem even_of_faithful (geometry : Geometry width height yStride sliceHeight)
    (accepted : fillNV12BufferFromNv12 cap offset width height yStride sliceHeight = true)
    (always : ∀ src old new, fillNV12Planes src cap offset width height yStride sliceHeight old = some new →
      Faithful src offset width height yStride sliceHeight new) : Even width := by
  by_contra odd
  rw [Int.even_iff] at odd
  have positive := geometry.columns
  have rows := geometry.rows
  let old : Nv12Planes := ⟨fun _ => 1, fun _ => 1⟩
  have faithful := always (fun _ => 0) old _ (if_pos accepted)
  have last := faithful.chromaV ((width - 1) / 2).toNat 0 (by omega) (by omega)
  have place : 2 * ((width - 1) / 2).toNat + 1 = width.toNat := by omega
  have beyond : width.toNat < strideUV width := by
    unfold strideUV
    omega
  rw [place] at last
  have kept : (1 : UInt8) = 0 := (copyRows_outside (Nat.le_refl _) beyond).symm.trans last
  exact absurd kept (by decide)

/-- If the size of the luma plane overflows, the chroma is taken from another place. -/
theorem fits_of_faithful (geometry : Geometry width height yStride sliceHeight)
    (accepted : fillNV12BufferFromNv12 cap offset width height yStride sliceHeight = true)
    (always : ∀ src old new, fillNV12Planes src cap offset width height yStride sliceHeight old = some new →
      Faithful src offset width height yStride sliceHeight new) : yStride * sliceHeight < 2 ^ 31 := by
  by_contra large
  have elsewhere : wrap (yStride * sliceHeight) ≠ yStride * sliceHeight := by
    have := wrap_lt (yStride * sliceHeight)
    omega
  have positive := geometry.columns
  have rows := geometry.rows
  let src : Int → UInt8 := fun i => if i = offset + yStride * sliceHeight then 1 else 0
  let old : Nv12Planes := ⟨fun _ => 0, fun _ => 0⟩
  have faithful := always src old _ (if_pos accepted)
  have first := faithful.chromaU 0 0 (by omega) (by omega)
  have there : src (offset + yStride * sliceHeight + (0 : Nat) * yStride + 2 * (0 : Nat)) = 1 := if_pos (by simp)
  have here : src (offset + wrap (yStride * sliceHeight) + (0 : Nat) * yStride + (0 : Nat)) = 0 := by
    refine if_neg ?_
    simpa using elsewhere
  have copied : (copyNv12 src offset width height yStride sliceHeight old).dataUV (0 * strideUV width + 0) = 0 := by
    unfold copyNv12
    simp only
    rcases Nat.eq_zero_or_pos (halfUp height).toNat with none | some
    · rw [none]
      rfl
    · rw [copyRows_inside (le_strideUV width) (by omega) some]
      exact here
  have same : (0 : UInt8) = 1 := copied.symm.trans (first.trans there)
  exact absurd same (by decide)

theorem copyNv12_faithful (geometry : Geometry width height yStride sliceHeight) (even : Even width)
    (fits : yStride * sliceHeight < 2 ^ 31) (src : Int → UInt8) (old : Nv12Planes) :
    Faithful src offset width height yStride sliceHeight
      (copyNv12 src offset width height yStride sliceHeight old) := by
  have pairs := Int.even_iff.mp even
  have columns := geometry.columns
  have rows := geometry.rows
  have plane : wrap (yStride * sliceHeight) = yStride * sliceHeight := wrap_of_bounds (by have := geometry.area; omega) fits
  have small : 2 * height ≤ yStride * sliceHeight :=
    Int.mul_le_mul (by have := geometry.stride; omega) geometry.slice (by omega) (by have := geometry.stride; omega)
  have uvRows : halfUp height = (height + 1) / 2 := halfUp_of_lt rows (by unfold maxInt; omega)
  have chroma (k cy : Nat) (column : k < width) (row : cy < (height + 1) / 2) :
      (copyNv12 src offset width height yStride sliceHeight old).dataUV (cy * strideUV width + k) =
        src (offset + yStride * sliceHeight + cy * yStride + k) := by
    unfold copyNv12
    simp only [plane]
    exact copyRows_inside (le_strideUV width) (by omega) (by omega)
  refine ⟨?_, ?_, ?_⟩
  · intro x y column row
    exact copyRows_inside (Nat.le_refl _) (by omega) (by omega)
  · intro cx cy column row
    simpa using chroma (2 * cx) cy (by omega) row
  · intro cx cy column row
    simpa [add_assoc] using chroma (2 * cx + 1) cy (by omega) row

/-- The copy is right if and only if the width is even and the size of the luma
plane is an `int`. -/
theorem fillNV12Planes_faithful_iff (geometry : Geometry width height yStride sliceHeight)
    (accepted : fillNV12BufferFromNv12 cap offset width height yStride sliceHeight = true) :
    (∀ src old new, fillNV12Planes src cap offset width height yStride sliceHeight old = some new →
      Faithful src offset width height yStride sliceHeight new) ↔ Even width ∧ yStride * sliceHeight < 2 ^ 31 := by
  constructor
  · intro always
    exact ⟨even_of_faithful geometry accepted always, fits_of_faithful geometry accepted always⟩
  · rintro ⟨even, fits⟩ src old new filled
    rw [fillNV12Planes_eq_some filled]
    exact copyNv12_faithful geometry even fits src old

/-- A picture of 2 by 1 in a buffer of four bytes. -/
theorem fillNV12Planes_faithful_two_by_one :
    fillNV12BufferFromNv12 4 0 2 1 2 1 = true ∧
      ∀ src old new, fillNV12Planes src 4 0 2 1 2 1 old = some new → Faithful src 0 2 1 2 1 new := by
  have accepted : fillNV12BufferFromNv12 4 0 2 1 2 1 = true := by decide
  refine ⟨accepted, (fillNV12Planes_faithful_iff ⟨by decide, by decide, by decide, by decide⟩ accepted).mpr ?_⟩
  exact ⟨by decide, by decide⟩

/-- In a picture of 1 by 1, with rows of two bytes, the V sample is not copied. -/
theorem fillNV12Planes_unfaithful_one_by_one :
    ¬ ∀ src old new, fillNV12Planes src 4 0 1 1 2 1 old = some new → Faithful src 0 1 1 2 1 new := by
  intro always
  have accepted : fillNV12BufferFromNv12 4 0 1 1 2 1 = true := by decide
  exact absurd (even_of_faithful ⟨by decide, by decide, by decide, by decide⟩ accepted always) (by decide)

end WebRtcDemo.Decoder
