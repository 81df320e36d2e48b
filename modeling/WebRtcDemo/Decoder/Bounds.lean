import WebRtcDemo.Decoder.Fill
import WebRtcDemo.Decoder.Metadata

/-! What the fill functions read of the codec's buffer. -/

namespace WebRtcDemo.Decoder

open CInt Memory

inductive FillKind
  | nv12
  | nv12Tight
  | i420
  | i420Tight
  deriving DecidableEq, Repr

/-- The arguments of a fill function; the tight ones do not take the last two. -/
structure FillCall where
  cap : Nat
  offset : Int
  width : Int
  height : Int
  yStride : Int
  sliceHeight : Int
  deriving DecidableEq, Repr

/-- What the function returns, given the result of `libyuv::NV12ToI420`. -/
def FillCall.returns (c : FillCall) (nv12ToI420 : Bool) : FillKind → Bool
  | .nv12 => fillNV12BufferFromNv12 c.cap c.offset c.width c.height c.yStride c.sliceHeight
  | .nv12Tight => fillNV12BufferFromNv12Tight c.cap c.offset c.width c.height
  | .i420 => fillI420FromNv12 c.cap c.offset c.width c.height c.yStride c.sliceHeight nv12ToI420
  | .i420Tight => fillI420FromNv12Tight c.cap c.offset c.width c.height nv12ToI420

/-- The indices that the function reads when it does not return early. The
conversion reads both samples of every chroma position. -/
def FillCall.Reads (c : FillCall) : FillKind → Int → Prop
  | .nv12, i =>
    RowRead c.offset c.yStride c.width.toNat c.height.toNat i ∨
      RowRead (c.offset + wrap (c.yStride * c.sliceHeight)) c.yStride c.width.toNat (halfUp c.height).toNat i
  | .nv12Tight, i =>
    RowRead c.offset c.width c.width.toNat c.height.toNat i ∨
      RowRead (c.offset + wrap (c.width * c.height)) c.width c.width.toNat (halfUp c.height).toNat i
  | .i420, i =>
    RowRead c.offset c.yStride c.width.toNat c.height.toNat i ∨
      RowRead (c.offset + wrap (c.yStride * c.sliceHeight)) c.yStride (strideUV c.width) ((c.height + 1) / 2).toNat i
  | .i420Tight, i =>
    RowRead c.offset c.width c.width.toNat c.height.toNat i ∨
      RowRead (c.offset + wrap (c.width * c.height)) c.width (strideUV c.width) ((c.height + 1) / 2).toNat i

/-- Whenever the function returns true it has read inside the buffer. -/
def FillCall.InBounds (c : FillCall) (kind : FillKind) : Prop :=
  ∀ nv12ToI420, c.returns nv12ToI420 kind = true → ∀ i, c.Reads kind i → 0 ≤ i ∧ i < c.cap

structure FillCall.Valid (c : FillCall) : Prop where
  geometry : Geometry c.width c.height c.yStride c.sliceHeight
  offset : 0 ≤ c.offset

/-- One and a half slices still have an `int` as their size, rounded up. -/
def FillCall.Fits (c : FillCall) : Prop := c.offset + c.yStride * (c.sliceHeight + (c.sliceHeight + 1) / 2) < 2 ^ 31

/-- What `FillI420FromNv12` compares with the capacity, and where its reads end. -/
def FillCall.checked (c : FillCall) : Int := c.offset + c.yStride * c.sliceHeight + c.yStride * (c.sliceHeight / 2)

def FillCall.needed (c : FillCall) : Int :=
  c.offset + c.yStride * c.sliceHeight + ((c.height + 1) / 2 - 1) * c.yStride + 2 * ((c.width + 1) / 2)

/-- The same for `FillI420FromNv12Tight`. -/
def FillCall.checkedTight (c : FillCall) : Int := c.offset + c.width * c.height + c.width * (c.height / 2)

def FillCall.neededTight (c : FillCall) : Int :=
  c.offset + c.width * c.height + ((c.height + 1) / 2 - 1) * c.width + 2 * ((c.width + 1) / 2)

/-- The capacity is enough for one of the two checks and not for the reads
after it. -/
def FillCall.Short (c : FillCall) : Prop :=
  c.checked ≤ c.cap ∧ c.cap < c.needed ∨ c.checkedTight ≤ c.cap ∧ c.cap < c.neededTight

instance (c : FillCall) : Decidable c.Short := inferInstanceAs (Decidable (_ ∨ _))

instance (c : FillCall) : Decidable c.Fits := inferInstanceAs (Decidable (_ < _))

/-! Without overflow the checks are those of the integers. -/

theorem wrap_le {x : Int} (low : 0 ≤ x) : wrap x ≤ x := by
  unfold wrap
  rw [Int.bmod_def]
  split <;> omega

/-- The sizes that the checks compute, in order. -/
structure Sizes (c : FillCall) : Prop where
  plane : 0 ≤ c.yStride * c.sliceHeight
  half : 0 ≤ c.yStride * (c.sliceHeight / 2) ∧
    c.yStride * (c.sliceHeight / 2) ≤ c.yStride * ((c.sliceHeight + 1) / 2)
  rows : 0 ≤ c.yStride * ((c.height + 1) / 2) ∧
    c.yStride * ((c.height + 1) / 2) ≤ c.yStride * ((c.sliceHeight + 1) / 2)
  tightPlane : 0 ≤ c.width * c.height ∧ c.width * c.height ≤ c.yStride * c.sliceHeight
  tightHalf : 0 ≤ c.width * (c.height / 2) ∧ c.width * (c.height / 2) ≤ c.width * ((c.height + 1) / 2)
  tightRows : c.width * ((c.height + 1) / 2) ≤ c.yStride * ((c.sliceHeight + 1) / 2)
  total : c.offset + c.yStride * c.sliceHeight + c.yStride * ((c.sliceHeight + 1) / 2) < 2 ^ 31
  uvRows : halfUp c.height = (c.height + 1) / 2

variable {c : FillCall}

theorem FillCall.Valid.sizes (valid : c.Valid) (fits : c.Fits) : Sizes c := by
  obtain ⟨⟨columns, rows, stride, slice⟩, offset⟩ := valid
  have plane : 0 ≤ c.yStride * c.sliceHeight := Int.mul_nonneg (by omega) (by omega)
  have total : c.offset + c.yStride * c.sliceHeight + c.yStride * ((c.sliceHeight + 1) / 2) < 2 ^ 31 := by
    rw [FillCall.Fits, Int.mul_add] at fits
    omega
  have slices : 1 * ((c.sliceHeight + 1) / 2) ≤ c.yStride * ((c.sliceHeight + 1) / 2) :=
    Int.mul_le_mul_of_nonneg_right (by omega) (by omega)
  have lines : 1 * c.sliceHeight ≤ c.yStride * c.sliceHeight := Int.mul_le_mul_of_nonneg_right (by omega) (by omega)
  refine ⟨plane, ⟨Int.mul_nonneg (by omega) (by omega), Int.mul_le_mul_of_nonneg_left (by omega) (by omega)⟩,
    ⟨Int.mul_nonneg (by omega) (by omega), Int.mul_le_mul_of_nonneg_left (by omega) (by omega)⟩,
    ⟨Int.mul_nonneg (by omega) (by omega), Int.mul_le_mul stride slice (by omega) (by omega)⟩,
    ⟨Int.mul_nonneg (by omega) (by omega), Int.mul_le_mul_of_nonneg_left (by omega) (by omega)⟩,
    Int.mul_le_mul stride (by omega) (by omega) (by omega), total, ?_⟩
  exact halfUp_of_lt rows (by unfold maxInt; omega)

theorem check_iff {size cap : Int} {ok : Bool} : (if size > cap then false else ok) = true ↔ ok = true ∧ size ≤ cap := by
  by_cases large : size > cap
  · rw [if_pos large]
    simp [large]
  · rw [if_neg large]
    simp [Int.not_lt.mp large]

section checks
variable (valid : c.Valid) (fits : c.Fits)
include valid fits

theorem returns_nv12 (ok : Bool) : c.returns ok .nv12 = true ↔
    c.offset + c.yStride * c.sliceHeight + c.yStride * ((c.height + 1) / 2) ≤ wrap c.cap := by
  obtain ⟨plane, half, rows, tightPlane, tightHalf, tightRows, total, uvRows⟩ := valid.sizes fits
  obtain ⟨⟨columns, lines, stride, slice⟩, offset⟩ := valid
  simp only [FillCall.returns, fillNV12BufferFromNv12]
  rw [if_neg (by omega), uvRows, decide_eq_true_eq, (wrap_sum offset plane rows.1 (by omega)).1]

theorem returns_nv12Tight (ok : Bool) : c.returns ok .nv12Tight = true ↔
    c.offset + (c.width * c.height + c.width * ((c.height + 1) / 2)) ≤ wrap c.cap := by
  obtain ⟨plane, half, rows, tightPlane, tightHalf, tightRows, total, uvRows⟩ := valid.sizes fits
  obtain ⟨⟨columns, lines, stride, slice⟩, offset⟩ := valid
  simp only [FillCall.returns, fillNV12BufferFromNv12Tight]
  rw [if_neg (by omega), if_neg (by omega), uvRows, decide_eq_true_eq,
    (wrap_sum offset tightPlane.1 (by omega) (by omega)).2]

theorem returns_i420 (ok : Bool) : c.returns ok .i420 = true ↔ ok = true ∧ c.checked ≤ wrap c.cap := by
  obtain ⟨plane, half, rows, tightPlane, tightHalf, tightRows, total, uvRows⟩ := valid.sizes fits
  obtain ⟨⟨columns, lines, stride, slice⟩, offset⟩ := valid
  have halves : c.sliceHeight.tdiv 2 = c.sliceHeight / 2 := Int.tdiv_eq_ediv_of_nonneg (by omega)
  simp only [FillCall.returns, fillI420FromNv12, halves]
  rw [if_neg (by omega), (wrap_sum offset plane half.1 (by omega)).1]
  exact check_iff

theorem returns_i420Tight (ok : Bool) : c.returns ok .i420Tight = true ↔ ok = true ∧ c.checkedTight ≤ wrap c.cap := by
  obtain ⟨plane, half, rows, tightPlane, tightHalf, tightRows, total, uvRows⟩ := valid.sizes fits
  obtain ⟨⟨columns, lines, stride, slice⟩, offset⟩ := valid
  have halves : c.height.tdiv 2 = c.height / 2 := Int.tdiv_eq_ediv_of_nonneg (by omega)
  simp only [FillCall.returns, fillI420FromNv12Tight, halves]
  rw [if_neg (by omega), (wrap_sum offset tightPlane.1 tightHalf.1 (by omega)).2, ← Int.add_assoc]
  have checks : ¬ c.offset < 0 := by omega
  simp only [checks, false_or]
  exact check_iff

end checks

/-! The reads. -/

/-- A copy of the rows as they are wide, when the check counts them all. -/
theorem inBounds_of_rows {kind : FillKind} {stride plane : Int} (valid : c.Valid) (wide : c.width ≤ stride)
    (above : c.height * stride ≤ plane)
    (returns : ∀ ok, c.returns ok kind = true → c.offset + plane + stride * ((c.height + 1) / 2) ≤ wrap c.cap)
    (reads : ∀ i, c.Reads kind i → RowRead c.offset stride c.width.toNat c.height.toNat i ∨
      RowRead (c.offset + plane) stride c.width.toNat ((c.height + 1) / 2).toNat i) : c.InBounds kind := by
  obtain ⟨⟨columns, lines, _, _⟩, offset⟩ := valid
  have area : 0 ≤ c.height * stride := Int.mul_nonneg (by omega) (by omega)
  have chroma : 0 ≤ stride * ((c.height + 1) / 2) := Int.mul_nonneg (by omega) (by omega)
  intro ok returned i read
  have room := returns ok returned
  have capacity := wrap_le (x := c.cap) (by omega)
  rcases reads i read with luma | uv
  · have inside := luma.inside (by omega)
    rw [Int.toNat_of_nonneg (by omega)] at inside
    omega
  · have inside := uv.inside (by omega)
    rw [Int.toNat_of_nonneg (by omega), Int.mul_comm] at inside
    omega

/-- The conversion reads one row more than a check that rounds down counts, and
one byte more than an odd width. -/
theorem inBounds_iff_of_conversion {kind : FillKind} {stride plane checked : Int} (valid : c.Valid)
    (wide : c.width ≤ stride) (above : c.height * stride ≤ plane)
    (small : c.offset + plane + ((c.height + 1) / 2 - 1) * stride + 2 * ((c.width + 1) / 2) ≤ 2 ^ 31)
    (returns : ∀ ok, c.returns ok kind = true ↔ ok = true ∧ checked ≤ wrap c.cap)
    (reads : ∀ i, c.Reads kind i ↔ RowRead c.offset stride c.width.toNat c.height.toNat i ∨
      RowRead (c.offset + plane) stride (strideUV c.width) ((c.height + 1) / 2).toNat i) :
    c.InBounds kind ↔ ¬ (checked ≤ c.cap ∧
      c.cap < c.offset + plane + ((c.height + 1) / 2 - 1) * stride + 2 * ((c.width + 1) / 2)) := by
  obtain ⟨⟨columns, lines, _, _⟩, offset⟩ := valid
  have area : 0 ≤ c.height * stride := Int.mul_nonneg (by omega) (by omega)
  have rows : (((c.height + 1) / 2).toNat : Int) = (c.height + 1) / 2 := Int.toNat_of_nonneg (by omega)
  have row : (strideUV c.width : Int) = 2 * ((c.width + 1) / 2) := Int.toNat_of_nonneg (by omega)
  have chroma : 0 ≤ ((c.height + 1) / 2 - 1) * stride := Int.mul_nonneg (by omega) (by omega)
  constructor
  · rintro inside ⟨enough, short⟩
    have passes : checked ≤ wrap c.cap := by
      rw [wrap_of_bounds (by omega) (by omega)]
      exact enough
    have last : RowRead (c.offset + plane) stride (strideUV c.width) ((c.height + 1) / 2).toNat _ :=
      .last (by omega) (by omega)
    have bound := inside true ((returns true).mpr ⟨rfl, passes⟩) _ ((reads _).mpr (.inr last))
    rw [rows, row] at bound
    clear passes
    omega
  · intro enough ok returned i read
    have passes : checked ≤ c.cap := ((returns ok).mp returned).2.trans (wrap_le (by omega))
    rcases (reads i).mp read with luma | uv
    · have inside := luma.inside (by omega)
      rw [Int.toNat_of_nonneg (by omega)] at inside
      omega
    · have inside := uv.bounds (by omega)
      rw [rows, row] at inside
      omega

theorem FillCall.Valid.rows_le (valid : c.Valid) : c.height * c.yStride ≤ c.yStride * c.sliceHeight := by
  obtain ⟨⟨columns, _, stride, slice⟩, _⟩ := valid
  rw [Int.mul_comm]
  exact Int.mul_le_mul_of_nonneg_left slice (by omega)

section fills
variable (valid : c.Valid) (fits : c.Fits)
include valid fits

/-- No size that a check computes overflows. -/
theorem FillCall.planes_wrap :
    wrap (c.yStride * c.sliceHeight) = c.yStride * c.sliceHeight ∧ wrap (c.width * c.height) = c.width * c.height := by
  have sizes := valid.sizes fits
  obtain ⟨plane, _, rows, tightPlane, _, _, total, _⟩ := sizes
  have offset := valid.offset
  exact ⟨wrap_of_bounds (by omega) (by omega), wrap_of_bounds (by omega) (by omega)⟩

theorem inBounds_nv12 : c.InBounds .nv12 := by
  obtain ⟨plane, _⟩ := FillCall.planes_wrap valid fits
  have uvRows := (valid.sizes fits).uvRows
  refine inBounds_of_rows valid valid.geometry.stride valid.rows_le
    (fun ok => (returns_nv12 valid fits ok).mp) fun i read => ?_
  simp only [FillCall.Reads, plane, uvRows] at read
  exact read

theorem inBounds_nv12Tight : c.InBounds .nv12Tight := by
  obtain ⟨_, plane⟩ := FillCall.planes_wrap valid fits
  have uvRows := (valid.sizes fits).uvRows
  refine inBounds_of_rows valid (Int.le_refl c.width) (Int.mul_comm c.height c.width).le (fun ok returned => ?_)
    fun i read => ?_
  · have room := (returns_nv12Tight valid fits ok).mp returned
    rw [← Int.add_assoc] at room
    exact room
  · simp only [FillCall.Reads, plane, uvRows] at read
    exact read

theorem inBounds_i420_iff : c.InBounds .i420 ↔ ¬ (c.checked ≤ c.cap ∧ c.cap < c.needed) := by
  obtain ⟨plane, _⟩ := FillCall.planes_wrap valid fits
  have sizes := valid.sizes fits
  refine inBounds_iff_of_conversion valid valid.geometry.stride valid.rows_le ?_
    (returns_i420 valid fits) fun i => ?_
  · have rows := sizes.rows
    have total := sizes.total
    have stride := valid.geometry.stride
    have columns := valid.geometry.columns
    rw [Int.sub_mul, Int.one_mul, Int.mul_comm ((c.height + 1) / 2)]
    omega
  · simp only [FillCall.Reads, plane]

theorem inBounds_i420Tight_iff : c.InBounds .i420Tight ↔ ¬ (c.checkedTight ≤ c.cap ∧ c.cap < c.neededTight) := by
  obtain ⟨_, plane⟩ := FillCall.planes_wrap valid fits
  have sizes := valid.sizes fits
  refine inBounds_iff_of_conversion valid (Int.le_refl _) (Int.mul_comm _ _).le ?_ (returns_i420Tight valid fits)
    fun i => ?_
  · obtain ⟨_, _, _, tightPlane, _, tightRows, total, _⟩ := sizes
    have columns := valid.geometry.columns
    rw [Int.sub_mul, Int.one_mul, Int.mul_comm ((c.height + 1) / 2)]
    omega
  · simp only [FillCall.Reads, plane]

theorem forall_inBounds_iff : (∀ kind, c.InBounds kind) ↔ ¬ c.Short := by
  rw [FillCall.Short, not_or, ← inBounds_i420_iff valid fits, ← inBounds_i420Tight_iff valid fits]
  constructor
  · intro inside
    exact ⟨inside .i420, inside .i420Tight⟩
  · rintro ⟨converted, convertedTight⟩ kind
    cases kind with
    | nv12 => exact inBounds_nv12 valid fits
    | nv12Tight => exact inBounds_nv12Tight valid fits
    | i420 => exact converted
    | i420Tight => exact convertedTight

end fills

/-! The copies of a run. -/

/-- A copy that `DrainOutputs` makes: the decoder and the buffer at the time. -/
structure OutputCopy where
  impl : Impl
  buffer : OutputBuffer
  cap : Nat

def OutputCopy.call (c : OutputCopy) : FillCall :=
  ⟨c.cap, c.buffer.offset, c.impl.outWidth, c.impl.outHeight, c.impl.yStride, c.impl.sliceHeight⟩

def OutputCopy.delivered (c : OutputCopy) : Bool := (copyOutput c.impl c.buffer c.cap).2

/-- The function that returned true first. -/
def OutputCopy.filledBy (c : OutputCopy) : Option FillKind :=
  if c.buffer.nv12Created ∧ c.call.returns c.buffer.nv12ToI420 .nv12 then some .nv12
  else if c.buffer.nv12Created ∧ c.call.returns c.buffer.nv12ToI420 .nv12Tight then some .nv12Tight
  else if c.call.returns c.buffer.nv12ToI420 .i420 then some .i420
  else if c.call.returns c.buffer.nv12ToI420 .i420Tight then some .i420Tight
  else none

/-- A byte that the delivered frame is built from. -/
def OutputCopy.BuiltFrom (c : OutputCopy) (i : Int) : Prop := ∃ kind, c.filledBy = some kind ∧ c.call.Reads kind i

def outputCopies (s : Impl) (b : OutputBuffer) : List OutputCopy :=
  if 0 < b.size ∧ 0 < s.outWidth ∧ 0 < s.outHeight ∧ s.callback ∧ isNv12FamilyOutput s.colorFormat then
    match b.cap with
    | none => []
    | some cap => if wrapSize (toSize b.offset + toSize b.size) ≤ cap then [⟨s, b, cap⟩] else []
  else []

def drainCopies : Impl → List OutputResponse → List OutputCopy
  | _, [] => []
  | s, .formatChanged fmt :: rest => drainCopies (refreshOutputFormat s fmt) rest
  | s, .buffersChanged fmt :: rest => drainCopies (refreshOutputFormat s fmt) rest
  | _, .tryAgainLater :: _ => []
  | _, .error :: _ => []
  | s, .buffer b :: rest =>
    let s := if 0 < b.size ∧ (s.outWidth ≤ 0 ∨ s.outHeight ≤ 0) then refreshOutputFormat s b.format else s
    outputCopies s b ++ drainCopies (deliverOutput s b).1 rest

/-- The copies of one call, in the drains that it makes. -/
def frameCopies (s : Impl) (frame : EncodedFrame) (script : CodecScript) : List OutputCopy :=
  if s.codec = false ∨ frame.data = [] ∨ feedOf frame.data = [] then []
  else match script.dequeueInput with
    | none => drainCopies s script.drain0
    | some _ =>
      if tooSmall script.inputCap (feedOf frame.data).length ∨ script.queueInputOk = false then []
      else
        let s := { s with nextInputPtsUs := s.nextInputPtsUs + 1 }
        drainCopies s script.drain0 ++ drainCopies (drainOutputs frame.metadata s script.drain0).1 script.drain1

def eventCopies (s : DecoderState) : DecoderEvent → List OutputCopy
  | .processOneFrame frame script => frameCopies s.impl frame script
  | .registerDecodeCompleteCallback _ => []

theorem deliverOutput_copies (s : Impl) (b : OutputBuffer) :
    (if (deliverOutput s b).2 then 1 else 0) = ((outputCopies s b).filter OutputCopy.delivered).length := by
  unfold deliverOutput outputCopies
  split
  · cases b.cap with
    | none => rfl
    | some cap =>
      simp only
      split
      · simp only [List.filter_cons, List.filter_nil, OutputCopy.delivered]
        by_cases ok : (copyOutput s b cap).2 = true <;> simp [ok]
      · rfl
  · rfl

/-- The delivered frames of a drain are those of its copies. -/
theorem drainCopies_delivered (m : FrameMeta) (s : Impl) (responses : List OutputResponse) :
    (drainOutputs m s responses).2.2 = ((drainCopies s responses).filter OutputCopy.delivered).length := by
  induction responses generalizing s with
  | nil => rfl
  | cons r rest ih =>
    cases r with
    | formatChanged fmt => exact ih (refreshOutputFormat s fmt)
    | buffersChanged fmt => exact ih (refreshOutputFormat s fmt)
    | tryAgainLater => rfl
    | error => rfl
    | buffer b =>
      simp only [drainOutputs, drainCopies, List.filter_append, List.length_append, ← deliverOutput_copies, ih]
      exact Nat.add_comm _ _

/-- A frame is only delivered when one of the functions returned true. -/
theorem filledBy_of_delivered {c : OutputCopy} (delivered : c.delivered = true) : ∃ kind, c.filledBy = some kind := by
  rw [← Option.isSome_iff_exists]
  unfold OutputCopy.filledBy
  split
  · rfl
  rename_i nv12
  split
  · rfl
  rename_i nv12Tight
  split
  · rfl
  rename_i i420
  split
  · rfl
  rename_i i420Tight
  simp only [FillCall.returns, OutputCopy.call] at nv12 nv12Tight i420 i420Tight
  unfold OutputCopy.delivered copyOutput at delivered
  rw [if_neg] at delivered
  · simp [i420, i420Tight] at delivered
  · rintro ⟨created, strided | packed⟩
    · exact nv12 ⟨created, strided⟩
    · exact nv12Tight ⟨created, packed⟩

theorem returns_of_filledBy {c : OutputCopy} {kind : FillKind} (filled : c.filledBy = some kind) :
    c.call.returns c.buffer.nv12ToI420 kind = true := by
  unfold OutputCopy.filledBy at filled
  split at filled
  · rename_i returned
    cases filled
    exact returned.2
  split at filled
  · rename_i returned
    cases filled
    exact returned.2
  split at filled
  · cases filled
    assumption
  split at filled
  · cases filled
    assumption
  · cases filled

/-! The strides of a run. -/

/-- Rows are as wide as the picture at least, and slices as high. -/
def Shaped (s : Impl) : Prop := s.outWidth ≤ s.yStride ∧ s.outHeight ≤ s.sliceHeight

theorem updateOutputFormat_shaped (s : Impl) (fmt : OutputFormat) : Shaped (updateOutputFormat s fmt) := by
  unfold updateOutputFormat Shaped
  simp only
  constructor
  · split
    · split <;> omega
    · exact Int.le_refl _
  · split
    · split <;> omega
    · exact Int.le_refl _

theorem Shaped.refresh {s : Impl} (shaped : Shaped s) (fmt : Option OutputFormat) : Shaped (refreshOutputFormat s fmt) := by
  unfold refreshOutputFormat
  split
  · split
    · exact shaped
    · exact updateOutputFormat_shaped s _
  · exact shaped

theorem Shaped.deliver {s : Impl} (shaped : Shaped s) (b : OutputBuffer) : Shaped (deliverOutput s b).1 := by
  unfold deliverOutput copyOutput
  split
  · split
    · exact shaped
    split
    · split <;> exact shaped
    · exact shaped
  · exact shaped

/-- What a copy finds: a picture of at least one pixel in rows of its width. -/
theorem outputCopies_shaped {s : Impl} (shaped : Shaped s) {b : OutputBuffer} {c : OutputCopy}
    (copy : c ∈ outputCopies s b) : Shaped c.impl ∧ 0 < c.impl.outWidth ∧ 0 < c.impl.outHeight := by
  unfold outputCopies at copy
  split at copy
  · rename_i picture
    cases made : b.cap with
    | none =>
      rw [made] at copy
      cases copy
    | some cap =>
      simp only [made] at copy
      split at copy
      · cases List.mem_singleton.mp copy
        exact ⟨shaped, picture.2.1, picture.2.2.1⟩
      · cases copy
  · cases copy

theorem drain_shaped (m : FrameMeta) {s : Impl} (shaped : Shaped s) (responses : List OutputResponse) :
    Shaped (drainOutputs m s responses).1 ∧
      ∀ c ∈ drainCopies s responses, Shaped c.impl ∧ 0 < c.impl.outWidth ∧ 0 < c.impl.outHeight := by
  induction responses generalizing s with
  | nil => exact ⟨shaped, by simp [drainCopies]⟩
  | cons r rest ih =>
    cases r with
    | formatChanged fmt => exact ih (shaped.refresh fmt)
    | buffersChanged fmt => exact ih (shaped.refresh fmt)
    | tryAgainLater => exact ⟨shaped, by simp [drainCopies]⟩
    | error => exact ⟨shaped, by simp [drainCopies]⟩
    | buffer b =>
      simp only [drainOutputs, drainCopies]
      generalize atStart : (if 0 < b.size ∧ (s.outWidth ≤ 0 ∨ s.outHeight ≤ 0) then refreshOutputFormat s b.format
        else s) = u
      have start : Shaped u := by
        rw [← atStart]
        split
        · exact shaped.refresh b.format
        · exact shaped
      obtain ⟨after, later⟩ := ih (start.deliver b)
      exact ⟨after, List.forall_mem_append.mpr ⟨fun c => outputCopies_shaped start, later⟩⟩

theorem frame_shaped {s : Impl} (shaped : Shaped s) (frame : EncodedFrame) (script : CodecScript) :
    Shaped (processOneFrame s frame script).1 ∧
      ∀ c ∈ frameCopies s frame script, Shaped c.impl ∧ 0 < c.impl.outWidth ∧ 0 < c.impl.outHeight := by
  have queued : Shaped { s with nextInputPtsUs := s.nextInputPtsUs + 1 } := shaped
  have first := drain_shaped frame.metadata shaped script.drain0
  have early := drain_shaped frame.metadata queued script.drain0
  have late := drain_shaped frame.metadata early.1 script.drain1
  constructor
  · unfold processOneFrame
    split
    · exact shaped
    simp only
    split
    · exact shaped
    split
    · exact first.1
    split
    · exact shaped
    split
    · exact late.1
    · exact shaped
  · unfold frameCopies
    split
    · simp
    split
    · exact first.2
    split
    · simp
    · exact List.forall_mem_append.mpr ⟨early.2, late.2⟩

theorem reach_shaped {fmt : Option OutputFormat} {s : DecoderState} {log : List CodecAction}
    (reach : (decoder fmt).Reach Machine.Always s log) : Shaped s.impl := by
  refine reach.invariant (P := fun s _ => Shaped s.impl) ?_ ?_
  · have start : Shaped ⟨true, false, 0, 0, 0, 0, 0, 0, initialPool⟩ := ⟨Int.le_refl _, Int.le_refl _⟩
    exact start.refresh fmt
  · intro s log e t out shaped _ run
    cases e with
    | processOneFrame frame script =>
      simp only [decoder, decoderStep, Option.map_eq_some_iff, Prod.mk.injEq] at run
      obtain ⟨inside, _, rfl, _⟩ := run
      exact (frame_shaped shaped frame script).1
    | registerDecodeCompleteCallback callback =>
      cases run
      exact shaped

/-- Every copy of a run is a valid call of the fill functions. -/
theorem reach_valid {fmt : Option OutputFormat} {s : DecoderState} {log : List CodecAction}
    (reach : (decoder fmt).Reach Machine.Always s log) {e : DecoderEvent} {c : OutputCopy} (copy : c ∈ eventCopies s e)
    (offset : 0 ≤ c.buffer.offset) : c.call.Valid := by
  cases e with
  | processOneFrame frame script =>
    obtain ⟨⟨stride, slice⟩, columns, rows⟩ := (frame_shaped (reach_shaped reach) frame script).2 c copy
    exact ⟨⟨columns, rows, stride, slice⟩, offset⟩
  | registerDecodeCompleteCallback callback => cases copy

/-- The fill functions read inside the buffer, on valid arguments whose sizes
do not overflow, if and only if the capacity is not short for the conversion;
and then every frame that a run delivers is built from bytes of its buffer. -/
theorem fills_inBounds {c : FillCall} (fits : c.Fits) :
    (c.Valid → ((∀ kind, c.InBounds kind) ↔ ¬ c.Short)) ∧
      (¬ c.Short → ∀ fmt s log, (decoder fmt).Reach Machine.Always s log → ∀ e, ∀ copy ∈ eventCopies s e,
        copy.call = c → 0 ≤ copy.buffer.offset → copy.delivered = true →
          (∃ kind, copy.filledBy = some kind) ∧ ∀ i, copy.BuiltFrom i → 0 ≤ i ∧ i < copy.cap) := by
  refine ⟨fun valid => forall_inBounds_iff valid fits, ?_⟩
  rintro enough fmt s log reach e copy member rfl offset delivered
  have inside := (forall_inBounds_iff (reach_valid reach member offset) fits).mpr enough
  refine ⟨filledBy_of_delivered delivered, ?_⟩
  rintro i ⟨kind, filled, read⟩
  exact inside kind _ (returns_of_filledBy filled) i read

/-- A picture of 2 by 1 in four bytes, delivered by a drain. -/
theorem fills_inBounds_two_by_one :
    ∃ fmt s log e c, (decoder fmt).Reach Machine.Always s log ∧ c ∈ eventCopies s e ∧ c.delivered = true ∧ c.call.Fits ∧
      ¬ c.call.Short ∧ (∀ kind, c.call.InBounds kind) ∧ ∀ i, c.BuiltFrom i → 0 ≤ i ∧ i < c.cap := by
  have reach : (decoder (some ⟨some 2, some 1, some 21, none, none, none⟩)).Reach Machine.Always
      ⟨⟨true, true, 2, 1, 2, 1, 21, 0, initialPool⟩, []⟩ [] :=
    .ofExec _ [.registerDecodeCompleteCallback true] rfl (Machine.meets_always _ _)
  have copies : eventCopies ⟨⟨true, true, 2, 1, 2, 1, 21, 0, initialPool⟩, []⟩
      (.processOneFrame ⟨[0, 0, 0, 1, 101], ⟨10, 1000, some 7⟩, true⟩
        ⟨some 0, some 64, true, [.buffer ⟨0, 0, 4, 0, some 4, none, true, true, true⟩], []⟩) =
      [⟨⟨true, true, 2, 1, 2, 1, 21, 1, initialPool⟩, ⟨0, 0, 4, 0, some 4, none, true, true, true⟩, 4⟩] := rfl
  have member := List.mem_singleton_self (OutputCopy.mk ⟨true, true, 2, 1, 2, 1, 21, 1, initialPool⟩
    ⟨0, 0, 4, 0, some 4, none, true, true, true⟩ 4)
  rw [← copies] at member
  refine ⟨_, _, _, _, _, reach, member, by decide, by decide, by decide, ?_, ?_⟩
  · exact ((fills_inBounds (by decide)).1 ⟨⟨by decide, by decide, by decide, by decide⟩, by decide⟩).mpr (by decide)
  · exact ((fills_inBounds (by decide)).2 (by decide) _ _ _ reach _ _ member rfl (by decide) (by decide)).2

/-- A picture of 2 by 1 whose chroma row is missing: two bytes are enough for
the check, which counts no chroma row. -/
theorem fills_not_inBounds : ¬ ∀ c : FillCall, c.Valid → ∀ kind, c.InBounds kind := by
  intro always
  have valid : FillCall.Valid ⟨2, 0, 2, 1, 2, 1⟩ := ⟨⟨by decide, by decide, by decide, by decide⟩, by decide⟩
  exact absurd ((inBounds_i420_iff valid (by decide)).mp (always _ valid .i420)) (by decide)

end WebRtcDemo.Decoder
