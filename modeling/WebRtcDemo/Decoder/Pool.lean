import WebRtcDemo.Lib.Machine
import WebRtcDemo.Lib.CInt

namespace WebRtcDemo.Decoder

open CInt

def kPoolSlots : Nat := 6

/-- Strides and offsets of a picture in one block of memory. -/
structure Layout where
  width : Int
  height : Int
  strideY : Int
  strideU : Int
  strideV : Int
  offU : Nat
  offV : Nat
  deriving DecidableEq, Repr

/-- A block from `new uint8_t[bytes]`; every allocation has its own `id`. -/
structure Mem where
  id : Nat
  bytes : Nat
  deriving DecidableEq, Repr

/-- `I420PoolSlot`. `current` is not in the code: the number of the latest
acquisition of the slot since the pool was last cleared. -/
structure I420PoolSlot where
  mem : Option Mem
  layout : Layout
  free : Bool
  current : Option Nat
  deriving DecidableEq, Repr

/-- `PooledI420`, with the number of its acquisition. `flag` points into the
slot with this index. -/
structure PooledI420 where
  number : Nat
  mem : Mem
  layout : Layout
  flag : Fin kPoolSlots
  deriving DecidableEq, Repr

structure PoolResult where
  layout : Layout
  mem : Mem
  flag : Fin kPoolSlots

structure PoolState where
  pool : Fin kPoolSlots → I420PoolSlot
  live : List PooledI420
  acquired : Nat
  allocated : Nat

/-- `converted` is whether one of the two fill functions succeeded. -/
inductive PoolEvent
  | acquire (w h : Positive) (converted : Bool)
  | destroy (number : Nat)
  | clearPool
  deriving DecidableEq

def PoolState.setSlot (s : PoolState) (i : Fin kPoolSlots) (slot : I420PoolSlot) : PoolState :=
  { s with pool := Function.update s.pool i slot }

/-- `flag->store(true)` -/
def PoolState.setFree (s : PoolState) (i : Fin kPoolSlots) : PoolState :=
  s.setSlot i { s.pool i with free := true }

/-- `(x + 1) / 2` in `int` arithmetic. -/
def halfUp (x : Int) : Int := (wrap (x + 1)).tdiv 2

/-- The layout computed for a new slot, and the number of bytes allocated. -/
def layoutFor (w h : Int) : Layout × Nat :=
  let sy := w
  let su := halfUp w
  let sv := su
  let hh := halfUp h
  let ou := wrapSize (toSize sy * toSize h)
  let ov := wrapSize (ou + wrapSize (toSize su * toSize hh))
  let total := wrapSize (ov + wrapSize (toSize sv * toSize hh))
  (⟨w, h, sy, su, sv, ou, ov⟩, total)

/-- The first loop of `AcquirePoolSlot`. -/
def findMatching (s : PoolState) (w h : Int) : Option (Fin kPoolSlots × Mem) :=
  (List.finRange kPoolSlots).findSome? fun i =>
    if (s.pool i).free ∧ (s.pool i).layout.width = w ∧ (s.pool i).layout.height = h then
      (s.pool i).mem.map fun mem => (i, mem)
    else none

/-- The second loop of `AcquirePoolSlot`. -/
def findFree (s : PoolState) : Option (Fin kPoolSlots) :=
  (List.finRange kPoolSlots).find? fun i => (s.pool i).free

/-- An allocation that throws ends the worker thread and is no step here. -/
def acquirePoolSlot (s : PoolState) (w h : Int) : Option (PoolState × PoolResult) :=
  match findMatching s w h with
  | some (i, mem) =>
    some ({ s.setSlot i { s.pool i with free := false, current := some s.acquired } with acquired := s.acquired + 1 },
      ⟨(s.pool i).layout, mem, i⟩)
  | none =>
    match findFree s with
    | none => none
    | some i =>
      let (layout, total) := layoutFor w h
      let mem : Mem := ⟨s.allocated, total⟩
      some ({ s.setSlot i ⟨some mem, layout, false, some s.acquired⟩ with
          acquired := s.acquired + 1, allocated := s.allocated + 1 },
        ⟨layout, mem, i⟩)

/-- The I420 path of `DrainOutputs`: wrap the slot, or give its flag back. -/
def acquire (s : PoolState) (w h : Int) (converted : Bool) : PoolState :=
  match acquirePoolSlot s w h with
  | none => s
  | some (t, pr) =>
    if converted then { t with live := t.live ++ [⟨s.acquired, pr.mem, pr.layout, pr.flag⟩] }
    else t.setFree pr.flag

/-- `~PooledI420` -/
def destroy (s : PoolState) (frame : PooledI420) : PoolState :=
  { s.setFree frame.flag with live := s.live.filter (·.number ≠ frame.number) }

def clearPool (s : PoolState) : PoolState :=
  { s with pool := fun i =>
      { s.pool i with
        mem := none, layout := { (s.pool i).layout with width := 0, height := 0 }, free := true, current := none } }

def poolStep (s : PoolState) : PoolEvent → Option (PoolState × List Empty)
  | .acquire w h converted => some (acquire s w h converted, [])
  | .destroy number => (s.live.find? (·.number = number)).map fun frame => (destroy s frame, [])
  | .clearPool => some (clearPool s, [])

def initialPool : PoolState where
  pool := fun _ => ⟨none, ⟨0, 0, 0, 0, 0, 0, 0⟩, true, none⟩
  live := []
  acquired := 0
  allocated := 0

def i420Pool : Machine PoolState PoolEvent Empty := ⟨initialPool, poolStep⟩

/-! The planes of a layout. -/

def Inside (start : Nat) (size : Int) (bytes : Nat) : Prop := 0 ≤ size ∧ start + size ≤ bytes

def Apart (a : Nat) (m : Int) (b : Nat) (n : Int) : Prop := a + m ≤ b ∨ b + n ≤ a

instance (start : Nat) (size : Int) (bytes : Nat) : Decidable (Inside start size bytes) :=
  inferInstanceAs (Decidable (0 ≤ size ∧ start + size ≤ bytes))

instance (a : Nat) (m : Int) (b : Nat) (n : Int) : Decidable (Apart a m b n) :=
  inferInstanceAs (Decidable (a + m ≤ b ∨ b + n ≤ a))

/-- Rows of a chroma plane. -/
def Layout.chromaHeight (l : Layout) : Int := (l.height + 1) / 2

/-- The three planes are inside the allocation and do not overlap. -/
def Planes (l : Layout) (bytes : Nat) : Prop :=
  Inside 0 (l.strideY * l.height) bytes ∧
    Inside l.offU (l.strideU * l.chromaHeight) bytes ∧
    Inside l.offV (l.strideV * l.chromaHeight) bytes ∧
    Apart 0 (l.strideY * l.height) l.offU (l.strideU * l.chromaHeight) ∧
    Apart 0 (l.strideY * l.height) l.offV (l.strideV * l.chromaHeight) ∧
    Apart l.offU (l.strideU * l.chromaHeight) l.offV (l.strideV * l.chromaHeight)

instance (l : Layout) (bytes : Nat) : Decidable (Planes l bytes) := by
  unfold Planes
  infer_instance

theorem halfUp_of_lt {x : Int} (pos : 0 < x) (lt : x < maxInt) : halfUp x = (x + 1) / 2 := by
  unfold maxInt at lt
  unfold halfUp
  rw [wrap_of_bounds (by omega) (by omega), Int.tdiv_eq_ediv_of_nonneg (by omega)]

theorem halfUp_maxInt : halfUp maxInt = -2 ^ 30 := by
  decide

/-- Offsets and size of the allocation are right modulo `2 ^ 64`. -/
theorem layoutFor_cast (w h : Int) :
    ((layoutFor w h).1.offU : Int) = w * h % 2 ^ 64 ∧
      ((layoutFor w h).1.offV : Int) = (w * h + halfUp w * halfUp h) % 2 ^ 64 ∧
      ((layoutFor w h).2 : Int) = (w * h + halfUp w * halfUp h + halfUp w * halfUp h) % 2 ^ 64 := by
  have luma := cast_wrapSize_mul w h
  have chroma := cast_wrapSize_mul (halfUp w) (halfUp h)
  have offV := cast_wrapSize_add luma chroma
  exact ⟨luma, offV, cast_wrapSize_add offV chroma⟩

/-- With the largest width the chroma stride is negative. -/
theorem not_planes_of_width {h : Int} (pos : 0 < h) : ¬ Planes (layoutFor maxInt h).1 (layoutFor maxInt h).2 := by
  rintro ⟨_, ⟨size, _⟩, _⟩
  have stride : (layoutFor maxInt h).1.strideU = -2 ^ 30 := halfUp_maxInt
  have rows : (layoutFor maxInt h).1.chromaHeight = (h + 1) / 2 := rfl
  rw [stride, rows] at size
  omega

/-- With the largest height the V plane starts inside the Y plane. -/
theorem not_planes_of_height {w : Int} (pos : 0 < w) (lt : w < maxInt) :
    ¬ Planes (layoutFor w maxInt).1 (layoutFor w maxInt).2 := by
  rintro ⟨_, _, _, _, apart, _⟩
  obtain ⟨_, offV, _⟩ := layoutFor_cast w maxInt
  rw [halfUp_of_lt pos lt, halfUp_maxInt] at offV
  have stride : (layoutFor w maxInt).1.strideV = (w + 1) / 2 := halfUp_of_lt pos lt
  have luma : (layoutFor w maxInt).1.strideY * (layoutFor w maxInt).1.height = w * maxInt := rfl
  have rows : (layoutFor w maxInt).1.chromaHeight = 2 ^ 30 := rfl
  unfold Apart at apart
  rw [stride, luma, rows] at apart
  unfold maxInt at lt offV apart
  have small : (w * (2 ^ 31 - 1) + (w + 1) / 2 * -2 ^ 30) % 2 ^ 64 = w * (2 ^ 31 - 1) - (w + 1) / 2 * 2 ^ 30 := by
    rw [Int.emod_eq_of_lt (by omega) (by omega)]
    omega
  rw [small] at offV
  omega

theorem planes_of_lt {w h : Int} (wPos : 0 < w) (hPos : 0 < h) (wLt : w < maxInt) (hLt : h < maxInt) :
    Planes (layoutFor w h).1 (layoutFor w h).2 := by
  obtain ⟨offU, offV, total⟩ := layoutFor_cast w h
  rw [halfUp_of_lt wPos wLt, halfUp_of_lt hPos hLt] at offV total
  have strideU : (layoutFor w h).1.strideU = (w + 1) / 2 := halfUp_of_lt wPos wLt
  have strideV : (layoutFor w h).1.strideV = (w + 1) / 2 := halfUp_of_lt wPos wLt
  have luma : (layoutFor w h).1.strideY * (layoutFor w h).1.height = w * h := rfl
  have rows : (layoutFor w h).1.chromaHeight = (h + 1) / 2 := rfl
  unfold maxInt at wLt hLt
  have lumaLow : 0 ≤ w * h := by positivity
  have lumaHigh : w * h ≤ 2 ^ 31 * 2 ^ 31 := mul_le_mul (by omega) (by omega) (by omega) (by omega)
  have chromaLow : 0 ≤ (w + 1) / 2 * ((h + 1) / 2) := Int.mul_nonneg (by omega) (by omega)
  have chromaHigh : (w + 1) / 2 * ((h + 1) / 2) ≤ 2 ^ 31 * 2 ^ 31 :=
    mul_le_mul (by omega) (by omega) (by omega) (by omega)
  rw [Int.emod_eq_of_lt (by omega) (by omega)] at offU offV total
  unfold Planes Inside Apart
  rw [strideU, strideV, luma, rows]
  omega

/-- The planes of a new slot are sound exactly when neither size is the
largest `int`, to which the code adds one. -/
theorem planes_layoutFor (w h : Positive) :
    Planes (layoutFor w h).1 (layoutFor w h).2 ↔ w.val ≠ maxInt ∧ h.val ≠ maxInt := by
  obtain ⟨w, wPos, wMax⟩ := w
  obtain ⟨h, hPos, hMax⟩ := h
  simp only
  constructor
  · intro planes
    have wNe : w ≠ maxInt := by
      rintro rfl
      exact not_planes_of_width hPos planes
    refine ⟨wNe, ?_⟩
    rintro rfl
    exact not_planes_of_height wPos (by omega) planes
  · rintro ⟨wNe, hNe⟩
    exact planes_of_lt wPos hPos (by omega) (by omega)

end WebRtcDemo.Decoder
