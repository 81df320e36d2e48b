import WebRtcDemo.Lib.GlTexture
import Mathlib.Data.List.Nodup
import Mathlib.Tactic

/-! The objects of a GL context with their contents, its bindings and its pixel
unpack state, and what a sequence of calls may do with them. -/

namespace GlObjects

open GlTexture

variable {τ : Type}

deriving instance DecidableEq for Block

/-- Pixels come from client memory, or from the buffer that is bound to
`GL_PIXEL_UNPACK_BUFFER`, at offset 0. -/
inductive Pixels (τ : Type)
  | client (data : Block τ)
  | offset
  deriving DecidableEq

inductive Call (τ : Type)
  | genTextures (names : List Nat)
  | deleteTextures (names : List Nat)
  | genBuffers (names : List Nat)
  | deleteBuffers (names : List Nat)
  /-- `glBindTexture`, after `glActiveTexture` has chosen a unit -/
  | bindTexture (name : Nat)
  /-- `glBindBuffer(GL_PIXEL_UNPACK_BUFFER, name)` -/
  | bindUnpackBuffer (name : Nat)
  | bufferData (size : Nat)
  | mapBufferRange (length : Nat) (succeeds : Bool)
  /-- the start of the mapped range is written -/
  | write (length : Nat) (data : Block τ)
  | unmapBuffer (intact : Bool)
  | unpackAlignment (n : Nat)
  | unpackRowLength (n : Nat)
  /-- `glTexImage2D` with a null pointer -/
  | texImage2D (w h bytesPerPixel : Nat)
  | texSubImage2D (w h bytesPerPixel : Nat) (pixels : Pixels τ)
  | draw (textures : List Nat)
  deriving DecidableEq

/-- Which names there are, and the unpack state. -/
structure Gl where
  textures : List Nat := []
  buffers : List Nat := []
  size : Nat → Nat := fun _ => 0
  unpackBuffer : Nat := 0
  mapped : Option Nat := none
  alignment : Nat := 4
  rowLength : Nat := 0

def without (names : List Nat) (gone : List Nat) : List Nat := names.filter fun n => n ∉ gone

def Gl.rowBytes (gl : Gl) (w bytesPerPixel : Nat) : Nat := GlTexture.rowBytes gl.alignment gl.rowLength w bytesPerPixel

def Gl.reads (gl : Gl) (w h bytesPerPixel : Nat) : Nat := transferReads gl.alignment gl.rowLength w h bytesPerPixel

def Gl.after (gl : Gl) : Call τ → Gl
  | .genTextures names => { gl with textures := gl.textures ++ names }
  | .deleteTextures names => { gl with textures := without gl.textures names }
  | .genBuffers names => { gl with buffers := gl.buffers ++ names }
  | .deleteBuffers names => { gl with buffers := without gl.buffers names }
  | .bindUnpackBuffer name => { gl with unpackBuffer := name }
  | .bufferData size => { gl with size := Function.update gl.size gl.unpackBuffer size }
  | .mapBufferRange length succeeds => if succeeds then { gl with mapped := some length } else gl
  | .unmapBuffer _ => { gl with mapped := none }
  | .unpackAlignment n => { gl with alignment := n }
  | .unpackRowLength n => { gl with rowLength := n }
  | .bindTexture _ | .write _ _ | .texImage2D _ _ _ | .texSubImage2D _ _ _ _ | .draw _ => gl

def Gl.afterAll (gl : Gl) (calls : List (Call τ)) : Gl := calls.foldl Gl.after gl

/-- Every call meets the rule in the state that it finds. -/
def Follows (rule : Gl → Call τ → Prop) : Gl → List (Call τ) → Prop
  | _, [] => True
  | gl, c :: calls => rule gl c ∧ Follows rule (gl.after c) calls

instance decidableFollows (rule : Gl → Call τ → Prop) [∀ gl c, Decidable (rule gl c)] :
    ∀ gl calls, Decidable (Follows rule gl calls)
  | _, [] => isTrue trivial
  | gl, c :: calls =>
    have := decidableFollows rule (gl.after c) calls
    inferInstanceAs (Decidable (rule gl c ∧ Follows rule (gl.after c) calls))

/-- Names are only used while they are there, pixels come from where the
pointer says, and a buffer is mapped only between the calls for it. -/
def Allowed (gl : Gl) : Call τ → Prop
  | .deleteTextures names => ∀ n ∈ names, n ∈ gl.textures
  | .deleteBuffers names => ∀ n ∈ names, n ∈ gl.buffers
  | .bindTexture name => name ∈ gl.textures
  | .bindUnpackBuffer name => gl.mapped = none ∧ (name = 0 ∨ name ∈ gl.buffers)
  | .bufferData _ => gl.mapped = none ∧ gl.unpackBuffer ∈ gl.buffers
  | .mapBufferRange length _ => gl.mapped = none ∧ gl.unpackBuffer ∈ gl.buffers ∧ length ≤ gl.size gl.unpackBuffer
  | .write length _ => ∃ range ∈ gl.mapped, length ≤ range
  | .unmapBuffer _ => gl.mapped ≠ none
  | .texImage2D _ _ _ => gl.mapped = none
  | .texSubImage2D _ _ _ (.client _) => gl.unpackBuffer = 0
  | .texSubImage2D _ _ _ .offset => gl.mapped = none ∧ gl.unpackBuffer ∈ gl.buffers
  | .draw textures => ∀ t ∈ textures, t ∈ gl.textures
  | .genTextures _ | .genBuffers _ | .unpackAlignment _ | .unpackRowLength _ => True

/-- A transfer with a null pointer reads no more than the bound buffer has. -/
def Gl.Supplied (gl : Gl) (w h bytesPerPixel : Nat) : Prop :=
  gl.unpackBuffer ≠ 0 → gl.reads w h bytesPerPixel ≤ gl.size gl.unpackBuffer

instance (gl : Gl) (w h bytesPerPixel : Nat) : Decidable (gl.Supplied w h bytesPerPixel) :=
  inferInstanceAs (Decidable (_ → _))

/-- No transfer reads more than there is. With a buffer bound a null pointer is
an offset, also for `glTexImage2D`. -/
def InRange (gl : Gl) : Call τ → Prop
  | .texImage2D w h bytesPerPixel => gl.Supplied w h bytesPerPixel
  | .texSubImage2D w h bytesPerPixel (.client data) => gl.reads w h bytesPerPixel ≤ data.bytes.length
  | .texSubImage2D w h bytesPerPixel .offset => gl.reads w h bytesPerPixel ≤ gl.size gl.unpackBuffer
  | _ => True

/-- Nothing of the unpack state is left behind. -/
structure Gl.Clean (gl : Gl) : Prop where
  unbound : gl.unpackBuffer = 0
  unmapped : gl.mapped = none
  rowLength : gl.rowLength = 0

variable {rule : Gl → Call τ → Prop} {gl : Gl} {xs ys : List (Call τ)}

theorem afterAll_append (gl : Gl) (xs ys : List (Call τ)) : gl.afterAll (xs ++ ys) = (gl.afterAll xs).afterAll ys :=
  List.foldl_append

theorem follows_append : Follows rule gl (xs ++ ys) ↔ Follows rule gl xs ∧ Follows rule (gl.afterAll xs) ys := by
  induction xs generalizing gl with
  | nil => simp [Follows, Gl.afterAll]
  | cons c xs ih =>
    simp only [List.cons_append, Follows, ih, and_assoc]
    rfl

theorem Follows.append (first : Follows rule gl xs) (second : Follows rule (gl.afterAll xs) ys) :
    Follows rule gl (xs ++ ys) :=
  follows_append.mpr ⟨first, second⟩

theorem without_append {first rest : List Nat} (distinct : (first ++ rest).Nodup) : without (first ++ rest) first = rest := by
  have apart := List.nodup_append.mp distinct
  unfold without
  rw [List.filter_append, List.filter_eq_nil_iff.mpr, List.filter_eq_self.mpr, List.nil_append]
  · intro n later
    simpa using fun earlier => apart.2.2 n earlier n later rfl
  · intro n there
    simpa using there

/-- All names are deleted, part by part. -/
theorem deleteTextures_all {parts : List (List Nat)} (there : gl.textures = parts.flatten) (distinct : parts.flatten.Nodup) :
    Follows Allowed gl (parts.map fun names => (.deleteTextures names : Call τ)) ∧
      gl.afterAll (parts.map fun names => (.deleteTextures names : Call τ)) = { gl with textures := [] } := by
  induction parts generalizing gl with
  | nil => exact ⟨trivial, by rw [List.flatten_nil] at there; rw [← there]; rfl⟩
  | cons first parts ih =>
    rw [List.flatten_cons] at there distinct
    have left : (gl.after (.deleteTextures first : Call τ)).textures = parts.flatten := by
      change without gl.textures first = parts.flatten
      rw [there, without_append distinct]
    obtain ⟨allowed, emptied⟩ := ih left (List.nodup_append.mp distinct).2.1
    refine ⟨⟨fun n inside => there ▸ List.mem_append_left _ inside, allowed⟩, ?_⟩
    exact emptied

theorem deleteBuffers_all {parts : List (List Nat)} (there : gl.buffers = parts.flatten) (distinct : parts.flatten.Nodup) :
    Follows Allowed gl (parts.map fun names => (.deleteBuffers names : Call τ)) ∧
      gl.afterAll (parts.map fun names => (.deleteBuffers names : Call τ)) = { gl with buffers := [] } := by
  induction parts generalizing gl with
  | nil => exact ⟨trivial, by rw [List.flatten_nil] at there; rw [← there]; rfl⟩
  | cons first parts ih =>
    rw [List.flatten_cons] at there distinct
    have left : (gl.after (.deleteBuffers first : Call τ)).buffers = parts.flatten := by
      change without gl.buffers first = parts.flatten
      rw [there, without_append distinct]
    obtain ⟨allowed, emptied⟩ := ih left (List.nodup_append.mp distinct).2.1
    refine ⟨⟨fun n inside => there ▸ List.mem_append_left _ inside, allowed⟩, ?_⟩
    exact emptied

theorem rowBytes_of_aligned {w bytesPerPixel : Nat} (tight : gl.rowLength = 0) (positive : 0 < gl.alignment)
    (aligned : gl.alignment ∣ w * bytesPerPixel) : gl.rowBytes w bytesPerPixel = w * bytesPerPixel := by
  obtain ⟨k, same⟩ := aligned
  simp only [Gl.rowBytes, rowBytes, tight, if_true, same]
  have whole : (gl.alignment * k + gl.alignment - 1) / gl.alignment = k := by
    rw [Nat.add_sub_assoc positive, Nat.mul_add_div positive, Nat.div_eq_of_lt (by omega), Nat.add_zero]
  rw [whole, Nat.mul_comm]

/-- Rows that follow each other without padding. -/
theorem reads_of_aligned {w bytesPerPixel : Nat} (tight : gl.rowLength = 0) (positive : 0 < gl.alignment)
    (aligned : gl.alignment ∣ w * bytesPerPixel) (h : Nat) : gl.reads w h bytesPerPixel ≤ w * bytesPerPixel * h := by
  have bytes : rowBytes gl.alignment gl.rowLength w bytesPerPixel = w * bytesPerPixel :=
    rowBytes_of_aligned tight positive aligned
  unfold Gl.reads transferReads
  split
  · exact Nat.zero_le _
  · rename_i some
    obtain ⟨rows, rfl⟩ : ∃ rows, h = rows + 1 := ⟨h - 1, by omega⟩
    rw [bytes, Nat.add_sub_cancel, Nat.mul_succ, Nat.mul_comm rows]

/-- With alignment 1 rows are read within the stride, if it has the pixels of
a row and the row length fits into it. -/
theorem reads_of_stride {w bytesPerPixel stride : Nat} (packed : gl.alignment = 1)
    (fits : (if gl.rowLength = 0 then w else gl.rowLength) * bytesPerPixel ≤ stride) (row : w * bytesPerPixel ≤ stride)
    (h : Nat) : gl.reads w h bytesPerPixel ≤ stride * h := by
  have bytes : rowBytes gl.alignment gl.rowLength w bytesPerPixel ≤ stride := by
    simpa [rowBytes, packed] using fits
  unfold Gl.reads transferReads
  split
  · exact Nat.zero_le _
  · rename_i some
    obtain ⟨rows, rfl⟩ : ∃ rows, h = rows + 1 := ⟨h - 1, by omega⟩
    rw [Nat.add_sub_cancel, Nat.mul_succ, Nat.mul_comm stride]
    exact Nat.add_le_add (Nat.mul_le_mul_left rows bytes) row

/-! Contents. -/

/-- The transfer of rows that are so many bytes apart. Without a source
nothing is known of what is read. -/
def transferRows (t : Texture τ) (w h rowBytes bytesPerPixel : Nat) : Option (Block τ) → Texture τ
  | none => t
  | some src =>
    { t with
      texel := fun x y => if (w ≤ t.width ∧ h ≤ t.height) ∧ x < w ∧ y < h then
        some ⟨src.tag, (src.bytes.drop (y * rowBytes + x * bytesPerPixel)).take bytesPerPixel⟩ else t.texel x y
      inside := by
        intro x y some
        by_cases written : (w ≤ t.width ∧ h ≤ t.height) ∧ x < w ∧ y < h
        · omega
        · rw [if_neg written] at some
          exact t.inside x y some }

/-- What the textures and the buffers hold, and the texture of the active unit. -/
structure Contents (τ : Type) where
  image : Nat → Texture τ := fun _ => genTexture
  store : Nat → Option (Block τ) := fun _ => none
  bound : Nat := 0

/-- What a null pointer stands for: the start of the unpack buffer, if there is one. -/
def Contents.unpackStore (c : Contents τ) (gl : Gl) : Option (Block τ) :=
  if gl.unpackBuffer = 0 then none else c.store gl.unpackBuffer

def Contents.source (c : Contents τ) (gl : Gl) : Pixels τ → Option (Block τ)
  | .client data => some data
  | .offset => c.unpackStore gl

def Contents.setImage (c : Contents τ) (t : Texture τ) : Contents τ := { c with image := Function.update c.image c.bound t }

@[simp] theorem setImage_image (c : Contents τ) (t : Texture τ) : (c.setImage t).image c.bound = t := Function.update_self ..

@[simp] theorem setImage_bound (c : Contents τ) (t : Texture τ) : (c.setImage t).bound = c.bound := rfl

/-- Only the last image counts. -/
@[simp] theorem setImage_again (c : Contents τ) (s t : Texture τ) : (c.setImage s).setImage t = c.setImage t := by
  simp [Contents.setImage]

def Contents.setStore (c : Contents τ) (gl : Gl) (data : Option (Block τ)) : Contents τ :=
  { c with store := Function.update c.store gl.unpackBuffer data }

/-- The contents after a call that is made in `gl`. A transfer that would read
past the bound buffer is an error that changes nothing. -/
def Contents.after (c : Contents τ) (gl : Gl) : Call τ → Contents τ
  | .genTextures names => { c with image := fun n => if n ∈ names then genTexture else c.image n }
  | .genBuffers names => { c with store := fun n => if n ∈ names then none else c.store n }
  | .bindTexture name => { c with bound := name }
  | .bufferData _ => c.setStore gl none
  | .write _ data => c.setStore gl (some data)
  | .unmapBuffer intact => if intact then c else c.setStore gl none
  | .texImage2D w h bytesPerPixel =>
    if gl.Supplied w h bytesPerPixel then
      c.setImage (transferRows (GlTexture.texImage2D w h) w h (gl.rowBytes w bytesPerPixel) bytesPerPixel (c.unpackStore gl))
    else c
  | .texSubImage2D w h bytesPerPixel (.client data) =>
    c.setImage (transferRows (c.image c.bound) w h (gl.rowBytes w bytesPerPixel) bytesPerPixel (some data))
  | .texSubImage2D w h bytesPerPixel .offset =>
    if gl.Supplied w h bytesPerPixel then
      c.setImage (transferRows (c.image c.bound) w h (gl.rowBytes w bytesPerPixel) bytesPerPixel (c.unpackStore gl))
    else c
  | .deleteTextures _ | .deleteBuffers _ | .bindUnpackBuffer _ | .mapBufferRange _ _ | .unpackAlignment _ |
    .unpackRowLength _ | .draw _ => c

def Contents.afterAll (c : Contents τ) : Gl → List (Call τ) → Contents τ
  | _, [] => c
  | gl, call :: calls => (c.after gl call).afterAll (gl.after call) calls

theorem contents_append (c : Contents τ) (gl : Gl) (xs ys : List (Call τ)) :
    c.afterAll gl (xs ++ ys) = (c.afterAll gl xs).afterAll (gl.afterAll xs) ys := by
  induction xs generalizing gl c with
  | nil => rfl
  | cons call xs ih => exact ih _ _

/-- The images that a call draws. -/
def Contents.drawn (c : Contents τ) : Call τ → List (List (Texture τ))
  | .draw textures => [textures.map c.image]
  | _ => []

/-- What calls draw, one picture after the other. -/
def Contents.pictures (c : Contents τ) : Gl → List (Call τ) → List (List (Texture τ))
  | _, [] => []
  | gl, call :: calls => c.drawn call ++ (c.after gl call).pictures (gl.after call) calls

theorem pictures_append (c : Contents τ) (gl : Gl) (xs ys : List (Call τ)) :
    c.pictures gl (xs ++ ys) = c.pictures gl xs ++ (c.afterAll gl xs).pictures (gl.afterAll xs) ys := by
  induction xs generalizing gl c with
  | nil => rfl
  | cons call xs ih =>
    rw [List.cons_append, Contents.pictures, ih, ← List.append_assoc]
    rfl

def Call.draws : Call τ → Bool
  | .draw _ => true
  | _ => false

theorem pictures_of_quiet {xs : List (Call τ)} (quiet : xs.any Call.draws = false) (c : Contents τ) (gl : Gl) :
    c.pictures gl xs = [] := by
  induction xs generalizing gl c with
  | nil => rfl
  | cons call xs ih =>
    obtain ⟨first, rest⟩ := Bool.or_eq_false_iff.mp quiet
    rw [Contents.pictures, ih rest, List.append_nil]
    cases call <;> first | rfl | cases first

theorem texture_ext {s t : Texture τ} (width : s.width = t.width) (height : s.height = t.height)
    (texel : ∀ x y, s.texel x y = t.texel x y) : s = t := by
  obtain ⟨w, h, first, _⟩ := s
  obtain ⟨_, _, second, _⟩ := t
  obtain rfl : w = _ := width
  obtain rfl : h = _ := height
  obtain rfl : first = second := funext fun x => funext fun y => texel x y
  rfl

@[simp] theorem transferRows_width (t : Texture τ) (w h rowBytes bytesPerPixel : Nat) (src : Option (Block τ)) :
    (transferRows t w h rowBytes bytesPerPixel src).width = t.width := by
  cases src <;> rfl

@[simp] theorem transferRows_height (t : Texture τ) (w h rowBytes bytesPerPixel : Nat) (src : Option (Block τ)) :
    (transferRows t w h rowBytes bytesPerPixel src).height = t.height := by
  cases src <;> rfl

theorem transferRows_texel (t : Texture τ) (w h rowBytes bytesPerPixel : Nat) (src : Block τ) (x y : Nat) :
    (transferRows t w h rowBytes bytesPerPixel (some src)).texel x y =
      if (w ≤ t.width ∧ h ≤ t.height) ∧ x < w ∧ y < h then
        some ⟨src.tag, (src.bytes.drop (y * rowBytes + x * bytesPerPixel)).take bytesPerPixel⟩ else t.texel x y := rfl

/-- With alignment 1 the rows are as far apart as the row length says. -/
theorem transferRows_packed (packed : gl.alignment = 1) (t : Texture τ) (w h bytesPerPixel : Nat) (src : Block τ) :
    transferRows t w h (gl.rowBytes w bytesPerPixel) bytesPerPixel (some src) =
      GlTexture.texSubImage2D t w h gl.rowLength bytesPerPixel src := by
  have bytes : gl.rowBytes w bytesPerPixel = (if gl.rowLength = 0 then w else gl.rowLength) * bytesPerPixel := by
    simp [Gl.rowBytes, rowBytes, packed]
  have width := texSubImage2D_width t w h gl.rowLength bytesPerPixel src
  have height := texSubImage2D_height t w h gl.rowLength bytesPerPixel src
  refine texture_ext ((transferRows_width ..).trans width.symm) ((transferRows_height ..).trans height.symm) fun x y => ?_
  rw [transferRows_texel, bytes]
  by_cases fits : w ≤ t.width ∧ h ≤ t.height
  · simp only [GlTexture.texSubImage2D, fits, true_and, and_self, dite_true, pixel, ← Nat.mul_assoc, ← Nat.add_mul]
  · simp only [GlTexture.texSubImage2D, fits, false_and, if_false, dite_false]

/-- New storage is overwritten as a whole, so that it does not matter what a
null pointer brought into it. -/
theorem transferRows_again (w h first second bytesPerPixel : Nat) (src : Option (Block τ)) :
    transferRows (transferRows (GlTexture.texImage2D w h) w h first bytesPerPixel src) w h second bytesPerPixel src =
      transferRows (GlTexture.texImage2D w h) w h second bytesPerPixel src := by
  cases src with
  | none => rfl
  | some data =>
    refine texture_ext (by simp) (by simp) fun x y => ?_
    simp only [transferRows_texel, transferRows_width, transferRows_height]
    by_cases written : x < w ∧ y < h <;> simp [written, GlTexture.texImage2D]

end GlObjects
