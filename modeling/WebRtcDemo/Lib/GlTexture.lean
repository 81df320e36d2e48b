import WebRtcDemo.Lib.ByteText

/-! Two-dimensional textures and the pixel transfers into them. Bytes carry
the tag of the thing they were copied from, and so do the texels. -/

namespace GlTexture

/-- Memory that a transfer reads: CPU memory, or the store of a buffer object. -/
structure Block (τ : Type) where
  tag : τ
  bytes : Bytes

structure Texel (τ : Type) where
  tag : τ
  bytes : Bytes

/-- The storage of a texture and what was transferred into it. A texel is
`none` as long as nothing was. There are no texels outside the storage. -/
structure Texture (τ : Type) where
  width : Nat
  height : Nat
  texel : Nat → Nat → Option (Texel τ)
  inside : ∀ x y, texel x y ≠ none → x < width ∧ y < height

variable {τ : Type}

/-- A texture name without storage. -/
def genTexture : Texture τ := ⟨0, 0, fun _ _ => none, fun _ _ some => absurd rfl some⟩

/-- `glTexImage2D` without data: new storage, with undefined contents. -/
def texImage2D (w h : Nat) : Texture τ := ⟨w, h, fun _ _ => none, fun _ _ some => absurd rfl some⟩

/-- The bytes from one row to the next. A row length of 0 stands for the width. -/
def rowBytes (alignment rowLength w bpp : Nat) : Nat :=
  let pixels := if rowLength = 0 then w else rowLength
  (pixels * bpp + alignment - 1) / alignment * alignment

/-- How far a transfer reads. -/
def transferReads (alignment rowLength w h bpp : Nat) : Nat :=
  if w = 0 ∨ h = 0 then 0 else (h - 1) * rowBytes alignment rowLength w bpp + w * bpp

/-- The bytes of pixel `(x, y)`, with alignment 1. A row length of 0 stands for the width. -/
def pixel (src : Block τ) (w rowLength bpp x y : Nat) : Texel τ :=
  let r := if rowLength = 0 then w else rowLength
  ⟨src.tag, (src.bytes.drop ((y * r + x) * bpp)).take bpp⟩

/-- `glTexSubImage2D` at offset 0. It is an error that changes nothing when
the storage is too small. -/
def texSubImage2D (t : Texture τ) (w h rowLength bpp : Nat) (src : Block τ) : Texture τ :=
  if fits : w ≤ t.width ∧ h ≤ t.height then
    { t with
      texel := fun x y => if x < w ∧ y < h then some (pixel src w rowLength bpp x y) else t.texel x y
      inside := by
        intro x y some
        by_cases written : x < w ∧ y < h
        · omega
        · rw [if_neg written] at some
          exact t.inside x y some }
  else t

/-- Nothing in the texture comes from one of these. -/
def Without (old : τ → Prop) (t : Texture τ) : Prop := ∀ x y p, t.texel x y = some p → ¬ old p.tag

theorem without_genTexture (old : τ → Prop) : Without old (genTexture : Texture τ) := by
  intro x y p held
  cases held

theorem Without.mono {old older : τ → Prop} {t : Texture τ} (free : Without old t)
    (fewer : ∀ n, older n → old n) : Without older t :=
  fun x y p held stale => free x y p held (fewer _ stale)

@[simp] theorem texSubImage2D_width (t : Texture τ) (w h rowLength bpp : Nat) (src : Block τ) :
    (texSubImage2D t w h rowLength bpp src).width = t.width := by
  unfold texSubImage2D
  split <;> rfl

@[simp] theorem texSubImage2D_height (t : Texture τ) (w h rowLength bpp : Nat) (src : Block τ) :
    (texSubImage2D t w h rowLength bpp src).height = t.height := by
  unfold texSubImage2D
  split <;> rfl

theorem Without.texSubImage2D {old : τ → Prop} {t : Texture τ} {src : Block τ} (free : Without old t)
    (fresh : ¬ old src.tag) (w h rowLength bpp : Nat) :
    Without old (GlTexture.texSubImage2D t w h rowLength bpp src) := by
  intro x y p held
  unfold GlTexture.texSubImage2D at held
  split at held
  · simp only at held
    split at held
    · cases held
      exact fresh
    · exact free x y p held
  · exact free x y p held

theorem texSubImage2D_texel {t : Texture τ} {w h x y : Nat} (fits : w ≤ t.width ∧ h ≤ t.height) (inside : x < w ∧ y < h)
    (rowLength bpp : Nat) (src : Block τ) :
    (texSubImage2D t w h rowLength bpp src).texel x y = some (pixel src w rowLength bpp x y) := by
  rw [texSubImage2D, dif_pos fits]
  exact if_pos inside

/-- A transfer of the size of the storage leaves nothing of what was there. -/
theorem without_texSubImage2D_whole {old : τ → Prop} {t : Texture τ} {src : Block τ} (fresh : ¬ old src.tag)
    (rowLength bpp : Nat) : Without old (texSubImage2D t t.width t.height rowLength bpp src) := by
  intro x y p held
  rw [texSubImage2D, dif_pos ⟨Nat.le_refl _, Nat.le_refl _⟩] at held
  simp only at held
  split at held
  · cases held
    exact fresh
  · rename_i outside
    exact absurd (t.inside x y (by rw [held]; exact Option.some_ne_none p)) outside

end GlTexture
