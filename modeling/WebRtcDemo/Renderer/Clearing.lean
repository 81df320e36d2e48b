import WebRtcDemo.Renderer.Uploads

namespace WebRtcDemo.Renderer

open GlTexture

variable {old : Nat → Prop}

/-! Histories. -/

/-- The frame was delivered before some call of `clearVideoTrack`. -/
def BeforeClear (n : Nat) (log : List RenderAction) : Prop := Machine.Past .cleared (.delivered n ∈ ·) log

/-- The frame was delivered before a call of `clearVideoTrack` that a sync came after. -/
def Stale (log : List RenderAction) (n : Nat) : Prop := Machine.Past .synced (BeforeClear n) log

/-- A draw shows no frame that is stale by then. -/
def NothingStale (past : List RenderAction) (a : RenderAction) : Prop :=
  ∀ textures, a = .drew textures → ∀ tex ∈ textures, Without (Stale past) tex

theorem BeforeClear.delivered {n : Nat} {log : List RenderAction} (cleared : BeforeClear n log) :
    .delivered n ∈ log := by
  obtain ⟨before, after, rfl, member⟩ := cleared
  exact List.mem_append_left _ member

theorem Stale.beforeClear {n : Nat} {log : List RenderAction} (stale : Stale log n) : BeforeClear n log := by
  obtain ⟨before, after, rfl, cleared⟩ := stale
  exact Machine.past_append.mpr (.inl cleared)

theorem stale_append {log out : List RenderAction} (quiet : .synced ∉ out) : Stale (log ++ out) = Stale log :=
  funext fun _ => propext (Machine.past_append_of_not_mem quiet)

theorem stale_synced {n : Nat} {log : List RenderAction} : Stale (log ++ [.synced]) n ↔ BeforeClear n log := by
  rw [Stale, Machine.past_snoc]
  constructor
  · rintro (stale | ⟨_, cleared⟩)
    · exact Stale.beforeClear stale
    · exact cleared
  · exact fun cleared => .inr ⟨rfl, cleared⟩

theorem beforeClear_append {n : Nat} {log out : List RenderAction} (quiet : .cleared ∉ out) :
    BeforeClear n (log ++ out) ↔ BeforeClear n log :=
  Machine.past_append_of_not_mem quiet

/-- The condition on the runs: the first upload after the first sync after a
clear is a clean one. -/
def UploadsClean (android : Bool) (s : State) : RenderEvent → Prop
  | .render gl => s.awaitsUpload = true → ∀ node ∈ s.node.bind (ensureInitialized android gl),
      ∀ path ∈ nextUploadPath android node, CleanUpload gl node path
  | _ => True

instance (gl : GlResults) (node : RenderNode) (path : UploadPathKind) : Decidable (Direct gl node path) :=
  inferInstanceAs (Decidable (∀ u ∈ pathPlanes gl node path, ¬ Staged u.1 u.2))

instance (gl : GlResults) (node : RenderNode) (path : UploadPathKind) : Decidable (Incomplete gl node path) :=
  inferInstanceAs (Decidable (∃ u ∈ pathPlanes gl node path, readyBuffer u.2.pbo = none ∧ Staged u.1 u.2))

instance (gl : GlResults) (node : RenderNode) (path : UploadPathKind) : Decidable (CleanUpload gl node path) :=
  inferInstanceAs (Decidable (_ ∨ _ ∨ _ ∨ _))

instance (android : Bool) (s : State) : ∀ e, Decidable (UploadsClean android s e)
  | .render gl => inferInstanceAs (Decidable (s.awaitsUpload = true →
      ∀ node ∈ s.node.bind (ensureInitialized android gl), ∀ path ∈ nextUploadPath android node, CleanUpload gl node path))
  | .onFrame .. | .updatePaintNode _ | .releaseResources _ | .setVideoTrack _ | .clearVideoTrack => isTrue trivial

/-- What holds of the item, its node and the history. -/
structure Consistent (s : State) (log : List RenderAction) : Prop where
  numbered : ∀ n, .delivered n ∈ log → n < s.delivered
  pending : ∀ frame, s.item.pendingBuffer = some frame → ¬ BeforeClear frame.number log
  mailbox : s.clearUnseen = true → s.item.hasVideo = true →
    s.item.pendingValid = true ∧ s.item.pendingBuffer.isSome = true
  seen : s.clearUnseen = false → ∀ n, BeforeClear n log → Stale log n
  node : ∀ node, s.node = some node → NodeOk (Stale log) s.awaitsUpload node
  drawn : Machine.Throughout NothingStale [] log

variable {s t : State} {log : List RenderAction}

/-- Steps that leave the item alone and after which nothing more is stale. -/
theorem Consistent.quiet {out : List RenderAction} (ok : Consistent s log) (item : t.item = s.item)
    (count : t.delivered = s.delivered) (unseen : t.clearUnseen = s.clearUnseen)
    (node : ∀ node, t.node = some node → NodeOk (Stale log) t.awaitsUpload node)
    (silent : ∀ a ∈ out, a ≠ .cleared ∧ a ≠ .synced ∧ ∀ n, a ≠ .delivered n)
    (drawn : Machine.Throughout NothingStale log out) : Consistent t (log ++ out) := by
  have noClear : .cleared ∉ out := fun member => (silent _ member).1 rfl
  have noSync : .synced ∉ out := fun member => (silent _ member).2.1 rfl
  refine ⟨fun n member => ?_, fun frame waiting => ?_, ?_, fun known n => ?_, ?_, ?_⟩
  · rw [count]
    rcases List.mem_append.mp member with earlier | now
    · exact ok.numbered n earlier
    · exact absurd rfl ((silent _ now).2.2 n)
  · rw [beforeClear_append noClear]
    rw [item] at waiting
    exact ok.pending frame waiting
  · rw [item, unseen]
    exact ok.mailbox
  · rw [beforeClear_append noClear, stale_append noSync]
    rw [unseen] at known
    exact ok.seen known n
  · rw [stale_append noSync]
    exact node
  · exact Machine.throughout_append.mpr ⟨ok.drawn, drawn⟩

theorem Consistent.onFrame (ok : Consistent s log) (buffer : Option FrameBuffer) (rawId : UInt16) (nowUs : Int) :
    Consistent { s with item := Renderer.onFrame s.item s.delivered buffer rawId nowUs, delivered := s.delivered + 1 }
      (log ++ [.delivered s.delivered]) := by
  have noClear : RenderAction.cleared ∉ [.delivered s.delivered] := by simp
  have noSync : RenderAction.synced ∉ [.delivered s.delivered] := by simp
  refine ⟨fun n member => ?_, fun frame waiting => ?_, fun unseen video => ?_, fun known n => ?_, ?_, ?_⟩
  · rcases List.mem_append.mp member with earlier | now
    · exact Nat.lt_succ_of_lt (ok.numbered n earlier)
    · cases List.mem_singleton.mp now
      exact Nat.lt_succ_self _
  · rw [beforeClear_append noClear]
    unfold Renderer.onFrame at waiting
    split at waiting
    · exact ok.pending frame waiting
    · cases waiting
      exact fun cleared => Nat.lt_irrefl _ (ok.numbered _ cleared.delivered)
  · unfold Renderer.onFrame at video ⊢
    split
    · rename_i rejected
      rw [rejected] at video
      exact ok.mailbox unseen video
    · exact ⟨rfl, rfl⟩
  · rw [beforeClear_append noClear, stale_append noSync]
    exact ok.seen known n
  · rw [stale_append noSync]
    exact ok.node
  · exact Machine.throughout_append.mpr ⟨ok.drawn, (fun _ same => by cases same), trivial⟩

theorem Consistent.clear (ok : Consistent s log) (track : Option Nat) :
    Consistent { clearTrack s with item := { (clearTrack s).item with track := track } } (log ++ [.cleared]) := by
  have noSync : RenderAction.synced ∉ [RenderAction.cleared] := by simp
  refine ⟨fun n member => ?_, nofun, fun _ => nofun, nofun, ?_, ?_⟩
  · rcases List.mem_append.mp member with earlier | now
    · exact ok.numbered n earlier
    · cases List.mem_singleton.mp now
  · rw [stale_append noSync]
    exact ok.node
  · exact Machine.throughout_append.mpr ⟨ok.drawn, (fun _ same => by cases same), trivial⟩

theorem consistent_start : Consistent {} [] where
  numbered n member := absurd member List.not_mem_nil
  pending frame waiting := by cases waiting
  mailbox unseen := by cases unseen
  seen _ n cleared := absurd cleared.delivered List.not_mem_nil
  node node there := by cases there
  drawn := trivial

/-- A new node has nothing to show. -/
theorem nodeOk_new (awaits : Bool) : NodeOk old awaits {} := by
  have fit : PlaneFit false 4 {} := ⟨⟨.inl ⟨rfl, rfl⟩, fun _ => rfl⟩, fun _ => rfl, .inr ⟨rfl, rfl⟩⟩
  have blank : Blank {} := ⟨rfl, rfl⟩
  exact BlankNode.ok ⟨blank, blank, blank, blank⟩ ⟨fit, fit, fit, fit⟩ nofun

theorem sync_item (item : VideoRenderer) (node : RenderNode) : (sync item node).1 = (takeFrame item).1 := by
  unfold sync
  rcases takeFrame item with ⟨next, taken⟩
  cases taken with
  | none => rfl
  | some frame => rfl

theorem Consistent.synced (ok : Consistent s log) :
    Consistent (updatePaintNode s true).1 (log ++ [.synced]) := by
  have noClear : RenderAction.cleared ∉ [RenderAction.synced] := by simp
  have item : (updatePaintNode s true).1.item = (takeFrame s.item).1 := sync_item ..
  refine ⟨fun n member => ?_, fun frame waiting => ?_, nofun, fun _ n => ?_, fun node made => ?_, ?_⟩
  · rcases List.mem_append.mp member with earlier | now
    · exact ok.numbered n earlier
    · cases List.mem_singleton.mp now
  · rw [item] at waiting
    rw [beforeClear_append noClear]
    rcases takeFrame_spec s.item with ⟨same, _⟩ | ⟨_, _, _, _, empty⟩
    · rw [same] at waiting
      exact ok.pending frame waiting
    · rw [empty] at waiting
      cases waiting
  · rw [beforeClear_append noClear, stale_synced]
    exact id
  · cases made
    have before : NodeOk (Stale log) s.awaitsUpload (s.node.getD {}) := by
      cases there : s.node with
      | none => exact nodeOk_new _
      | some node => exact ok.node node there
    refine sync_ok before (fun known n => ?_) (fun frame waiting => ?_) ok.mailbox
    · rw [stale_synced]
      exact ok.seen known n
    · rw [stale_synced]
      exact ok.pending frame waiting
  · exact Machine.throughout_append.mpr ⟨ok.drawn, (fun _ same => by cases same), trivial⟩

theorem Consistent.rendered {android : Bool} (ok : Consistent s log) (gl : GlResults)
    (admitted : UploadsClean android s (.render gl)) :
    Consistent (renderNode android s gl).1 (log ++ (renderNode android s gl).2) := by
  unfold renderNode
  cases there : s.node with
  | none =>
    rw [List.append_nil]
    exact ok
  | some node =>
    have admitted (waits : s.awaitsUpload = true) := admitted waits
    rw [there, Option.bind_some] at admitted
    obtain ⟨after, outs⟩ := render_ok (ok.node node there) admitted
    have shown (other : RenderNode) (same : some (render android gl node).1 = some other) :
        NodeOk (Stale log) (s.awaitsUpload && !uploadsFrame android gl node) other := by
      cases same
      exact after
    simp only
    rcases outs with empty | ⟨drawn, outs, clean⟩
    · rw [empty]
      exact ok.quiet rfl rfl rfl shown (fun _ member => absurd member List.not_mem_nil) trivial
    · rw [outs]
      refine ok.quiet rfl rfl rfl shown (fun a member => draw_quiet member) ⟨clean, ?_⟩
      refine Machine.throughout_of_forall fun a timing before textures same => ?_
      obtain ⟨frameId, startMonoUs, rfl⟩ := sampledTimings_quiet timing
      cases same

theorem Consistent.step {android : Bool} {e : RenderEvent} {out : List RenderAction} (ok : Consistent s log)
    (admitted : UploadsClean android s e) (run : Renderer.step android s e = some (t, out)) :
    Consistent t (log ++ out) := by
  have silent : ∀ a ∈ ([] : List RenderAction), a ≠ .cleared ∧ a ≠ .synced ∧ ∀ n, a ≠ .delivered n :=
    fun _ member => absurd member List.not_mem_nil
  cases renderMove_of_step run with
  | delivers buffer rawId nowUs => exact ok.onFrame buffer rawId nowUs
  | syncs => exact ok.synced
  | drops => exact ok.quiet rfl rfl rfl (fun _ there => by cases there) silent trivial
  | renders gl => exact ok.rendered gl admitted
  | releases context =>
    refine ok.quiet rfl rfl rfl (fun node made => ?_) silent trivial
    obtain ⟨before, there, rfl⟩ := Option.map_eq_some_iff.mp made
    exact destroyGlResources_ok (ok.node before there) context
  | keeps =>
    rw [List.append_nil]
    exact ok
  | replaces track => exact ok.clear track
  | clears => exact ok.clear none

theorem reach_consistent {android : Bool} (reach : (renderer android).Reach (UploadsClean android) s log) :
    Consistent s log :=
  reach.invariant consistent_start fun _ _ _ _ _ ok admitted run => ok.step admitted run

/-- Pictures of four by two pixels, and a new context that has everything. -/
def smallNv12 (level : UInt8) : NV12Buffer := ⟨4, 2, 4, 4, List.replicate 8 level, [128, 128, 128, 128]⟩

def smallI420 (level : UInt8) : I420Buffer := ⟨4, 2, 4, 2, 2, List.replicate 8 level, [128, 128], [128, 128]⟩

def fullGl : GlResults := ⟨true, 4, true, true, true, ⟨true, true⟩, ⟨true, true⟩, ⟨true, true⟩, ⟨true, true⟩⟩

end WebRtcDemo.Renderer
