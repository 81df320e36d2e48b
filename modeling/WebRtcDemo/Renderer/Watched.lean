import WebRtcDemo.Renderer.Pictures

/-! The renderer with the frames that `OnFrame` queues, and a rule for what its node is drawing. -/

namespace WebRtcDemo.Renderer

open GlTexture

/-- `OnFrame` puts a frame with its trace into the mailbox, or something else is observed. -/
inductive Sight
  | queued (frame : QueuedFrame) (trace : GlQueueTrace)
  | did (action : RenderAction)

def sights (s t : State) (out : List RenderAction) : RenderEvent → List Sight
  | .onFrame buffer _ _ =>
    (pendingOf buffer).toList.map fun pending => .queued ⟨s.delivered, pending⟩ t.item.pendingTrace
  | _ => out.map .did

/-- The renderer in a shared context, watched for the frames that are queued. -/
def watched (android : Bool) : Machine State RenderEvent Sight where
  init := {}
  step s e := ((shared android).step s e).map fun (t, out) => (t, sights s t out e)

/-- No textures are deleted. -/
def KeepsResources (s : State) : RenderEvent → Prop
  | .releaseResources context => ∀ node ∈ s.node, ¬ (node.glInitialized = true ∧ context = true)
  | _ => True

instance (s : State) : DecidablePred (KeepsResources s)
  | .releaseResources context =>
    inferInstanceAs (Decidable (∀ node ∈ s.node, ¬ (node.glInitialized = true ∧ context = true)))
  | .onFrame .. | .updatePaintNode _ | .render _ | .setVideoTrack _ | .clearVideoTrack => isTrue trivial

/-- A property of the node that all its steps keep, and what it gives for the draws. -/
structure WatchRule (android : Bool) (ok : GlResults → RenderNode → UploadPathKind → Prop)
    (N : List Sight → RenderNode → Prop) (admits : List Sight → Sight → Prop) : Prop where
  mono : ∀ log more node, N log node → N (log ++ more) node
  new : ∀ log, N log {}
  synced : ∀ log item node, N log node →
    (∀ frame, item.pendingBuffer = some frame → .queued frame item.pendingTrace ∈ log) → N log (sync item node).2
  found : ∀ log node alignment, N log node → N log { node with unpackAlignment := alignment }
  initialized : ∀ log gl node next, N log node → ensureInitialized android gl node = some next → N log next
  uploaded : ∀ log gl node, N log node → node.glInitialized = true →
    (∀ path ∈ nextUploadPath android node, ok gl node path) → N log (uploadIfPending android gl node)
  drawn : ∀ log node, N log node → node.pendingUpload = false → node.hasData = true →
    Machine.Throughout admits log ((draw node :: sampledTimings node).map .did)
  quiet : ∀ log frame trace, admits log (.queued frame trace) ∧ admits log (.did .cleared) ∧ admits log (.did .synced)

variable {android : Bool} {ok : GlResults → RenderNode → UploadPathKind → Prop}
  {N : List Sight → RenderNode → Prop} {admits : List Sight → Sight → Prop}

/-- The frame in the mailbox was queued, the node is as it should be, and so is everything so far. -/
structure WatchedOk (N : List Sight → RenderNode → Prop) (admits : List Sight → Sight → Prop) (s : State)
    (log : List Sight) : Prop where
  pending : ∀ frame, s.item.pendingBuffer = some frame → .queued frame s.item.pendingTrace ∈ log
  node : ∀ node ∈ s.node, N log node
  history : Machine.Throughout admits [] log

variable {s t : State} {log out : List Sight}

theorem WatchedOk.next (rule : WatchRule android ok N admits) (held : WatchedOk N admits s log)
    (pending : ∀ frame, t.item.pendingBuffer = some frame → .queued frame t.item.pendingTrace ∈ log ++ out)
    (node : ∀ node ∈ t.node, N log node) (admitted : Machine.Throughout admits log out) :
    WatchedOk N admits t (log ++ out) where
  pending := pending
  node next there := rule.mono log out next (node next there)
  history := Machine.throughout_append.mpr ⟨held.history, admitted⟩

theorem WatchedOk.onFrame (rule : WatchRule android ok N admits) (held : WatchedOk N admits s log)
    (buffer : Option FrameBuffer) (rawId : UInt16) (nowUs : Int) :
    WatchedOk N admits
      { s with item := onFrame s.item s.delivered buffer rawId nowUs, delivered := s.delivered + 1 }
      (log ++ (pendingOf buffer).toList.map fun pending =>
        .queued ⟨s.delivered, pending⟩ (Renderer.onFrame s.item s.delivered buffer rawId nowUs).pendingTrace) := by
  refine held.next rule (fun frame waiting => ?_) held.node ?_
  · cases accepted : pendingOf buffer with
    | none =>
      simp only [Renderer.onFrame, accepted] at waiting ⊢
      exact List.mem_append_left _ (held.pending frame waiting)
    | some pending =>
      simp only [Renderer.onFrame, accepted] at waiting ⊢
      cases waiting
      exact List.mem_append_right _ List.mem_cons_self
  · refine Machine.throughout_of_forall fun a member before => ?_
    obtain ⟨pending, _, rfl⟩ := List.mem_map.mp member
    exact (rule.quiet before _ _).1

theorem WatchedOk.synced (rule : WatchRule android ok N admits) (held : WatchedOk N admits s log) :
    WatchedOk N admits (updatePaintNode s true).1 (log ++ [.did .synced]) := by
  have item : (updatePaintNode s true).1.item = (takeFrame s.item).1 := sync_item ..
  refine held.next rule (fun frame waiting => ?_) (fun node there => ?_) ⟨?_, trivial⟩
  · rw [item] at waiting ⊢
    rcases takeFrame_spec s.item with ⟨same, _⟩ | ⟨_, _, _, _, empty⟩
    · rw [same] at waiting ⊢
      exact List.mem_append_left _ (held.pending frame waiting)
    · rw [empty] at waiting
      cases waiting
  · cases there
    refine rule.synced log s.item _ ?_ held.pending
    cases before : s.node with
    | none => exact rule.new log
    | some node => exact held.node node before
  · exact (rule.quiet log ⟨0, .oes 0⟩ {}).2.2

theorem WatchedOk.found (rule : WatchRule android ok N admits) (held : WatchedOk N admits s log) (gl : GlResults) :
    WatchedOk N admits (s.found (.render gl)) log where
  pending := held.pending
  node node there := by
    obtain ⟨before, had, rfl⟩ := Option.map_eq_some_iff.mp there
    exact rule.found log before gl.unpackAlignment (held.node before had)
  history := held.history

theorem WatchedOk.rendered (rule : WatchRule android ok N admits) (held : WatchedOk N admits s log) (gl : GlResults)
    (admitted : UploadsMeet android ok s (.render gl)) :
    WatchedOk N admits (renderNode android (s.found (.render gl)) gl).1
      (log ++ (renderNode android (s.found (.render gl)) gl).2.map .did) := by
  have held := held.found rule gl
  unfold renderNode
  cases before : (s.found (.render gl)).node with
  | none =>
    rw [List.map_nil, List.append_nil]
    exact held
  | some node =>
    simp only [render]
    cases initialized : ensureInitialized android gl node with
    | none =>
      refine held.next rule ?_ (fun next there => ?_) trivial
      · rw [List.map_nil, List.append_nil]
        exact held.pending
      · cases there
        exact held.node node before
    | some ready =>
      have started := rule.initialized log gl node ready (held.node node before) initialized
      have uploaded := rule.uploaded log gl ready started (ensureInitialized_initialized initialized)
        (admitted ready (by rw [before]; exact initialized))
      refine held.next rule ?_ (fun next there => ?_) ?_
      · exact fun frame waiting => List.mem_append_left _ (held.pending frame waiting)
      · cases there
        exact uploaded
      · simp only
        split
        · rename_i shown
          exact rule.drawn log _ uploaded (uploadIfPending_same android gl ready).pending shown
        · trivial

theorem WatchedOk.step (rule : WatchRule android ok N admits) (held : WatchedOk N admits s log) {e : RenderEvent}
    (kept : KeepsResources s e) (admitted : UploadsMeet android ok s e)
    (run : (watched android).step s e = some (t, out)) : WatchedOk N admits t (log ++ out) := by
  obtain ⟨⟨u, actions⟩, stepped, same⟩ := Option.map_eq_some_iff.mp run
  obtain ⟨rfl, rfl⟩ := Prod.mk.inj same
  cases renderMove_of_step stepped with
  | delivers buffer rawId nowUs => exact held.onFrame rule buffer rawId nowUs
  | syncs => exact held.synced rule
  | drops =>
    refine held.next rule ?_ (fun node there => ?_) trivial
    · exact fun frame waiting => List.mem_append_left _ (held.pending frame waiting)
    · cases there
  | renders gl => exact held.rendered rule gl admitted
  | releases context =>
    refine held.next rule ?_ (fun node there => ?_) trivial
    · exact fun frame waiting => List.mem_append_left _ (held.pending frame waiting)
    · obtain ⟨before, had, rfl⟩ := Option.map_eq_some_iff.mp there
      rw [destroyGlResources, if_neg (kept before had)]
      exact held.node before had
  | keeps =>
    change WatchedOk N admits s (log ++ [])
    rw [List.append_nil]
    exact held
  | replaces | clears =>
    refine held.next rule (fun frame waiting => ?_) held.node ⟨(rule.quiet log ⟨0, .oes 0⟩ {}).2.1, trivial⟩
    cases waiting

/-- Along every run in which no textures are deleted and the uploads meet the
condition, what is drawn is admitted. -/
theorem WatchRule.history (rule : WatchRule android ok N admits)
    (reach : (watched android).Reach (fun s e => KeepsResources s e ∧ UploadsMeet android ok s e) s log) :
    Machine.Throughout admits [] log := by
  have start : WatchedOk N admits {} [] := ⟨nofun, fun node there => absurd there (Option.not_mem_none node), trivial⟩
  have held : WatchedOk N admits s log :=
    reach.invariant start fun _ _ _ _ _ held admitted run => held.step rule admitted.1 admitted.2 run
  exact held.history

end WebRtcDemo.Renderer
