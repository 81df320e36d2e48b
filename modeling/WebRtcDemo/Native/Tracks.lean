import WebRtcDemo.Renderer.Item

/-! The tracks of the client and the items that show them. Tracks come on a
thread of WebRTC and are posted; what the client does with its renderer happens
on the GUI thread, while each item goes on by itself. -/

namespace WebRtcDemo.Native

open Renderer

/-- What `setVideoRenderer` may get. -/
inductive QObject
  | videoRenderer (item : Nat)
  | other (object : Nat)
  deriving DecidableEq, Repr

inductive MediaType
  | audio
  | video
  | data
  deriving DecidableEq, Repr

structure RemoteTrack where
  kind : String
  id : Nat
  deriving DecidableEq, Repr

structure RtpReceiver where
  track : Option RemoteTrack
  deriving DecidableEq, Repr

structure Transceiver where
  mediaType : MediaType
  receiver : Option RtpReceiver
  deriving DecidableEq, Repr

/-- The track that `OnTrack` posts. -/
def onTrack (transceiver : Option Transceiver) : Option Nat :=
  match transceiver with
  | none => none
  | some transceiver =>
    if transceiver.mediaType ≠ .video then none
    else match transceiver.receiver with
      | none => none
      | some receiver =>
        match receiver.track with
        | none => none
        | some track => if track.kind ≠ "video" then none else some track.id

/-- `m_videoRenderer`, the tracks posted to the client, and all items. -/
structure Views where
  renderer : Option QObject := none
  posted : List Nat := []
  items : Nat → Item := fun _ => {}

inductive ViewEvent
  | onTrack (transceiver : Option Transceiver)
  /-- the GUI thread takes the track that was posted first -/
  | remoteVideoTrackReady
  | setVideoRenderer (renderer : Option QObject)
  | disconnect
  /-- QML calls it -/
  | clearVideoTrack (item : Nat)
  /-- an item goes on by itself -/
  | item (item : Nat) (e : ItemEvent)
  deriving DecidableEq

inductive ViewAction
  | ready (track : Nat)
  | renderer (renderer : Option QObject)
  | disconnected
  | cleared (item : Nat)
  | item (item : Nat) (a : ItemAction)
  deriving DecidableEq, Repr

section Step
variable (sameSize : Size → Size → Bool)

/-- One item takes a step. -/
def onItem (s : Views) (i : Nat) (e : ItemEvent) : Option (Views × List ViewAction) :=
  (itemStep sameSize (s.items i) e).map fun (item, out) =>
    ({ s with items := Function.update s.items i item }, out.map (.item i))

/-- `qobject_cast<WebRTCVideoRenderer *>(m_videoRenderer)`, and the call on it. -/
def onRenderer (s : Views) (e : ItemEvent) : Option (Views × List ViewAction) :=
  match s.renderer with
  | some (.videoRenderer i) => onItem sameSize s i e
  | _ => some (s, [])

def remoteVideoTrackReady (s : Views) (track : Nat) : Option (Views × List ViewAction) :=
  (onRenderer sameSize s (.setVideoTrack (some track))).map fun (s, out) => (s, out ++ [.ready track])

def setVideoRenderer (s : Views) (renderer : Option QObject) : Option (Views × List ViewAction) :=
  if s.renderer = renderer then some (s, [])
  else (onRenderer sameSize s .clearVideoTrack).map fun (s, out) =>
    ({ s with renderer := renderer }, out ++ [.renderer renderer])

/-- What `disconnect` does about the renderer. -/
def disconnectRenderer (s : Views) : Option (Views × List ViewAction) :=
  (onRenderer sameSize s .clearVideoTrack).map fun (s, out) => (s, out ++ [.disconnected])

/-- Only the client gives tracks to an item. -/
def ownEvent : ItemEvent → Bool
  | .setVideoTrack _ => false
  | .clearVideoTrack => false
  | _ => true

def viewStep (s : Views) : ViewEvent → Option (Views × List ViewAction)
  | .onTrack transceiver => some ({ s with posted := s.posted ++ (onTrack transceiver).toList }, [])
  | .remoteVideoTrackReady =>
    match s.posted with
    | [] => none
    | track :: rest => remoteVideoTrackReady sameSize { s with posted := rest } track
  | .setVideoRenderer renderer => setVideoRenderer sameSize s renderer
  | .disconnect => disconnectRenderer sameSize s
  | .clearVideoTrack i => (onItem sameSize s i .clearVideoTrack).map fun (s, out) => (s, out ++ [.cleared i])
  | .item i e => if ownEvent e then onItem sameSize s i e else none

def views : Machine Views ViewEvent ViewAction := ⟨{}, viewStep sameSize⟩

end Step

/-! What is to be shown, read off the history. -/

/-- The renderer that was set last, the track it was given since, and the
frames of this track. -/
structure Handed where
  renderer : Option QObject := none
  track : Option Nat := none
  frames : List Nat := []

def Handed.givenTrack (h : Handed) (track : Nat) : Handed :=
  match h.renderer with
  | some (.videoRenderer _) => if h.track = some track then h else { h with track := some track, frames := [] }
  | _ => h

def Handed.after (h : Handed) : ViewAction → Handed
  | .ready track => h.givenTrack track
  | .renderer renderer => ⟨renderer, none, []⟩
  | .disconnected => { h with track := none, frames := [] }
  | .cleared i => if h.renderer = some (.videoRenderer i) then { h with track := none, frames := [] } else h
  | .item _ (.delivered _ number) => { h with frames := h.frames ++ [number] }
  | .item _ (.taken _) => h

def handed (log : List ViewAction) : Handed := log.foldl Handed.after {}

/-- Frames come to the renderer that was set last, of the track it was given
last, and no others are taken. -/
def Shows (past : List ViewAction) : ViewAction → Prop
  | .item i (.delivered track _) => (handed past).renderer = some (.videoRenderer i) ∧ (handed past).track = some track
  | .item i (.taken number) => (handed past).renderer = some (.videoRenderer i) ∧ number ∈ (handed past).frames
  | _ => True

theorem handed_append (log out : List ViewAction) : handed (log ++ out) = out.foldl Handed.after (handed log) :=
  List.foldl_append

/-! What an item does with its track. -/

section Items
variable {sameSize : Size → Size → Bool} {s t : Item} {out : List ItemAction}

/-- By itself an item keeps its track; a frame that waits is the one delivered
or the one that waited. -/
inductive OwnMove (s t : Item) : List ItemAction → Prop
  | quiet (waits : t.renderer.pendingBuffer = s.renderer.pendingBuffer) : OwnMove s t []
  | delivered {track number : Nat} (registered : s.sinks track ≠ none)
    (waits : ∀ frame, t.renderer.pendingBuffer = some frame → frame.number = number ∨
      s.renderer.pendingBuffer = some frame) :
    OwnMove s t [.delivered track number]
  | taken {frame : QueuedFrame} (waited : s.renderer.pendingBuffer = some frame)
    (waits : t.renderer.pendingBuffer = none) :
    OwnMove s t [.taken frame.number]

theorem own_onFrame (s : Item) (number : Nat) (buffer : Option FrameBuffer) (rawId : UInt16) (nowUs : Int) :
    (s.onFrame number buffer rawId nowUs).renderer.track = s.renderer.track ∧
      ∀ frame, (s.onFrame number buffer rawId nowUs).renderer.pendingBuffer = some frame →
        frame.number = number ∨ s.renderer.pendingBuffer = some frame := by
  unfold Item.onFrame
  cases pendingOf buffer with
  | none => exact ⟨rfl, fun frame waits => .inr waits⟩
  | some pending =>
    obtain ⟨id, fromTracking, made, _⟩ := handOff_spec s number pending rawId nowUs
    simp only [made]
    exact ⟨rfl, fun frame waits => .inl (Option.some.inj waits ▸ rfl)⟩

theorem own_updatePaintNode (s : Item) (openGl : Bool) :
    (s.updatePaintNode openGl).1.renderer.track = s.renderer.track ∧
      OwnMove s (s.updatePaintNode openGl).1 (s.updatePaintNode openGl).2 := by
  unfold Item.updatePaintNode takeFrame
  cases openGl with
  | false => exact ⟨rfl, .quiet rfl⟩
  | true =>
    by_cases valid : s.renderer.pendingValid = true
    · rw [if_pos rfl, if_pos valid]
      cases waited : s.renderer.pendingBuffer with
      | none => exact ⟨rfl, .quiet rfl⟩
      | some frame => exact ⟨rfl, .taken waited rfl⟩
    · rw [if_pos rfl, if_neg valid]
      exact ⟨rfl, .quiet rfl⟩

theorem own_geometryChange (sameSize : Size → Size → Bool) (s : Item) (size : Size) :
    (s.geometryChange sameSize size).renderer = s.renderer := by
  rcases geometryChange_cases sameSize s size with ⟨_, same⟩ | changed
  · rw [same]
  · rw [changed, applyVideoSinkWants_keeps]

theorem ownMove_of_step {e : ItemEvent} (own : ownEvent e = true) (run : itemStep sameSize s e = some (t, out)) :
    t.renderer.track = s.renderer.track ∧ OwnMove s t out := by
  cases itemMove_of_step run with
  | onFrame number buffer rawId nowUs registered _ =>
    obtain ⟨track, waits⟩ := own_onFrame s number buffer rawId nowUs
    exact ⟨track, .delivered (Option.isSome_iff_ne_none.mp registered) waits⟩
  | @resume rest _ =>
    cases rest with
    | setHasVideo =>
      simp only [Item.resume]
      split <;> exact ⟨rfl, .quiet rfl⟩
    | notifyId | notifyHasVideo | update => exact ⟨rfl, .quiet rfl⟩
  | @dispatch first _ _ => cases first <;> exact ⟨rfl, .quiet rfl⟩
  | updatePaintNode openGl _ => exact own_updatePaintNode s openGl
  | geometryChange size =>
    have same := own_geometryChange sameSize s size
    exact ⟨congrArg VideoRenderer.track same, .quiet (congrArg VideoRenderer.pendingBuffer same)⟩
  | sampledRender p => exact ⟨rfl, .quiet rfl⟩
  | keepsTrack | setVideoTrack | clearVideoTrack => cases own

/-- A track that is given is the item's track; with another one nothing waits. -/
theorem setVideoTrack_move {track : Option Nat} (run : itemStep sameSize s (.setVideoTrack track) = some (t, out)) :
    out = [] ∧ t.renderer.track = track ∧
      (s.renderer.track = track ∧ t = s ∨ s.renderer.track ≠ track ∧ t.renderer.pendingBuffer = none) := by
  cases itemMove_of_step run with
  | keepsTrack same => exact ⟨rfl, same, .inl ⟨same, rfl⟩⟩
  | setVideoTrack other _ =>
    rw [applyVideoSinkWants_keeps]
    refine ⟨rfl, rfl, .inr ⟨other, ?_⟩⟩
    rw [(cleared s).renderer]
    rfl

theorem clearVideoTrack_move (run : itemStep sameSize s .clearVideoTrack = some (t, out)) :
    out = [] ∧ t.renderer.track = none ∧ t.renderer.pendingBuffer = none := by
  cases itemMove_of_step run with
  | clearVideoTrack _ =>
    rw [(cleared s).renderer]
    exact ⟨rfl, rfl, rfl⟩

end Items

/-! The client and its items. -/

/-- The items are as the history says: only the renderer has a track, the one
it was given, and what waits in it is a frame of this track. -/
structure Viewed (s : Views) (h : Handed) : Prop where
  renderer : s.renderer = h.renderer
  kept : ∀ i, ItemKept (s.items i)
  track : ∀ i, (s.items i).renderer.track = if h.renderer = some (.videoRenderer i) then h.track else none
  waits : ∀ i frame, (s.items i).renderer.pendingBuffer = some frame →
    h.renderer = some (.videoRenderer i) ∧ frame.number ∈ h.frames

theorem Viewed.start : Viewed {} {} :=
  ⟨rfl, fun _ => .start, fun _ => rfl, fun _ _ waits => by cases waits⟩

section Views
variable {sameSize : Size → Size → Bool} {s t : Views} {h : Handed} {log out : List ViewAction}

theorem onItem_spec {i : Nat} {e : ItemEvent} (run : onItem sameSize s i e = some (t, out)) :
    ∃ item made, itemStep sameSize (s.items i) e = some (item, made) ∧
      t = { s with items := Function.update s.items i item } ∧ out = made.map (.item i) := by
  obtain ⟨⟨item, made⟩, step, same⟩ := Option.map_eq_some_iff.mp run
  cases same
  exact ⟨item, made, step, rfl, rfl⟩

/-- An item that owns no track any more, in a history without one. -/
theorem Viewed.cleared (viewed : Viewed s h) {i : Nat} (only : ∀ j, h.renderer = some (.videoRenderer j) → j = i)
    {item : Item} {made : List ItemAction} (step : itemStep sameSize (s.items i) .clearVideoTrack = some (item, made)) :
    made = [] ∧ Viewed { s with items := Function.update s.items i item } { h with track := none, frames := [] } := by
  obtain ⟨silent, track, waits⟩ := clearVideoTrack_move step
  refine ⟨silent, viewed.renderer, fun j => ?_, fun j => ?_, fun j frame there => ?_⟩
  · simp only [Function.update_apply]
    split
    · exact (viewed.kept i).step step
    · exact viewed.kept j
  · simp only [Function.update_apply, ite_self]
    split
    · exact track
    · rename_i other
      rw [viewed.track j, if_neg fun own => other (only j own)]
  · simp only [Function.update_apply] at there
    split at there
    · rw [waits] at there
      cases there
    · rename_i other
      exact absurd (only j (viewed.waits j frame there).1) other

/-- The renderer's track is cleared, whatever the renderer is. -/
theorem Viewed.clearRenderer (viewed : Viewed s h) (run : onRenderer sameSize s .clearVideoTrack = some (t, out)) :
    out = [] ∧ Viewed t { h with track := none, frames := [] } := by
  unfold onRenderer at run
  split at run
  · rename_i i atRenderer
    obtain ⟨item, made, step, rfl, rfl⟩ := onItem_spec run
    have only (j : Nat) (own : h.renderer = some (.videoRenderer j)) : j = i := by
      rw [← viewed.renderer, atRenderer] at own
      cases own
      rfl
    obtain ⟨silent, clear⟩ := viewed.cleared only step
    exact ⟨by rw [silent]; rfl, clear⟩
  · rename_i noItem
    cases run
    have nobody (i : Nat) : h.renderer ≠ some (.videoRenderer i) := by
      rw [← viewed.renderer]
      exact noItem i
    refine ⟨rfl, viewed.renderer, viewed.kept, fun i => ?_, fun i frame there => ?_⟩
    · rw [viewed.track i, if_neg (nobody i), if_neg (nobody i)]
    · exact absurd (viewed.waits i frame there).1 (nobody i)

theorem Viewed.ready (viewed : Viewed s h) {track : Nat}
    (run : onRenderer sameSize s (.setVideoTrack (some track)) = some (t, out)) :
    out = [] ∧ Viewed t (h.givenTrack track) := by
  unfold onRenderer at run
  split at run
  · rename_i i atRenderer
    obtain ⟨item, made, step, rfl, rfl⟩ := onItem_spec run
    obtain ⟨silent, given, cases⟩ := setVideoTrack_move step
    have own : h.renderer = some (.videoRenderer i) := viewed.renderer ▸ atRenderer
    have before : (s.items i).renderer.track = h.track := by rw [viewed.track i, if_pos own]
    have kept (j : Nat) : ItemKept (Function.update s.items i item j) := by
      rw [Function.update_apply]
      split
      · exact (viewed.kept i).step step
      · exact viewed.kept j
    refine ⟨by rw [silent]; rfl, ?_⟩
    rcases cases with ⟨already, rfl⟩ | ⟨changed, empty⟩
    · rw [Function.update_eq_self]
      have same : h.givenTrack track = h := by
        simp only [Handed.givenTrack, own, if_pos (before.symm.trans already)]
      rw [same]
      exact viewed
    · have other : h.track ≠ some track := before ▸ changed
      have fresh : h.givenTrack track = { h with track := some track, frames := [] } := by
        simp only [Handed.givenTrack, own, if_neg other]
      rw [fresh]
      refine ⟨viewed.renderer, kept, fun j => ?_, fun j frame there => ?_⟩
      · simp only [Function.update_apply]
        split
        · rename_i here
          rw [here, if_pos own, given]
        · rename_i notHere
          have foreign : h.renderer ≠ some (.videoRenderer j) := by
            rw [own]
            exact fun same => notHere (QObject.videoRenderer.inj (Option.some.inj same)).symm
          rw [viewed.track j, if_neg foreign, if_neg foreign]
      · simp only [Function.update_apply] at there
        split at there
        · rw [empty] at there
          cases there
        · rename_i notHere
          have mine := (viewed.waits j frame there).1
          rw [own] at mine
          exact absurd (QObject.videoRenderer.inj (Option.some.inj mine)).symm notHere
  · rename_i noItem
    cases run
    refine ⟨rfl, ?_⟩
    have same : h.givenTrack track = h := by
      unfold Handed.givenTrack
      split
      · rename_i i own
        exact absurd (viewed.renderer.trans own) (noItem i)
      · rfl
    rw [same]
    exact viewed

/-- Another renderer, after the old one was cleared. -/
theorem Viewed.setRenderer (viewed : Viewed s { h with track := none, frames := [] }) (renderer : Option QObject) :
    Viewed { s with renderer := renderer } ⟨renderer, none, []⟩ := by
  refine ⟨rfl, viewed.kept, fun i => ?_, fun i frame there => ?_⟩
  · rw [viewed.track i, ite_self, ite_self]
  · exact absurd (viewed.waits i frame there).2 List.not_mem_nil

/-- An item that QML clears. -/
theorem Viewed.clearItem (viewed : Viewed s h) {i : Nat} {item : Item} {made : List ItemAction}
    (step : itemStep sameSize (s.items i) .clearVideoTrack = some (item, made)) :
    made = [] ∧ Viewed { s with items := Function.update s.items i item } (h.after (.cleared i)) := by
  by_cases own : h.renderer = some (.videoRenderer i)
  · simp only [Handed.after, if_pos own]
    refine viewed.cleared (fun j other => ?_) step
    rw [own] at other
    exact (QObject.videoRenderer.inj (Option.some.inj other)).symm
  · simp only [Handed.after, if_neg own]
    obtain ⟨silent, track, waits⟩ := clearVideoTrack_move step
    refine ⟨silent, viewed.renderer, fun j => ?_, fun j => ?_, fun j frame there => ?_⟩
    · simp only [Function.update_apply]
      split
      · exact (viewed.kept i).step step
      · exact viewed.kept j
    · simp only [Function.update_apply]
      split
      · rename_i here
        rw [track, here, if_neg own]
      · exact viewed.track j
    · simp only [Function.update_apply] at there
      split at there
      · rw [waits] at there
        cases there
      · exact viewed.waits j frame there

/-- An item that goes on by itself shows what it was given. -/
theorem Viewed.own (viewed : Viewed s (handed log)) {i : Nat} {e : ItemEvent} (own : ownEvent e = true)
    (run : onItem sameSize s i e = some (t, out)) :
    Viewed t (handed (log ++ out)) ∧ Machine.Throughout Shows log out := by
  obtain ⟨item, made, step, rfl, rfl⟩ := onItem_spec run
  obtain ⟨track, move⟩ := ownMove_of_step own step
  rw [handed_append]
  -- only the frames of the track may be others
  have next {frames : List Nat} (more : ∀ n ∈ (handed log).frames, n ∈ frames)
      (waits : ∀ frame, item.renderer.pendingBuffer = some frame →
        (handed log).renderer = some (.videoRenderer i) ∧ frame.number ∈ frames) :
      Viewed { s with items := Function.update s.items i item } { handed log with frames := frames } := by
    refine ⟨viewed.renderer, fun j => ?_, fun j => ?_, fun j frame there => ?_⟩
    · simp only [Function.update_apply]
      split
      · exact (viewed.kept i).step step
      · exact viewed.kept j
    · simp only [Function.update_apply]
      split
      · rename_i here
        rw [track, here]
        exact viewed.track i
      · exact viewed.track j
    · simp only [Function.update_apply] at there
      split at there
      · rename_i here
        exact here ▸ waits frame there
      · obtain ⟨mine, known⟩ := viewed.waits j frame there
        exact ⟨mine, more _ known⟩
  cases move with
  | quiet waits =>
    exact ⟨next (fun _ known => known) fun frame there => viewed.waits i frame (waits ▸ there), trivial⟩
  | @delivered track number registered waits =>
    have owns : (s.items i).renderer.track = some track := (viewed.kept i).registered track registered
    rw [viewed.track i] at owns
    split at owns
    · rename_i mine
      refine ⟨next (fun n known => List.mem_append_left _ known) fun frame there => ⟨mine, ?_⟩, ⟨mine, owns⟩, trivial⟩
      rcases waits frame there with new | old
      · exact new ▸ List.mem_append_right _ List.mem_cons_self
      · exact List.mem_append_left _ (viewed.waits i frame old).2
    · cases owns
  | @taken frame waited empty =>
    refine ⟨next (fun _ known => known) fun other there => ?_, viewed.waits i frame waited, trivial⟩
    rw [empty] at there
    cases there

theorem Viewed.step (viewed : Viewed s (handed log)) {e : ViewEvent} (run : viewStep sameSize s e = some (t, out)) :
    Viewed t (handed (log ++ out)) ∧ Machine.Throughout Shows log out := by
  cases e with
  | onTrack transceiver =>
    cases run
    rw [List.append_nil]
    exact ⟨⟨viewed.renderer, viewed.kept, viewed.track, viewed.waits⟩, trivial⟩
  | remoteVideoTrackReady =>
    simp only [viewStep] at run
    split at run
    · cases run
    · rename_i track rest _
      obtain ⟨⟨next, made⟩, given, same⟩ := Option.map_eq_some_iff.mp run
      have posted : Viewed { s with posted := rest } (handed log) :=
        ⟨viewed.renderer, viewed.kept, viewed.track, viewed.waits⟩
      obtain ⟨rfl, after⟩ := posted.ready given
      cases same
      rw [handed_append]
      exact ⟨after, trivial, trivial⟩
  | setVideoRenderer renderer =>
    simp only [viewStep, setVideoRenderer] at run
    split at run
    · cases run
      rw [List.append_nil]
      exact ⟨viewed, trivial⟩
    · obtain ⟨⟨next, made⟩, clear, same⟩ := Option.map_eq_some_iff.mp run
      obtain ⟨rfl, after⟩ := viewed.clearRenderer clear
      cases same
      rw [handed_append]
      exact ⟨after.setRenderer renderer, trivial, trivial⟩
  | disconnect =>
    obtain ⟨⟨next, made⟩, clear, same⟩ := Option.map_eq_some_iff.mp run
    obtain ⟨rfl, after⟩ := viewed.clearRenderer clear
    cases same
    rw [handed_append]
    exact ⟨after, trivial, trivial⟩
  | clearVideoTrack i =>
    obtain ⟨⟨next, made⟩, clear, same⟩ := Option.map_eq_some_iff.mp run
    obtain ⟨item, silent, step, rfl, rfl⟩ := onItem_spec clear
    obtain ⟨rfl, after⟩ := viewed.clearItem step
    cases same
    rw [handed_append]
    exact ⟨after, trivial, trivial⟩
  | item i e =>
    simp only [viewStep] at run
    split at run
    · rename_i own
      exact viewed.own own run
    · cases run

/-- In every interleaving of the client, its WebRTC threads and all items:
frames reach only the renderer that was set last, of the track that it was
given last, and the scene graph of an item takes no frame of an earlier track; an
item is a sink of this track only, so of none from a disconnect until a track
is ready again. -/
theorem frames_of_given_track (reach : (views sameSize).Reach Machine.Always s log) :
    Machine.Throughout Shows [] log ∧
      ∀ i track, (s.items i).sinks track ≠ none →
        (handed log).renderer = some (.videoRenderer i) ∧ (handed log).track = some track := by
  have held : Viewed s (handed log) ∧ Machine.Throughout Shows [] log := by
    refine reach.invariant (P := fun s log => Viewed s (handed log) ∧ Machine.Throughout Shows [] log)
      ⟨.start, trivial⟩ ?_
    intro s log e t out held _ run
    obtain ⟨viewed, shows⟩ := held.1.step run
    exact ⟨viewed, Machine.throughout_append.mpr ⟨held.2, by simpa using shows⟩⟩
  refine ⟨held.2, fun i track there => ?_⟩
  have owns : (s.items i).renderer.track = some track := (held.1.kept i).registered track there
  rw [held.1.track i] at owns
  split at owns
  · rename_i mine
    exact ⟨mine, owns⟩
  · cases owns

end Views

/-- A track that a second renderer is given, while a frame of the first track
was not taken. -/
def replacedTrack : List ViewEvent :=
  [.setVideoRenderer (some (.videoRenderer 1)), .onTrack (some ⟨.video, some ⟨some ⟨"video", 7⟩⟩⟩),
    .remoteVideoTrackReady,
    .item 1 (.onFrame 7 0 (some (.oes 5)) 0 1000), .item 1 .resume, .item 1 .resume, .item 1 .resume, .item 1 .resume,
    .setVideoRenderer (some (.videoRenderer 2)), .onTrack (some ⟨.video, some ⟨some ⟨"video", 8⟩⟩⟩),
    .remoteVideoTrackReady]

theorem frames_of_given_track_replaced :
    ∃ s log, (views fun a b => decide (a = b)).Reach Machine.Always s log ∧
      handed log = ⟨some (.videoRenderer 2), some 8, []⟩ ∧ Machine.Throughout Shows [] log := by
  have run : (views fun a b => decide (a = b)).Reach Machine.Always _ _ :=
    .ofExec Machine.Always replacedTrack rfl (Machine.meets_always _ _)
  exact ⟨_, _, run, rfl, (frames_of_given_track run).1⟩

end WebRtcDemo.Native
