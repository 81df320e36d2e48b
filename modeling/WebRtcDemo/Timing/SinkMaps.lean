import WebRtcDemo.Lib.Machine
import WebRtcDemo.Lib.TakeOnce
import WebRtcDemo.Renderer.Node

/-! The maps that carry times from the decoder to the sink and to the renderer. -/

namespace WebRtcDemo.Timing

open TakeOnce

def kMaxEntries : Nat := 128

/-- What `g_mu` guards. Every call that reaches the maps is one critical section. -/
structure SinkMaps where
  g_decoded_return_us : Table UInt32 Int := ∅
  g_decode_pipeline_start_us : Table UInt32 Int := ∅

def decodeSinkRecordAfterDecoded (maps : SinkMaps) (rtp_timestamp : UInt32) (decoded_return_monotonic_us : Int) :
    SinkMaps :=
  { maps with
    g_decoded_return_us := record kMaxEntries maps.g_decoded_return_us rtp_timestamp decoded_return_monotonic_us }

/-- `out` says whether the caller gave a place to write to. -/
def decodeSinkTakeDecodedReturn (maps : SinkMaps) (rtp_timestamp : UInt32) (out : Bool) : Option Int × SinkMaps :=
  if out = false then (none, maps)
  else
    let (taken, rest) := take maps.g_decoded_return_us rtp_timestamp
    (taken, { maps with g_decoded_return_us := rest })

/-- The clock is read under the lock. -/
def recordDecodePipelineStartForE2eIfSampled (maps : SinkMaps) (tracking_id : UInt32) (now : Int) : SinkMaps :=
  if Renderer.shouldLogTrackingTimedSampleById tracking_id.toNat = false then maps
  else
    { maps with
      g_decode_pipeline_start_us := record kMaxEntries maps.g_decode_pipeline_start_us tracking_id now }

def takeDecodePipelineStartMonotonicUs (maps : SinkMaps) (tracking_id : UInt32) (out : Bool) :
    Option Int × SinkMaps :=
  if out = false then (none, maps)
  else
    let (taken, rest) := take maps.g_decode_pipeline_start_us tracking_id
    (taken, { maps with g_decode_pipeline_start_us := rest })

inductive SinkCall
  | recordAfterDecoded (rtp_timestamp : UInt32) (us : Int)
  | takeDecodedReturn (rtp_timestamp : UInt32) (out : Bool)
  | recordPipelineStart (tracking_id : UInt32) (now : Int)
  | takePipelineStart (tracking_id : UInt32) (out : Bool)
  deriving DecidableEq, Repr

/-- What a call gives back, and the maps it leaves. -/
def SinkMaps.call (maps : SinkMaps) : SinkCall → Option Int × SinkMaps
  | .recordAfterDecoded rtp us => (none, decodeSinkRecordAfterDecoded maps rtp us)
  | .takeDecodedReturn rtp out => decodeSinkTakeDecodedReturn maps rtp out
  | .recordPipelineStart id now => (none, recordDecodePipelineStartForE2eIfSampled maps id now)
  | .takePipelineStart id out => takeDecodePipelineStartMonotonicUs maps id out

def mapsAfter (calls : List SinkCall) : SinkMaps := calls.foldl (fun maps c => (maps.call c).2) {}

/-- What a call does to `g_decoded_return_us`. -/
def SinkCall.onReturns : SinkCall → Option (Call UInt32 Int)
  | .recordAfterDecoded rtp us => some (.record rtp us)
  | .takeDecodedReturn rtp true => some (.take rtp)
  | .takeDecodedReturn _ false | .recordPipelineStart _ _ | .takePipelineStart _ _ => none

/-- What a call does to `g_decode_pipeline_start_us`: an id that is not sampled is not recorded. -/
def SinkCall.onStarts : SinkCall → Option (Call UInt32 Int)
  | .recordPipelineStart id now =>
    if Renderer.shouldLogTrackingTimedSampleById id.toNat = false then none else some (.record id now)
  | .takePipelineStart id true => some (.take id)
  | .takePipelineStart _ false | .recordAfterDecoded _ _ | .takeDecodedReturn _ _ => none

/-- A call on one of the maps is lawful there, given the calls on it so far,
and any other call leaves it as it is. -/
def MapLaw (on : SinkCall → Option (Call UInt32 Int)) (map : SinkMaps → Table UInt32 Int)
    (past : List SinkCall) (c : SinkCall) : Prop :=
  let maps := mapsAfter past
  let (taken, next) := maps.call c
  match on c with
  | some onMap => Lawful kMaxEntries (past.filterMap on) (map maps) onMap taken (map next)
  | none => map next = map maps

/-- Both maps are bounded and take-once. -/
def SinkLaw (past : List SinkCall) (c : SinkCall) : Prop :=
  MapLaw SinkCall.onReturns SinkMaps.g_decoded_return_us past c ∧
    MapLaw SinkCall.onStarts SinkMaps.g_decode_pipeline_start_us past c

/-- A key that a map of 128 entries holds is not recorded in it again. -/
def RecordsFit (maps : SinkMaps) : SinkCall → Prop
  | .recordAfterDecoded rtp _ => rtp ∈ maps.g_decoded_return_us → size maps.g_decoded_return_us < kMaxEntries
  | .recordPipelineStart id _ =>
    Renderer.shouldLogTrackingTimedSampleById id.toNat = true → id ∈ maps.g_decode_pipeline_start_us →
      size maps.g_decode_pipeline_start_us < kMaxEntries
  | .takeDecodedReturn _ _ | .takePipelineStart _ _ => True

/-! Each map is a table of its own. -/

variable {on : SinkCall → Option (Call UInt32 Int)} {map : SinkMaps → Table UInt32 Int} {past : List SinkCall}
  {c : SinkCall}

/-- The calls that reach the map work on it as on a table, and the others leave it. -/
def Refines (on : SinkCall → Option (Call UInt32 Int)) (map : SinkMaps → Table UInt32 Int) : Prop :=
  ∀ maps c,
    match on c with
    | some onMap => ((SinkMaps.call maps c).1, map (maps.call c).2) = perform kMaxEntries (map maps) onMap
    | none => map (maps.call c).2 = map maps

theorem refines_returns : Refines SinkCall.onReturns SinkMaps.g_decoded_return_us := by
  intro maps c
  cases c with
  | recordAfterDecoded rtp us => rfl
  | takeDecodedReturn rtp out => cases out <;> rfl
  | recordPipelineStart id now =>
    change (recordDecodePipelineStartForE2eIfSampled maps id now).g_decoded_return_us = maps.g_decoded_return_us
    unfold recordDecodePipelineStartForE2eIfSampled
    split <;> rfl
  | takePipelineStart id out => cases out <;> rfl

theorem refines_starts : Refines SinkCall.onStarts SinkMaps.g_decode_pipeline_start_us := by
  intro maps c
  cases c with
  | recordAfterDecoded rtp us => rfl
  | takeDecodedReturn rtp out => cases out <;> rfl
  | recordPipelineStart id now =>
    simp only [SinkCall.onStarts, SinkMaps.call, recordDecodePipelineStartForE2eIfSampled]
    by_cases unsampled : Renderer.shouldLogTrackingTimedSampleById id.toNat = false
    · simp only [unsampled, if_true]
    · simp only [unsampled]
      rfl
  | takePipelineStart id out => cases out <;> rfl

theorem mapsAfter_snoc (past : List SinkCall) (c : SinkCall) :
    mapsAfter (past ++ [c]) = ((mapsAfter past).call c).2 := by
  simp [mapsAfter]

/-- After any calls the map is the table that the calls on it leave. -/
theorem Refines.run (refines : Refines on map) (new : map {} = ∅) (calls : List SinkCall) :
    map (mapsAfter calls) = run kMaxEntries (calls.filterMap on) := by
  induction calls using List.reverseRecOn with
  | nil => exact new
  | append_singleton past c ih =>
    have one := refines (mapsAfter past) c
    rw [mapsAfter_snoc, List.filterMap_append, List.filterMap_cons, List.filterMap_nil]
    cases reached : on c with
    | none =>
      rw [reached] at one
      rw [List.append_nil, ← ih]
      exact one
    | some onMap =>
      rw [reached] at one
      rw [run_snoc, ← ih]
      exact congrArg Prod.snd one

theorem Refines.law (refines : Refines on map) (new : map {} = ∅) (past : List SinkCall) (c : SinkCall) :
    MapLaw on map past c ↔ ∀ onMap ∈ on c, Fits kMaxEntries (map (mapsAfter past)) onMap := by
  have one := refines (mapsAfter past) c
  unfold MapLaw
  cases reached : on c with
  | none =>
    rw [reached] at one
    exact iff_of_true one (by simp)
  | some onMap =>
    rw [reached] at one
    have lawful := lawful_iff_fits (past.filterMap on) (by decide : 2 ≤ kMaxEntries) onMap
    rw [← refines.run new past, ← one] at lawful
    simpa using lawful

theorem sinkLaw_iff (past : List SinkCall) (c : SinkCall) : SinkLaw past c ↔ RecordsFit (mapsAfter past) c := by
  unfold SinkLaw
  rw [refines_returns.law rfl, refines_starts.law rfl]
  cases c with
  | recordAfterDecoded rtp us => simp [SinkCall.onReturns, SinkCall.onStarts, Fits, RecordsFit]
  | takeDecodedReturn rtp out => cases out <;> simp [SinkCall.onReturns, SinkCall.onStarts, Fits, RecordsFit]
  | recordPipelineStart id now =>
    by_cases unsampled : Renderer.shouldLogTrackingTimedSampleById id.toNat = false
    · simp [SinkCall.onReturns, SinkCall.onStarts, RecordsFit, unsampled]
    · simp [SinkCall.onReturns, SinkCall.onStarts, Fits, RecordsFit, unsampled]
  | takePipelineStart id out => cases out <;> simp [SinkCall.onReturns, SinkCall.onStarts, Fits, RecordsFit]

/-- The maps are bounded and take-once over a sequence of calls exactly if no
key is recorded again while its map is full. -/
theorem sinkMaps_lawful_iff (calls : List SinkCall) :
    Machine.Throughout SinkLaw [] calls ↔ Machine.Throughout (fun past c => RecordsFit (mapsAfter past) c) [] calls :=
  Machine.throughout_congr sinkLaw_iff

/-- 128 frames of which none was taken. -/
def backlog : List SinkCall := (List.range 128).map fun n => .recordAfterDecoded (UInt32.ofNat n) 0

/-- The last of them is recorded again, and the other 127 are gone. -/
theorem sinkMaps_rerecord_wipes : ¬ ∀ calls, Machine.Throughout SinkLaw [] calls := by
  intro always
  have whole := Machine.throughout_append.mp (always (backlog ++ [.recordAfterDecoded 127 1]))
  have fits := (sinkLaw_iff backlog _).mp whole.2.1
  have full : 127 ∈ (mapsAfter backlog).g_decoded_return_us ∧
      size (mapsAfter backlog).g_decoded_return_us = kMaxEntries := by decide +kernel
  exact absurd (fits full.1) (by omega)

end WebRtcDemo.Timing
