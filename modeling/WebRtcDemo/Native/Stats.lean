import WebRtcDemo.Native.Client

/-! The statistics of the connection: the timer, the reports it asks for and
what is published of them. -/

namespace WebRtcDemo.Native

/-- `RTCIceCandidatePairStats`, as far as it is read. -/
structure IceCandidatePairStats where
  nominated : Option Bool := none
  currentRoundTripTime : Option Float := none
  totalRoundTripTime : Option Float := none
  responsesReceived : Option UInt64 := none

/-- `RTCInboundRtpStreamStats`, as far as it is read. -/
structure InboundRtpStreamStats where
  kind : Option String := none
  framesDecoded : Option UInt32 := none
  totalDecodeTime : Option Float := none
  framesPerSecond : Option Float := none
  framesReceived : Option UInt32 := none
  framesDropped : Option UInt32 := none
  jitterBufferDelay : Option Float := none
  jitterBufferEmittedCount : Option UInt64 := none
  frameWidth : Option UInt32 := none
  frameHeight : Option UInt32 := none
  bytesReceived : Option UInt64 := none
  decoderImplementation : Option String := none
  jitter : Option Float := none
  packetsLost : Option Int32 := none
  packetsReceived : Option UInt32 := none
  nackCount : Option UInt32 := none
  pliCount : Option UInt32 := none
  firCount : Option UInt32 := none
  fecPacketsReceived : Option UInt64 := none

structure StatsReport where
  candidatePairs : List IceCandidatePairStats
  inboundStreams : List InboundRtpStreamStats

/-- The counters of one report; the `m_prev` members are those of an earlier one. -/
structure Counters where
  framesDecoded : UInt32 := 0
  totalDecodeTime : Float := 0.0
  framesReceived : UInt32 := 0
  framesDropped : UInt32 := 0
  jitterBufferDelay : Float := 0.0
  jitterBufferEmitted : UInt64 := 0

/-- What the posted lambda captures. `deltaJbEmitted` is in `avgJitterMs` only. -/
structure Publication where
  rttCurrentMs : Float
  avgRttMs : Float
  avgJitterMs : Float
  frameWidth : Int32
  frameHeight : Int32
  decoderImpl : String
  fps : Float
  deltaFrames : UInt32
  framesDecoded : UInt32
  avgDecodeMs : Float
  deltaDropped : UInt32
  framesDropped : UInt32
  deltaJbEmitted : UInt64
  bytesReceived : UInt64
  jitter : Float
  lossRate : Float
  packetsLost : Int64
  packetsReceived : Int64
  nackCount : Int64
  pliCount : Int64
  firCount : Int64
  fecPacketsReceived : Int64

/-- The pair at which the first loop of the callback stops; without one all its values are zero. -/
def StatsReport.nominated (report : StatsReport) : IceCandidatePairStats :=
  (report.candidatePairs.find? (·.nominated = some true)).getD {}

/-- The stream at which the second loop stops. -/
def StatsReport.video (report : StatsReport) : Option InboundRtpStreamStats :=
  report.inboundStreams.find? (·.kind = some "video")

def InboundRtpStreamStats.counters (inb : InboundRtpStreamStats) : Counters where
  framesDecoded := inb.framesDecoded.getD 0
  totalDecodeTime := inb.totalDecodeTime.getD 0.0
  framesReceived := inb.framesReceived.getD 0
  framesDropped := inb.framesDropped.getD 0
  jitterBufferDelay := inb.jitterBufferDelay.getD 0.0
  jitterBufferEmitted := inb.jitterBufferEmittedCount.getD 0

/-- The body of the second loop, up to the posting. -/
def publication (prev : Counters) (pair : IceCandidatePairStats) (inb : InboundRtpStreamStats) : Publication :=
  let cur := inb.counters
  let responsesReceived := (pair.responsesReceived.getD 0).toInt64
  let packetsLost := (inb.packetsLost.getD 0).toInt64
  let packetsReceived := (inb.packetsReceived.getD 0).toUInt64.toInt64
  let deltaFrames := cur.framesDecoded - prev.framesDecoded
  let deltaTime := cur.totalDecodeTime - prev.totalDecodeTime
  let deltaJbEmitted := cur.jitterBufferEmitted - prev.jitterBufferEmitted
  let deltaJbDelay := cur.jitterBufferDelay - prev.jitterBufferDelay
  { rttCurrentMs := pair.currentRoundTripTime.getD 0.0 * 1000.0
    avgRttMs :=
      if 0 < responsesReceived then pair.totalRoundTripTime.getD 0.0 / responsesReceived.toFloat * 1000.0 else 0.0
    avgJitterMs := if 0 < deltaJbEmitted then deltaJbDelay / deltaJbEmitted.toFloat * 1000.0 else 0.0
    frameWidth := (inb.frameWidth.getD 0).toInt32
    frameHeight := (inb.frameHeight.getD 0).toInt32
    decoderImpl := inb.decoderImplementation.getD ""
    fps := inb.framesPerSecond.getD 0.0
    deltaFrames := deltaFrames
    framesDecoded := cur.framesDecoded
    avgDecodeMs := if 0 < deltaFrames then deltaTime / deltaFrames.toFloat * 1000.0 else 0.0
    deltaDropped := cur.framesDropped - prev.framesDropped
    framesDropped := cur.framesDropped
    deltaJbEmitted := deltaJbEmitted
    bytesReceived := inb.bytesReceived.getD 0
    jitter := inb.jitter.getD 0.0
    lossRate :=
      if 0 < packetsLost + packetsReceived then
        packetsLost.toFloat * 100.0 / (packetsLost + packetsReceived).toFloat
      else 0.0
    packetsLost := packetsLost
    packetsReceived := packetsReceived
    nackCount := (inb.nackCount.getD 0).toUInt64.toInt64
    pliCount := (inb.pliCount.getD 0).toUInt64.toInt64
    firCount := (inb.firCount.getD 0).toUInt64.toInt64
    fecPacketsReceived := (inb.fecPacketsReceived.getD 0).toInt64 }

/-- The client with its statistics. `requested` are the connections asked for
a report that is still to come, `publications` the calls posted to the Qt
thread, each with the number of the report it is about. Not in the code:
`reports` numbers the reports, `reportedBy` are the connections they were of
and `prevOf` is the one that the previous values are of. -/
structure StatsState where
  client : State
  statsTimer : Bool
  prev : Counters
  rttCurrentMs : Float
  rttAvgMs : Float
  jitterBufferMs : Float
  hasConnectionStats : Bool
  requested : List Nat
  publications : List (Nat × Publication)
  reports : Nat
  reportedBy : List Nat
  prevOf : Option Nat

/-- `client` stands for everything else that the client does. -/
inductive StatsEvent
  | client (e : Event)
  | startStatsTimer
  | timeout
  | statsDelivered (conn : Nat) (report : StatsReport)
  | publish
  | stopStatsTimer

/-- `reported` records a report with a video stream. -/
inductive StatsAction
  | client (a : Action)
  | getStats (conn : Nat)
  | reported (number conn : Nat) (counters : Counters)
  | published (number : Nat) (p : Publication)
  | connectionStatsChanged

def startStatsTimer (s : StatsState) : StatsState :=
  if s.statsTimer then s else { s with prev := {}, prevOf := none, statsTimer := true }

/-- The lambda of the timer. -/
def timeout (s : StatsState) : StatsState × List StatsAction :=
  match s.client.peerConnection with
  | none => (s, [])
  | some c => ({ s with requested := s.requested ++ [c] }, [.getStats c])

/-- The lambda of `StatsCallback`. -/
def statsDelivered (s : StatsState) (conn : Nat) (report : StatsReport) : StatsState × List StatsAction :=
  match report.video with
  | none => (s, [])
  | some inb =>
    ({ s with
        publications := s.publications ++ [(s.reports, publication s.prev report.nominated inb)]
        prev := inb.counters
        reports := s.reports + 1
        reportedBy := conn :: s.reportedBy
        prevOf := some conn },
      [.reported s.reports conn inb.counters])

/-- The posted lambda. -/
def publish (s : StatsState) (number : Nat) (p : Publication) : StatsState × List StatsAction :=
  ({ s with
      rttCurrentMs := p.rttCurrentMs
      rttAvgMs := p.avgRttMs
      jitterBufferMs := p.avgJitterMs
      hasConnectionStats := true },
    [.connectionStatsChanged, .published number p])

def resetConnectionStats (s : StatsState) : StatsState × List StatsAction :=
  ({ s with rttCurrentMs := 0.0, rttAvgMs := 0.0, jitterBufferMs := 0.0, hasConnectionStats := false },
    if s.hasConnectionStats then [.connectionStatsChanged] else [])

def stopStatsTimer (s : StatsState) : StatsState × List StatsAction :=
  resetConnectionStats { s with statsTimer := false }

/-- `disconnect` begins with `stopStatsTimer`; no other call of the client uses the statistics. -/
def clientEvent (s : StatsState) (e : Event) : StatsState × List StatsAction :=
  match e with
  | .disconnect => stopStatsTimer s
  | _ => (s, [])

/-- The timer fires while it exists. WebRTC delivers a report it was asked for
at any later time, and posted calls run in the order they were posted. -/
def statsStep (s : StatsState) (e : StatsEvent) : Option (StatsState × List StatsAction) :=
  if s.client.crashed then none
  else match e with
    | .client e =>
      match step s.client e with
      | none => none
      | some (client, out) =>
        let (s, stopped) := clientEvent s e
        some ({ s with client := client }, stopped ++ out.map .client)
    | .startStatsTimer => some (startStatsTimer s, [])
    | .timeout => if s.statsTimer then some (timeout s) else none
    | .statsDelivered conn report =>
      if conn ∈ s.requested then
        some (statsDelivered { s with requested := s.requested.erase conn } conn report)
      else none
    | .publish =>
      match s.publications with
      | [] => none
      | (number, p) :: rest => some (publish { s with publications := rest } number p)
    | .stopStatsTimer => some (stopStatsTimer s)

def initialStats : StatsState where
  client := initial
  statsTimer := false
  prev := {}
  rttCurrentMs := 0.0
  rttAvgMs := 0.0
  jitterBufferMs := 0.0
  hasConnectionStats := false
  requested := []
  publications := []
  reports := 0
  reportedBy := []
  prevOf := none

def statsClient : Machine StatsState StatsEvent StatsAction := ⟨initialStats, statsStep⟩

/-- Between a stop and the next start nothing is shown. -/
def NothingShown (s : StatsState) : Prop :=
  s.statsTimer = false →
    s.hasConnectionStats = false ∧ s.rttCurrentMs = 0.0 ∧ s.rttAvgMs = 0.0 ∧ s.jitterBufferMs = 0.0

/-- The counters of every connection only grow from one report to the next. -/
def NonDecreasing (log : List StatsAction) : Prop :=
  ∀ m n c a b, .reported m c a ∈ log → .reported n c b ∈ log → m ≤ n →
    a.framesDecoded ≤ b.framesDecoded ∧ a.framesDropped ≤ b.framesDropped ∧
      a.jitterBufferEmitted ≤ b.jitterBufferEmitted

/-- What the report may be compared with: an earlier one of its connection, or
zero if it is the first. -/
def Base (log : List StatsAction) (number conn : Nat) (base : Counters) : Prop :=
  (base = {} ∧ ∀ m a, .reported m conn a ∈ log → number ≤ m) ∨
    ∃ m, m < number ∧ .reported m conn base ∈ log

/-- The deltas are differences of two reports of one connection, and they do
not wrap if its counters do not decrease. -/
def OwnDeltas (log : List StatsAction) (number : Nat) (p : Publication) : Prop :=
  ∃ conn cur base, .reported number conn cur ∈ log ∧ Base log number conn base ∧
    p.deltaFrames = cur.framesDecoded - base.framesDecoded ∧
    p.deltaDropped = cur.framesDropped - base.framesDropped ∧
    p.deltaJbEmitted = cur.jitterBufferEmitted - base.jitterBufferEmitted ∧
    (NonDecreasing log →
      p.deltaFrames.toNat + base.framesDecoded.toNat = cur.framesDecoded.toNat ∧
      p.deltaDropped.toNat + base.framesDropped.toNat = cur.framesDropped.toNat ∧
      p.deltaJbEmitted.toNat + base.jitterBufferEmitted.toNat = cur.jitterBufferEmitted.toNat)

def Separate (s : StatsState) (log : List StatsAction) : Prop :=
  NothingShown s ∧ ∀ number p, .published number p ∈ log → OwnDeltas log number p

/-- A posted call runs while the timer exists, and a report with a video stream
is of the connection that the previous values are of or, after a start, of one
that has not reported yet. -/
def InSession (s : StatsState) : StatsEvent → Prop
  | .publish => s.statsTimer = true
  | .statsDelivered conn report =>
    report.video.isSome = true →
      match s.prevOf with
      | some c => conn = c
      | none => conn ∉ s.reportedBy
  | _ => True

/-! One step. -/

variable {s t : StatsState} {e : StatsEvent} {log out : List StatsAction}

/-- Neither a report nor a publication. -/
def Unreported (out : List StatsAction) : Prop :=
  (∀ number conn counters, .reported number conn counters ∉ out) ∧ ∀ number p, .published number p ∉ out

/-- The members that only deliveries and starts write are as before. -/
def SameReports (s t : StatsState) : Prop :=
  t.prev = s.prev ∧ t.reports = s.reports ∧ t.reportedBy = s.reportedBy ∧ t.prevOf = s.prevOf

/-- What a step can do. -/
inductive StatsMove (s : StatsState) : StatsEvent → StatsState → List StatsAction → Prop
  | quiet {e : StatsEvent} {t : StatsState} {out : List StatsAction} (silent : Unreported out)
      (same : SameReports s t) (queue : t.publications = s.publications)
      (shown : NothingShown s → NothingShown t) : StatsMove s e t out
  | started {t : StatsState} (zero : t.prev = {}) (prevOf : t.prevOf = none) (running : t.statsTimer = true)
      (reports : t.reports = s.reports) (reportedBy : t.reportedBy = s.reportedBy)
      (queue : t.publications = s.publications) : StatsMove s .startStatsTimer t []
  | delivered {conn report inb t} (video : report.video = some inb) (prev : t.prev = inb.counters)
      (prevOf : t.prevOf = some conn) (reports : t.reports = s.reports + 1)
      (reportedBy : t.reportedBy = conn :: s.reportedBy) (shown : NothingShown s → NothingShown t)
      (queue : t.publications = s.publications ++ [(s.reports, publication s.prev report.nominated inb)]) :
      StatsMove s (.statsDelivered conn report) t [.reported s.reports conn inb.counters]
  | published {number p rest t} (queue : s.publications = (number, p) :: rest) (same : SameReports s t)
      (rest : t.publications = rest) (timer : t.statsTimer = s.statsTimer) :
      StatsMove s .publish t [.connectionStatsChanged, .published number p]

theorem Unreported.nil : Unreported [] :=
  ⟨fun _ _ _ => List.not_mem_nil, fun _ _ => List.not_mem_nil⟩

theorem unreported_client (actions : List Action) : Unreported (actions.map .client) := by
  constructor <;> simp

theorem Unreported.append {one two : List StatsAction} (first : Unreported one) (second : Unreported two) :
    Unreported (one ++ two) := by
  simp only [Unreported, List.mem_append, not_or]
  exact ⟨fun n c v => ⟨first.1 n c v, second.1 n c v⟩, fun n p => ⟨first.2 n p, second.2 n p⟩⟩

theorem stopStatsTimer_unreported (s : StatsState) : Unreported (stopStatsTimer s).2 := by
  unfold stopStatsTimer resetConnectionStats
  split <;> simp [Unreported]

theorem stopStatsTimer_shown (s : StatsState) : NothingShown (stopStatsTimer s).1 :=
  fun _ => ⟨rfl, rfl, rfl, rfl⟩

theorem clientEvent_move (s : StatsState) (e : Event) :
    Unreported (clientEvent s e).2 ∧ SameReports s (clientEvent s e).1 ∧
      (clientEvent s e).1.publications = s.publications ∧
      (NothingShown s → NothingShown (clientEvent s e).1) := by
  unfold clientEvent
  split
  · exact ⟨stopStatsTimer_unreported s, ⟨rfl, rfl, rfl, rfl⟩, rfl, fun _ => stopStatsTimer_shown s⟩
  · exact ⟨.nil, ⟨rfl, rfl, rfl, rfl⟩, rfl, id⟩

theorem statsStep_move (run : statsStep s e = some (t, out)) : StatsMove s e t out := by
  unfold statsStep at run
  split at run
  · cases run
  cases e with
  | client e =>
    simp only at run
    split at run
    · cases run
    · cases run
      obtain ⟨silent, same, queue, shown⟩ := clientEvent_move s e
      exact .quiet (silent.append (unreported_client _)) same queue shown
  | startStatsTimer =>
    cases run
    unfold startStatsTimer
    split
    · exact .quiet .nil ⟨rfl, rfl, rfl, rfl⟩ rfl id
    · exact .started rfl rfl rfl rfl rfl rfl
  | timeout =>
    simp only [Option.ite_none_right_eq_some, timeout] at run
    obtain ⟨_, run⟩ := run
    split at run
    · cases run
      exact .quiet .nil ⟨rfl, rfl, rfl, rfl⟩ rfl id
    · cases run
      exact .quiet (by simp [Unreported]) ⟨rfl, rfl, rfl, rfl⟩ rfl id
  | statsDelivered conn report =>
    simp only [Option.ite_none_right_eq_some, statsDelivered] at run
    obtain ⟨_, run⟩ := run
    split at run
    · cases run
      exact .quiet .nil ⟨rfl, rfl, rfl, rfl⟩ rfl id
    · rename_i inb video
      cases run
      exact .delivered video rfl rfl rfl rfl id rfl
  | publish =>
    simp only at run
    split at run
    · cases run
    · rename_i number p rest queue
      cases run
      exact .published queue ⟨rfl, rfl, rfl, rfl⟩ rfl rfl
  | stopStatsTimer =>
    cases run
    exact .quiet (stopStatsTimer_unreported s) ⟨rfl, rfl, rfl, rfl⟩ rfl fun _ => stopStatsTimer_shown s

/-! The deltas of one publication. -/

theorem NonDecreasing.earlier (grow : NonDecreasing (log ++ out)) : NonDecreasing log :=
  fun m n c a b first second => grow m n c a b (List.mem_append_left _ first) (List.mem_append_left _ second)

theorem Base.extend {number conn : Nat} {base : Counters} (old : Base log number conn base)
    (later : ∀ m c a, .reported m c a ∈ out → number < m) : Base (log ++ out) number conn base := by
  rcases old with ⟨zero, first⟩ | ⟨m, before, report⟩
  · refine .inl ⟨zero, fun m a member => ?_⟩
    rcases List.mem_append.mp member with old | new
    · exact first m a old
    · exact (later m conn a new).le
  · exact .inr ⟨m, before, List.mem_append_left _ report⟩

theorem OwnDeltas.extend {number : Nat} {p : Publication} (own : OwnDeltas log number p)
    (later : ∀ m c a, .reported m c a ∈ out → number < m) : OwnDeltas (log ++ out) number p := by
  obtain ⟨conn, cur, base, report, based, frames, dropped, emitted, exact⟩ := own
  exact ⟨conn, cur, base, List.mem_append_left _ report, based.extend later, frames, dropped, emitted,
    fun grow => exact grow.earlier⟩

/-- What is no report changes nothing about the deltas. -/
theorem OwnDeltas.keep {number : Nat} {p : Publication} (own : OwnDeltas log number p)
    (none : ∀ m c a, .reported m c a ∉ out) : OwnDeltas (log ++ out) number p :=
  own.extend fun m c a new => absurd new (none m c a)

/-- Counters that do not decrease are at least those they are compared with. -/
theorem Base.le {number conn : Nat} {base cur : Counters} (based : Base log number conn base)
    (report : .reported number conn cur ∈ log) (grow : NonDecreasing log) :
    base.framesDecoded ≤ cur.framesDecoded ∧ base.framesDropped ≤ cur.framesDropped ∧
      base.jitterBufferEmitted ≤ cur.jitterBufferEmitted := by
  rcases based with ⟨rfl, _⟩ | ⟨m, before, earlier⟩
  · exact ⟨UInt32.zero_le, UInt32.zero_le, UInt64.zero_le⟩
  · exact grow m number conn base cur earlier report before.le

theorem publication_ownDeltas {number conn : Nat} {base : Counters} (pair : IceCandidatePairStats)
    {inb : InboundRtpStreamStats} (report : .reported number conn inb.counters ∈ log)
    (based : Base log number conn base) : OwnDeltas log number (publication base pair inb) := by
  refine ⟨conn, inb.counters, base, report, based, rfl, rfl, rfl, fun grow => ?_⟩
  obtain ⟨frames, dropped, emitted⟩ := based.le report grow
  simp only [publication]
  rw [UInt32.toNat_sub_of_le _ _ frames, UInt32.toNat_sub_of_le _ _ dropped, UInt64.toNat_sub_of_le _ _ emitted]
  exact ⟨Nat.sub_add_cancel frames, Nat.sub_add_cancel dropped, Nat.sub_add_cancel emitted⟩

/-! A run. -/

/-- The previous values are those of a report that was made, or zero after a start. -/
structure Recorded (s : StatsState) (log : List StatsAction) : Prop where
  numbered : ∀ number conn counters, .reported number conn counters ∈ log → number < s.reports
  known : ∀ number conn counters, .reported number conn counters ∈ log → conn ∈ s.reportedBy
  zero : s.prevOf = none → s.prev = {}
  made : ∀ conn, s.prevOf = some conn → ∃ number, .reported number conn s.prev ∈ log

structure Consistent (s : StatsState) (log : List StatsAction) : Prop where
  shown : NothingShown s
  recorded : Recorded s log
  queued : ∀ number p, (number, p) ∈ s.publications → OwnDeltas log number p
  published : ∀ number p, .published number p ∈ log → OwnDeltas log number p

theorem Recorded.keep (recorded : Recorded s log) (none : ∀ number conn counters, .reported number conn counters ∉ out)
    (same : SameReports s t) : Recorded t (log ++ out) := by
  obtain ⟨prev, reports, reportedBy, prevOf⟩ := same
  have old {number conn : Nat} {counters : Counters} (member : .reported number conn counters ∈ log ++ out) :
      .reported number conn counters ∈ log :=
    (List.mem_append.mp member).resolve_right (none _ _ _)
  refine ⟨?_, ?_, ?_, ?_⟩
  · intro number conn counters member
    rw [reports]
    exact recorded.numbered _ _ _ (old member)
  · intro number conn counters member
    rw [reportedBy]
    exact recorded.known _ _ _ (old member)
  · rw [prevOf, prev]
    exact recorded.zero
  · intro conn atPrev
    rw [prevOf] at atPrev
    obtain ⟨number, report⟩ := recorded.made conn atPrev
    rw [prev]
    exact ⟨number, List.mem_append_left _ report⟩

theorem OwnDeltas.number_lt {number : Nat} {p : Publication} (own : OwnDeltas log number p)
    (recorded : Recorded s log) : number < s.reports := by
  obtain ⟨conn, cur, base, report, _⟩ := own
  exact recorded.numbered _ _ _ report

/-- A report admitted by the condition may be compared with the previous values. -/
theorem Recorded.base {conn : Nat} {report : StatsReport} {inb : InboundRtpStreamStats} (recorded : Recorded s log)
    (video : report.video = some inb) (inSession : InSession s (.statsDelivered conn report)) :
    Base (log ++ [.reported s.reports conn inb.counters]) s.reports conn s.prev := by
  have own := inSession (by rw [video]; rfl)
  cases atPrev : s.prevOf with
  | none =>
    simp only [atPrev] at own
    refine .inl ⟨recorded.zero atPrev, fun m a member => ?_⟩
    rcases List.mem_append.mp member with old | new
    · exact absurd (recorded.known _ _ _ old) own
    · cases List.mem_singleton.mp new
      exact le_rfl
  | some c =>
    simp only [atPrev] at own
    subst own
    obtain ⟨m, earlier⟩ := recorded.made conn atPrev
    exact .inr ⟨m, recorded.numbered _ _ _ earlier, List.mem_append_left _ earlier⟩

theorem Recorded.delivered {conn : Nat} {counters : Counters} (recorded : Recorded s log)
    (prev : t.prev = counters) (prevOf : t.prevOf = some conn) (reports : t.reports = s.reports + 1)
    (reportedBy : t.reportedBy = conn :: s.reportedBy) :
    Recorded t (log ++ [.reported s.reports conn counters]) := by
  refine ⟨?_, ?_, ?_, ?_⟩
  · intro number c a member
    rw [reports]
    rcases List.mem_append.mp member with old | new
    · exact (recorded.numbered _ _ _ old).trans (Nat.lt_succ_self _)
    · cases List.mem_singleton.mp new
      exact Nat.lt_succ_self _
  · intro number c a member
    rw [reportedBy]
    rcases List.mem_append.mp member with old | new
    · exact List.mem_cons_of_mem _ (recorded.known _ _ _ old)
    · cases List.mem_singleton.mp new
      exact List.mem_cons_self
  · intro none
    cases none.symm.trans prevOf
  · intro c atPrev
    cases atPrev.symm.trans prevOf
    rw [prev]
    exact ⟨s.reports, List.mem_append_right _ (List.mem_singleton_self _)⟩

/-- One step of a run in which every event is of its own session. -/
theorem Consistent.step (before : Consistent s log) (inSession : InSession s e)
    (run : statsStep s e = some (t, out)) : Consistent t (log ++ out) := by
  obtain ⟨shown, recorded, queued, published⟩ := before
  cases statsStep_move run with
  | quiet silent same queue kept =>
    refine ⟨kept shown, recorded.keep silent.1 same, fun number p member => ?_, fun number p member => ?_⟩
    · rw [queue] at member
      exact (queued number p member).keep silent.1
    · have old := (List.mem_append.mp member).resolve_right (silent.2 number p)
      exact (published number p old).keep silent.1
  | started zero prevOf running reports reportedBy queue =>
    rw [List.append_nil]
    refine ⟨fun idle => ?_, ⟨?_, ?_, fun _ => zero, fun conn atPrev => ?_⟩, ?_, published⟩
    · cases idle.symm.trans running
    · rw [reports]
      exact recorded.numbered
    · rw [reportedBy]
      exact recorded.known
    · cases atPrev.symm.trans prevOf
    · rw [queue]
      exact queued
  | @delivered conn report inb _ video prev prevOf reports reportedBy kept queue =>
    have later {number : Nat} {p : Publication} (own : OwnDeltas log number p) :
        OwnDeltas (log ++ [.reported s.reports conn inb.counters]) number p := by
      refine own.extend fun m c a new => ?_
      cases List.mem_singleton.mp new
      exact own.number_lt recorded
    refine ⟨kept shown, recorded.delivered prev prevOf reports reportedBy, fun number p member => ?_,
      fun number p member => ?_⟩
    · rw [queue] at member
      rcases List.mem_append.mp member with old | new
      · exact later (queued number p old)
      · cases List.mem_singleton.mp new
        exact publication_ownDeltas _ (List.mem_append_right _ (List.mem_singleton_self _))
          (recorded.base video inSession)
    · rcases List.mem_append.mp member with old | new
      · exact later (published number p old)
      · cases List.mem_singleton.mp new
  | @published number p rest _ queue same left timer =>
    have silent (m c : Nat) (a : Counters) :
        .reported m c a ∉ [StatsAction.connectionStatsChanged, .published number p] := by simp
    refine ⟨fun idle => ?_, recorded.keep silent same, fun k q member => ?_, fun k q member => ?_⟩
    · have running : t.statsTimer = true := timer.trans inSession
      cases idle.symm.trans running
    · rw [left] at member
      refine (queued k q ?_).keep silent
      rw [queue]
      exact List.mem_cons_of_mem _ member
    · rcases List.mem_append.mp member with old | new
      · exact (published k q old).keep silent
      · simp only [List.mem_cons, List.not_mem_nil, or_false, reduceCtorEq, false_or,
          StatsAction.published.injEq] at new
        obtain ⟨rfl, rfl⟩ := new
        refine (queued k q ?_).keep silent
        rw [queue]
        exact List.mem_cons_self

theorem initialStats_consistent : Consistent initialStats [] := by
  refine ⟨fun _ => ⟨rfl, rfl, rfl, rfl⟩, ⟨?_, ?_, fun _ => rfl, ?_⟩, ?_, ?_⟩
  · intro number conn counters member
    cases member
  · intro number conn counters member
    cases member
  · intro conn atPrev
    cases atPrev
  · intro number p member
    cases member
  · intro number p member
    cases member

/-- In every run whose posted calls run while the timer exists and whose
reports are of the session they arrive in, nothing is shown between a stop and
the next start, and every published delta is of one connection. -/
theorem separate_of_inSession (reach : statsClient.Reach InSession s log) : Separate s log := by
  have consistent : Consistent s log :=
    reach.invariant initialStats_consistent fun _ _ _ _ _ before inSession run => before.step inSession run
  exact ⟨consistent.shown, consistent.published⟩

instance (s : StatsState) : ∀ e, Decidable (InSession s e)
  | .publish => inferInstanceAs (Decidable (_ = _))
  | .statsDelivered conn report =>
    match video : report.video.isSome, atPrev : s.prevOf with
    | false, _ => isTrue fun some => nomatch video.symm.trans some
    | true, some c => decidable_of_iff (conn = c) (by simp [InSession, video, atPrev])
    | true, none => decidable_of_iff (conn ∉ s.reportedBy) (by simp [InSession, video, atPrev])
  | .client _ | .startStatsTimer | .timeout | .stopStatsTimer => isTrue trivial

/-- An offer that WebRTC accepts. -/
def accepted : StatsEvent := .client (.handleOffer "offer" "v=0" ⟨true, none, none⟩)

/-- A report with these many decoded frames. -/
def decodedFrames (count : UInt32) : StatsReport :=
  ⟨[], [{ kind := some "audio" }, { kind := some "video", framesDecoded := some count }]⟩

/-- Two connections, each with its own session. -/
def twoSessions : List StatsEvent :=
  [accepted, .startStatsTimer, .timeout, .timeout, .statsDelivered 1 (decodedFrames 60), .publish,
    .statsDelivered 1 (decodedFrames 100), .publish, .client .disconnect, accepted, .startStatsTimer, .timeout,
    .statsDelivered 2 (decodedFrames 5), .publish]

theorem separate_two_sessions :
    ∃ s log, statsClient.exec statsClient.init twoSessions = some (s, log) ∧ Separate s log ∧
      ∃ p, .published 2 p ∈ log ∧ p.deltaFrames = 5 := by
  exact ⟨_, _, rfl, separate_of_inSession (.ofExec InSession twoSessions rfl (by decide)), _,
    List.mem_of_getLast? rfl, rfl⟩

/-- A report arrives before the stop and is published after it. -/
def publishedAfterStop : List StatsEvent :=
  [accepted, .startStatsTimer, .timeout, .statsDelivered 1 (decodedFrames 60), .stopStatsTimer, .publish]

/-- A second offer replaces the connection while the timer runs. -/
def replacedWhileRunning : List StatsEvent :=
  [accepted, .startStatsTimer, .timeout, accepted, .timeout, .statsDelivered 1 (decodedFrames 100),
    .statsDelivered 2 (decodedFrames 5), .publish, .publish]

/-- The reports of a run, with the decoded frames of each. -/
def StatsAction.decoded : StatsAction → Option (Nat × Nat × UInt32)
  | .reported number conn counters => some (number, conn, counters.framesDecoded)
  | _ => none

theorem reported_decoded {number conn : Nat} {counters : Counters} (report : .reported number conn counters ∈ log) :
    (number, conn, counters.framesDecoded) ∈ log.filterMap StatsAction.decoded :=
  List.mem_filterMap.mpr ⟨_, report, rfl⟩

/-- The statistics come back after the stop, and a delta between the reports of
two connections wraps. -/
theorem not_separate :
    (¬ ∀ s log, statsClient.Reach Machine.Always s log → NothingShown s) ∧
      ¬ ∀ s log number p, statsClient.Reach Machine.Always s log → .published number p ∈ log →
        OwnDeltas log number p := by
  constructor
  · intro always
    have reach : statsClient.Reach Machine.Always _ _ := .ofExec _ publishedAfterStop rfl (Machine.meets_always _ _)
    have shown := (always _ _ reach rfl).1
    cases shown
  · intro always
    have reach : statsClient.Reach Machine.Always _ _ := .ofExec _ replacedWhileRunning rfl (Machine.meets_always _ _)
    obtain ⟨conn, cur, base, report, based, frames, _⟩ := always _ _ 1 _ reach (List.mem_of_getLast? rfl)
    have second : (1, conn, cur.framesDecoded) ∈ [(0, 1, 100), (1, 2, 5)] := reported_decoded report
    have wrapped : (4294967201 : UInt32) = cur.framesDecoded - base.framesDecoded := frames
    have two : conn = 2 ∧ cur.framesDecoded = 5 := by simpa using second
    obtain ⟨rfl, five⟩ := two
    rw [five] at wrapped
    rcases based with ⟨rfl, _⟩ | ⟨m, before, earlier⟩
    · exact absurd wrapped (by decide)
    · have first : (m, 2, base.framesDecoded) ∈ [(0, 1, 100), (1, 2, 5)] := reported_decoded earlier
      simp only [List.mem_cons, Prod.mk.injEq, List.not_mem_nil, or_false] at first
      omega

end WebRtcDemo.Native
