import WebRtcDemo.Lib.Binary64
import WebRtcDemo.Page.Negotiation

/-! The playback statistics of the page: the interval, the reports it asks for,
and what is reported of them. A report comes when it comes, also after its
connection was replaced. -/

namespace WebRtcDemo.Page

open Binary64

/-- An `inbound-rtp` entry, as far as it is read; what is missing is `none`. -/
structure InboundRtp where
  kind : Option String := none
  mediaType : Option String := none
  frameWidth : Option ℚ := none
  frameHeight : Option ℚ := none
  framesPerSecond : Option ℚ := none
  framesDecoded : Option ℚ := none
  framesReceived : Option ℚ := none
  framesDropped : Option ℚ := none
  bytesReceived : Option ℚ := none
  packetsLost : Option ℚ := none
  packetsReceived : Option ℚ := none
  jitter : Option ℚ := none
  jitterBufferDelay : Option ℚ := none
  jitterBufferEmittedCount : Option ℚ := none
  totalDecodeTime : Option ℚ := none
  totalProcessingDelay : Option ℚ := none
  deriving DecidableEq

structure CandidatePair where
  nominated : Bool := false
  currentRoundTripTime : Option ℚ := none
  deriving DecidableEq

inductive Stat
  | inboundRtp (s : InboundRtp)
  | candidatePair (s : CandidatePair)
  | other
  deriving DecidableEq

/-- `out`, without its two constant members. -/
structure PlaybackStats where
  frameWidth : Option ℚ := none
  frameHeight : Option ℚ := none
  framesPerSecond : Option ℚ := none
  framesDecoded : Option ℚ := none
  framesReceived : Option ℚ := none
  framesDropped : Option ℚ := none
  bytesReceived : Option ℚ := none
  packetsLost : Option ℚ := none
  packetsReceived : Option ℚ := none
  jitterMs : Option ℚ := none
  jitterBufferDelayTotalS : Option ℚ := none
  jitterBufferEmittedCount : Option ℚ := none
  jitterBufferAvgMs : Option ℚ := none
  avgDecodeMs : Option ℚ := none
  avgProcessingMs : Option ℚ := none
  rttMs : Option ℚ := none
  deriving DecidableEq

/-- `Math.round` -/
def jsRound (q : ℚ) : ℚ := ⌊q + 1 / 2⌋

/-- `Math.round(q * 1000 * 100) / 100` -/
def hundredthsMs (q : ℚ) : ℚ := div64 (jsRound (round64 (round64 (q * 1000) * 100))) 100

/-- `Math.round((dDelay / dEmit) * 1000000) / 1000` -/
def jitterBufferAvg (dDelay dEmit : ℚ) : ℚ := div64 (jsRound (round64 (div64 dDelay dEmit * 1000000))) 1000

/-- `Math.round((total / framesDecoded) * 100000) / 100`, if there are frames. -/
def perFrameMs (total framesDecoded : Option ℚ) : Option ℚ :=
  total.bind fun total => framesDecoded.bind fun frames =>
    if 0 < frames then some (div64 (jsRound (round64 (div64 total frames * 100000))) 100) else none

/-- The last entry for video. -/
def inboundOf (report : List Stat) : Option InboundRtp :=
  report.foldl (fun found s => match s with
    | .inboundRtp r => if r.kind = some "video" ∨ r.mediaType = some "video" then some r else found
    | _ => found) none

/-- The last pair that is nominated. -/
def nominatedPairOf (report : List Stat) : Option CandidatePair :=
  report.foldl (fun found s => match s with
    | .candidatePair p => if p.nominated then some p else found
    | _ => found) none

/-- A report that was asked for, with its connection and the number of times
that the statistics had been stopped. -/
structure StatsRequest where
  conn : Nat
  stops : Nat
  deriving DecidableEq, Repr

/-- The page with its statistics, the browser's intervals and the reports asked for. -/
structure StatsState where
  page : State
  statsIntervalId : Option Nat
  statsPrevJbDelay : Option ℚ
  statsPrevJbEmitted : Option ℚ
  intervals : List Nat
  nextInterval : Nat
  requests : List StatsRequest
  stops : Nat

inductive StatsEvent
  | page (e : Event)
  | interval (id : Nat)
  | fulfilStats (i : Nat) (report : List Stat)
  | rejectStats (i : Nat)
  deriving DecidableEq

/-- `reported` comes with the connection that the report is of, whether the
statistics were not stopped since it was asked for, and its values of the jitter
buffer. -/
inductive StatsAction
  | page (a : Action)
  | reported (conn : Nat) (timely : Bool) (jitterBuffer : Option (ℚ × ℚ)) (out : PlaybackStats)
  deriving DecidableEq

def statsInitial : StatsState where
  page := initial
  statsIntervalId := none
  statsPrevJbDelay := none
  statsPrevJbEmitted := none
  intervals := []
  nextInterval := 0
  requests := []
  stops := 0

def stopPlaybackStatsTimer (s : StatsState) : StatsState :=
  let s := match s.statsIntervalId with
    | some id => { s with intervals := s.intervals.erase id, statsIntervalId := none }
    | none => s
  { s with statsPrevJbDelay := none, statsPrevJbEmitted := none, stops := s.stops + 1 }

def startPlaybackStatsTimer (s : StatsState) : StatsState :=
  let s := stopPlaybackStatsTimer s
  { s with
    intervals := s.intervals ++ [s.nextInterval]
    statsIntervalId := some s.nextInterval
    nextInterval := s.nextInterval + 1 }

def pollPlaybackStats (s : StatsState) : StatsState :=
  match s.page.pc with
  | some conn => { s with requests := s.requests ++ [⟨conn, s.stops⟩] }
  | none => s

/-- `jitter_buffer_avg_ms`, if there are earlier values. -/
def jitterBufferAvgOf (s : StatsState) (jbd jbe : ℚ) : Option ℚ :=
  s.statsPrevJbDelay.bind fun prevDelay => s.statsPrevJbEmitted.bind fun prevEmitted =>
    let dDelay := round64 (jbd - prevDelay)
    let dEmit := round64 (jbe - prevEmitted)
    if 0 < dEmit then some (jitterBufferAvg dDelay dEmit) else none

/-- The values of the jitter buffer, if both are numbers. -/
def jitterBufferOf (inbound : InboundRtp) : Option (ℚ × ℚ) :=
  inbound.jitterBufferDelay.bind fun jbd => inbound.jitterBufferEmittedCount.map fun jbe => (jbd, jbe)

def inboundStats (s : StatsState) (inbound : InboundRtp) : StatsState × PlaybackStats :=
  let out : PlaybackStats := {
    frameWidth := inbound.frameWidth
    frameHeight := inbound.frameHeight
    framesPerSecond := inbound.framesPerSecond
    framesDecoded := inbound.framesDecoded
    framesReceived := inbound.framesReceived
    framesDropped := inbound.framesDropped
    bytesReceived := inbound.bytesReceived
    packetsLost := inbound.packetsLost
    packetsReceived := inbound.packetsReceived
    jitterMs := inbound.jitter.map hundredthsMs
    avgDecodeMs := perFrameMs inbound.totalDecodeTime inbound.framesDecoded
    avgProcessingMs := perFrameMs inbound.totalProcessingDelay inbound.framesDecoded }
  match jitterBufferOf inbound with
  | some (jbd, jbe) =>
    ({ s with statsPrevJbDelay := some jbd, statsPrevJbEmitted := some jbe },
      { out with
        jitterBufferDelayTotalS := some (div64 (jsRound (round64 (jbd * 100000))) 100000)
        jitterBufferEmittedCount := some jbe
        jitterBufferAvgMs := jitterBufferAvgOf s jbd jbe })
  | none => (s, out)

/-- The callback of `getStats`. -/
def reportPlaybackStats (s : StatsState) (r : StatsRequest) (report : List Stat) : StatsState × List StatsAction :=
  let timely := decide (r.stops = s.stops)
  let inbound := inboundOf report
  let (s, out) := inbound.elim (s, {}) (inboundStats s)
  let rtt := (nominatedPairOf report).bind fun pair => pair.currentRoundTripTime.map hundredthsMs
  (s, [.reported r.conn timely (inbound.bind jitterBufferOf) { out with rttMs := rtt }])

/-- What `onconnectionstatechange` does about the statistics. -/
def connectionStateChanged (s : StatsState) : StatsState :=
  match s.page.pc with
  | some j =>
    let state := (s.page.conns j).connectionState
    let s := if state = "connected" then pollPlaybackStats (startPlaybackStatsTimer s) else s
    if state = "failed" ∨ state = "closed" then stopPlaybackStatsTimer s else s
  | none => s

def pageStats (s : StatsState) (page : State) : Event → StatsState
  | .offerReceived _ _ => { stopPlaybackStatsTimer s with page := page }
  | .signalingClosed => { stopPlaybackStatsTimer s with page := page }
  | .connectionStateChange _ _ => connectionStateChanged { s with page := page }
  | _ => { s with page := page }

def statsStep (s : StatsState) : StatsEvent → Option (StatsState × List StatsAction)
  | .page e => (step s.page e).map fun (page, out) => (pageStats s page e, out.map .page)
  | .interval id => if id ∈ s.intervals then some (pollPlaybackStats s, []) else none
  | .fulfilStats i report =>
    s.requests[i]?.map fun r => reportPlaybackStats { s with requests := s.requests.eraseIdx i } r report
  | .rejectStats i => s.requests[i]?.map fun _ => ({ s with requests := s.requests.eraseIdx i }, [])

def statsPage : Machine StatsState StatsEvent StatsAction := ⟨statsInitial, statsStep⟩

variable {s t : StatsState} {log out : List StatsAction}

/-! The statistics leave the page as it is. -/

theorem stop_page (s : StatsState) : (stopPlaybackStatsTimer s).page = s.page := by
  unfold stopPlaybackStatsTimer
  cases s.statsIntervalId <;> rfl

theorem poll_keeps (s : StatsState) : pollPlaybackStats s = { s with requests := (pollPlaybackStats s).requests } := by
  unfold pollPlaybackStats
  cases s.page.pc <;> rfl

/-- What a change of the connection's state does: nothing, a stop, or a start
with a first report asked for. -/
theorem connectionStateChanged_cases (s : StatsState) :
    connectionStateChanged s = s ∨ connectionStateChanged s = stopPlaybackStatsTimer s ∨
      s.page.pc ≠ none ∧ connectionStateChanged s = pollPlaybackStats (startPlaybackStatsTimer s) := by
  unfold connectionStateChanged
  split
  · rename_i j atPc
    by_cases connected : (s.page.conns j).connectionState = "connected"
    · refine .inr (.inr ⟨by simp [atPc], ?_⟩)
      simp [connected]
    · simp only [if_neg connected]
      by_cases ended : (s.page.conns j).connectionState = "failed" ∨ (s.page.conns j).connectionState = "closed"
      · exact .inr (.inl (if_pos ended))
      · exact .inl (if_neg ended)
  · exact .inl rfl

theorem start_page (s : StatsState) : (startPlaybackStatsTimer s).page = s.page := stop_page s

theorem connectionStateChanged_page (s : StatsState) : (connectionStateChanged s).page = s.page := by
  rcases connectionStateChanged_cases s with same | same | ⟨_, same⟩ <;> rw [same]
  · exact stop_page s
  · rw [poll_keeps]
    exact start_page s

theorem pageStats_page (s : StatsState) (page : State) (e : Event) : (pageStats s page e).page = page := by
  cases e with
  | connectionStateChange => exact connectionStateChanged_page _
  | _ => rfl

/-- The values that the next report is compared with. -/
def remembering (s : StatsState) : Option (ℚ × ℚ) → StatsState
  | none => s
  | some (delay, emitted) => { s with statsPrevJbDelay := some delay, statsPrevJbEmitted := some emitted }

section Remembering
variable (s : StatsState) (sample : Option (ℚ × ℚ))

theorem remembering_page : (remembering s sample).page = s.page := by cases sample <;> rfl
theorem remembering_intervals : (remembering s sample).intervals = s.intervals := by cases sample <;> rfl
theorem remembering_statsIntervalId : (remembering s sample).statsIntervalId = s.statsIntervalId := by
  cases sample <;> rfl

end Remembering

theorem reportPlaybackStats_spec (s : StatsState) (r : StatsRequest) (report : List Stat) :
    ∃ sample stats, reportPlaybackStats s r report =
        (remembering s sample, [.reported r.conn (decide (r.stops = s.stops)) sample stats]) ∧
      stats.jitterBufferAvgMs = sample.bind fun now => jitterBufferAvgOf s now.1 now.2 := by
  unfold reportPlaybackStats
  cases inboundOf report with
  | none => exact ⟨none, _, rfl, rfl⟩
  | some inbound =>
    simp only [Option.elim, Option.bind_some, inboundStats]
    cases jitterBufferOf inbound with
    | none => exact ⟨none, _, rfl, rfl⟩
    | some now => exact ⟨some now, _, rfl, rfl⟩

theorem fulfilStats_spec {i : Nat} {report : List Stat} (run : statsStep s (.fulfilStats i report) = some (t, out)) :
    ∃ r sample stats, s.requests[i]? = some r ∧
      t = remembering { s with requests := s.requests.eraseIdx i } sample ∧
      out = [.reported r.conn (decide (r.stops = s.stops)) sample stats] ∧
      stats.jitterBufferAvgMs = sample.bind fun now => jitterBufferAvgOf s now.1 now.2 := by
  obtain ⟨r, asked, same⟩ := Option.map_eq_some_iff.mp run
  obtain ⟨sample, stats, reported, average⟩ :=
    reportPlaybackStats_spec { s with requests := s.requests.eraseIdx i } r report
  obtain ⟨rfl, rfl⟩ := Prod.mk.inj (reported.symm.trans same)
  exact ⟨r, sample, stats, asked, rfl, rfl, average⟩

theorem rejectStats_spec {i : Nat} (run : statsStep s (.rejectStats i) = some (t, out)) :
    t = { s with requests := s.requests.eraseIdx i } ∧ out = [] := by
  obtain ⟨r, _, same⟩ := Option.map_eq_some_iff.mp run
  obtain ⟨rfl, rfl⟩ := Prod.mk.inj same
  exact ⟨rfl, rfl⟩

theorem interval_spec {id : Nat} (run : statsStep s (.interval id) = some (t, out)) :
    t = pollPlaybackStats s ∧ out = [] := by
  simp only [statsStep] at run
  split at run
  · cases run
    exact ⟨rfl, rfl⟩
  · cases run

/-- What the page itself did. -/
def pageLog (log : List StatsAction) : List Action :=
  log.filterMap fun a => match a with
    | .page a => some a
    | .reported _ _ _ _ => none

theorem pageLog_append (log out : List StatsAction) : pageLog (log ++ out) = pageLog log ++ pageLog out :=
  List.filterMap_append

theorem pageLog_page (out : List Action) : pageLog (out.map .page) = out := by
  simp [pageLog, List.filterMap_map]

/-- One step of the page, or none. -/
theorem stats_page_step {e : StatsEvent} (run : statsStep s e = some (t, out)) :
    (∃ a, e = .page a ∧ step s.page a = some (t.page, pageLog out)) ∨ t.page = s.page ∧ pageLog out = [] := by
  cases e with
  | page e =>
    obtain ⟨⟨next, made⟩, stepped, same⟩ := Option.map_eq_some_iff.mp run
    cases same
    rw [pageStats_page, pageLog_page]
    exact .inl ⟨e, rfl, stepped⟩
  | interval id =>
    obtain ⟨rfl, rfl⟩ := interval_spec run
    rw [poll_keeps]
    exact .inr ⟨rfl, rfl⟩
  | fulfilStats i report =>
    obtain ⟨_, _, _, _, rfl, rfl, _⟩ := fulfilStats_spec run
    exact .inr ⟨remembering_page _ _, rfl⟩
  | rejectStats i =>
    obtain ⟨rfl, rfl⟩ := rejectStats_spec run
    exact .inr ⟨rfl, rfl⟩

/-- Without its statistics a run is a run of the page. -/
theorem stats_page_reach {ok : StatsState → StatsEvent → Prop} (reach : statsPage.Reach ok s log) :
    page.Reach Machine.Always s.page (pageLog log) := by
  induction reach with
  | start => exact .start
  | next _ _ run ih =>
    rw [pageLog_append]
    rcases stats_page_step run with ⟨a, _, stepped⟩ | ⟨same, nothing⟩
    · exact .next ih trivial stepped
    · rw [same, nothing, List.append_nil]
      exact ih

theorem remoteDescriptionSet_pc {s t : State} {k : Nat} {out : List Action}
    (run : remoteDescriptionSet s k = (t, out)) :
    t.pc = s.pc := by
  unfold remoteDescriptionSet flushPending at run
  cases atPc : s.pc <;> simp only [atPc] at run <;> cases run
  · exact atPc
  · rfl

/-- Only offers and closes replace the connection. -/
theorem step_pc {s t : State} {e : Event} {out : List Action} (run : step s e = some (t, out)) :
    (∃ sdp constructed, e = .offerReceived sdp constructed) ∨ e = .signalingClosed ∨ t.pc = s.pc := by
  cases e with
  | offerReceived sdp constructed => exact .inl ⟨sdp, constructed, rfl⟩
  | signalingClosed => exact .inr (.inl rfl)
  | iceCandidateReceived mid idx cand =>
    obtain ⟨rfl, _⟩ := iceCandidateReceived_step run
    refine .inr (.inr ?_)
    unfold iceCandidateReceived
    repeat (first | rfl | split)
  | reject k =>
    obtain ⟨rfl, _⟩ := reject_spec run
    exact .inr (.inr rfl)
  | localCandidate i candidate =>
    obtain ⟨_, rfl, _⟩ := localCandidate_spec run
    exact .inr (.inr rfl)
  | connectionStateChange i state =>
    obtain ⟨rfl, _⟩ := connectionStateChange_spec run
    exact .inr (.inr rfl)
  | fulfil k value =>
    refine .inr (.inr ?_)
    simp only [step, fulfil] at run
    split at run
    · cases run
    split at run
    · cases run
    split at run
    · exact (remoteDescriptionSet_pc (Option.some.inj run)).trans (setConn_pc s _ _)
    · cases run
      rfl
    · cases run
      rfl

/-! One interval at most. -/

/-- The interval that runs is the one that can be cleared, and it runs only with
a connection. -/
structure OneInterval (s : StatsState) : Prop where
  known : s.intervals = s.statsIntervalId.toList
  serves : s.statsIntervalId ≠ none → s.page.pc ≠ none

theorem OneInterval.stop (one : OneInterval s) :
    (stopPlaybackStatsTimer s).intervals = [] ∧ (stopPlaybackStatsTimer s).statsIntervalId = none := by
  unfold stopPlaybackStatsTimer
  have known := one.known
  cases here : s.statsIntervalId with
  | none =>
    rw [here] at known
    exact ⟨known, here⟩
  | some id =>
    rw [here] at known
    exact ⟨by simp [known], rfl⟩

theorem OneInterval.stopped (one : OneInterval s) (page : State) :
    OneInterval { stopPlaybackStatsTimer s with page := page } :=
  ⟨one.stop.1.trans (by rw [one.stop.2]; rfl), fun running => absurd one.stop.2 running⟩

theorem OneInterval.polled (one : OneInterval s) : OneInterval (pollPlaybackStats s) := by
  rw [poll_keeps]
  exact ⟨one.known, one.serves⟩

theorem OneInterval.started (one : OneInterval s) (there : s.page.pc ≠ none) :
    OneInterval (startPlaybackStatsTimer s) := by
  refine ⟨?_, fun _ => ?_⟩
  · simp only [startPlaybackStatsTimer, one.stop.1]
    rfl
  · rw [start_page]
    exact there

theorem OneInterval.connectionStateChanged (one : OneInterval s) : OneInterval (connectionStateChanged s) := by
  rcases connectionStateChanged_cases s with same | same | ⟨there, same⟩ <;> rw [same]
  · exact one
  · have stopped := one.stopped s.page
    rwa [← stop_page s] at stopped
  · exact (one.started there).polled

theorem OneInterval.page {page : State} {e : Event} (one : OneInterval s) {made : List Action}
    (run : step s.page e = some (page, made)) : OneInterval (pageStats s page e) := by
  have aside (same : page.pc = s.page.pc) : OneInterval { s with page := page } :=
    ⟨one.known, fun running => same ▸ one.serves running⟩
  rcases step_pc run with ⟨_, _, rfl⟩ | rfl | same
  · exact one.stopped page
  · exact one.stopped page
  · cases e with
    | offerReceived | signalingClosed => exact one.stopped page
    | connectionStateChange => exact (aside same).connectionStateChanged
    | iceCandidateReceived | fulfil | reject | localCandidate => exact aside same

theorem OneInterval.step {e : StatsEvent} (one : OneInterval s) (run : statsStep s e = some (t, out)) :
    OneInterval t := by
  cases e with
  | page e =>
    obtain ⟨⟨next, made⟩, stepped, same⟩ := Option.map_eq_some_iff.mp run
    cases same
    exact one.page stepped
  | interval id =>
    obtain ⟨rfl, _⟩ := interval_spec run
    exact one.polled
  | fulfilStats i report =>
    obtain ⟨_, _, _, _, rfl, _, _⟩ := fulfilStats_spec run
    refine ⟨?_, ?_⟩
    · rw [remembering_intervals, remembering_statsIntervalId]
      exact one.known
    · rw [remembering_page, remembering_statsIntervalId]
      exact one.serves
  | rejectStats i =>
    obtain ⟨rfl, _⟩ := rejectStats_spec run
    exact ⟨one.known, one.serves⟩

/-- However connections come, change and go: at most one interval runs, it is
the one that the page can clear, and while it runs the page has a connection
that is not closed, the one made for the most recent offer. -/
theorem interval_serves_connection (reach : statsPage.Reach Machine.Always s log) :
    s.intervals.length ≤ 1 ∧ (∀ id ∈ s.intervals, s.statsIntervalId = some id) ∧
      (s.intervals ≠ [] → ∃ c, s.page.pc = some c ∧ (s.page.conns c).isClosed = false ∧
        openOffer (pageLog log) = some (s.page.conns c).offer) := by
  have one : OneInterval s := reach.invariant (P := fun s _ => OneInterval s) ⟨rfl, fun running => absurd rfl running⟩
    fun _ _ _ _ _ one _ run => one.step run
  have known := one.known
  refine ⟨?_, ?_, fun running => ?_⟩
  · rw [known]
    cases s.statsIntervalId <;> simp
  · intro id there
    rwa [known, Option.mem_toList] at there
  · have here : s.statsIntervalId ≠ none := by
      intro absent
      rw [known, absent] at running
      exact running rfl
    obtain ⟨c, atPc⟩ := Option.ne_none_iff_exists'.mp (one.serves here)
    obtain ⟨_, isOpen, own, latest⟩ := (reach_negotiating (stats_page_reach reach)).current c atPc
    exact ⟨c, atPc, isOpen, own ▸ latest⟩

/-- A connection that was replaced after it was connected, and the interval of the second. -/
theorem interval_serves_connection_second :
    ∃ s log, statsPage.Reach Machine.Always s log ∧ s.intervals = [1] ∧ s.statsIntervalId = some 1 ∧
      s.intervals.length ≤ 1 := by
  have reach := Machine.Reach.ofExec (M := statsPage) Machine.Always
    [.page (.offerReceived "o1" true), .page (.connectionStateChange 0 "connected"), .interval 0,
      .page (.offerReceived "o2" true), .page (.connectionStateChange 1 "connected")]
    rfl (Machine.meets_always _ _)
  exact ⟨_, _, reach, rfl, rfl, (interval_serves_connection reach).1⟩

/-! Averages of one connection. -/

/-- The values of the jitter buffer in a report. -/
structure JitterSample where
  conn : Nat
  timely : Bool
  delay : ℚ
  emitted : ℚ

def sampleOf : StatsAction → Option JitterSample
  | .page _ => none
  | .reported conn timely sample _ => sample.map fun now => ⟨conn, timely, now.1, now.2⟩

def lastSample (log : List StatsAction) : Option JitterSample := (log.filterMap sampleOf).getLast?

/-- An average is that of the time since the last report with values, which was
of the same connection unless one of the two came late. -/
def AverageOf (past : List StatsAction) : StatsAction → Prop
  | .page _ => True
  | .reported conn timely sample stats => ∀ avg, stats.jitterBufferAvgMs = some avg →
      ∃ delay emitted last, sample = some (delay, emitted) ∧ lastSample past = some last ∧
        0 < round64 (emitted - last.emitted) ∧
        avg = jitterBufferAvg (round64 (delay - last.delay)) (round64 (emitted - last.emitted)) ∧
        (timely = true → last.timely = true → last.conn = conn)

/-- Reports asked for since the last stop are of the connection in `pc`, and so
are the values remembered, unless they came late. -/
structure Remembers (s : StatsState) (latest : Option JitterSample) : Prop where
  asked : ∀ r ∈ s.requests, r.stops ≤ s.stops ∧ (r.stops = s.stops → s.page.pc = some r.conn)
  values : s.statsPrevJbDelay = none ∨ ∃ last, s.statsPrevJbDelay = some last.delay ∧
    s.statsPrevJbEmitted = some last.emitted ∧ latest = some last ∧ (last.timely = true → s.page.pc = some last.conn)

theorem stop_fields (s : StatsState) :
    (stopPlaybackStatsTimer s).requests = s.requests ∧ (stopPlaybackStatsTimer s).stops = s.stops + 1 ∧
      (stopPlaybackStatsTimer s).statsPrevJbDelay = none := by
  unfold stopPlaybackStatsTimer
  cases s.statsIntervalId <;> exact ⟨rfl, rfl, rfl⟩

section Remembers
variable {latest : Option JitterSample}

theorem Remembers.stopped (remembers : Remembers s latest) (page : State) :
    Remembers { stopPlaybackStatsTimer s with page := page } latest := by
  obtain ⟨requests, stops, forgotten⟩ := stop_fields s
  refine ⟨?_, .inl forgotten⟩
  intro r there
  rw [requests] at there
  have before := (remembers.asked r there).1
  refine ⟨by simp only [stops]; omega, fun same => ?_⟩
  simp only [stops] at same
  omega

theorem Remembers.polled (remembers : Remembers s latest) : Remembers (pollPlaybackStats s) latest := by
  unfold pollPlaybackStats
  cases atPc : s.page.pc with
  | none => exact remembers
  | some conn =>
    refine ⟨?_, remembers.values⟩
    intro r there
    rcases List.mem_append.mp there with old | new
    · exact remembers.asked r old
    · obtain rfl := List.mem_singleton.mp new
      exact ⟨le_rfl, fun _ => atPc⟩

theorem Remembers.connectionStateChanged (remembers : Remembers s latest) :
    Remembers (connectionStateChanged s) latest := by
  have stopped : Remembers (stopPlaybackStatsTimer s) latest := by
    have stopped := remembers.stopped s.page
    rwa [← stop_page s] at stopped
  rcases connectionStateChanged_cases s with same | same | ⟨_, same⟩ <;> rw [same]
  · exact remembers
  · exact stopped
  · exact Remembers.polled ⟨stopped.asked, stopped.values⟩

theorem Remembers.page {page : State} {e : Event} (remembers : Remembers s latest) {made : List Action}
    (run : step s.page e = some (page, made)) : Remembers (pageStats s page e) latest := by
  have aside (same : page.pc = s.page.pc) : Remembers { s with page := page } latest :=
    ⟨by simpa only [same] using remembers.asked, by simpa only [same] using remembers.values⟩
  rcases step_pc run with ⟨_, _, rfl⟩ | rfl | same
  · exact remembers.stopped page
  · exact remembers.stopped page
  · cases e with
    | offerReceived | signalingClosed => exact remembers.stopped page
    | connectionStateChange => exact (aside same).connectionStateChanged
    | iceCandidateReceived | fulfil | reject | localCandidate => exact aside same

theorem Remembers.answered (remembers : Remembers s latest) (i : Nat) :
    Remembers { s with requests := s.requests.eraseIdx i } latest :=
  ⟨fun r there => remembers.asked r (List.mem_of_mem_eraseIdx there), remembers.values⟩

/-- The report that was asked for, with its values. -/
theorem Remembers.reported (remembers : Remembers s latest) {i : Nat} {r : StatsRequest}
    (asked : s.requests[i]? = some r)
    (now : ℚ × ℚ) :
    Remembers (remembering { s with requests := s.requests.eraseIdx i } (some now))
      (some ⟨r.conn, decide (r.stops = s.stops), now.1, now.2⟩) where
  asked := (remembers.answered i).asked
  values := .inr ⟨_, rfl, rfl, rfl, fun timely =>
    (remembers.asked r (List.mem_of_getElem? asked)).2 (of_decide_eq_true timely)⟩

/-- What is reported of it. -/
theorem Remembers.average (remembers : Remembers s latest) {r : StatsRequest} (there : r ∈ s.requests)
    {delay emitted avg : ℚ} (average : jitterBufferAvgOf s delay emitted = some avg) :
    ∃ last, latest = some last ∧ 0 < round64 (emitted - last.emitted) ∧
      avg = jitterBufferAvg (round64 (delay - last.delay)) (round64 (emitted - last.emitted)) ∧
      (r.stops = s.stops → last.timely = true → last.conn = r.conn) := by
  unfold jitterBufferAvgOf at average
  rcases remembers.values with absent | ⟨last, atDelay, atEmitted, latest, atPc⟩
  · rw [absent] at average
    cases average
  · simp only [atDelay, atEmitted, Option.bind_some] at average
    split at average
    · rename_i positive
      refine ⟨last, latest, positive, (Option.some.inj average).symm, fun timely lastTimely => ?_⟩
      exact Option.some.inj ((atPc lastTimely).symm.trans ((remembers.asked r there).2 timely))
    · cases average

end Remembers

theorem lastSample_append_page (log : List StatsAction) (out : List Action) :
    lastSample (log ++ out.map .page) = lastSample log := by
  simp [lastSample, sampleOf, List.filterMap_append, List.filterMap_map, Function.comp_def]

theorem lastSample_append_reported (log : List StatsAction) (conn : Nat) (timely : Bool) (sample : Option (ℚ × ℚ))
    (stats : PlaybackStats) :
    lastSample (log ++ [.reported conn timely sample stats]) =
      sample.elim (lastSample log) fun now => some ⟨conn, timely, now.1, now.2⟩ := by
  cases sample <;> simp [lastSample, sampleOf, List.filterMap_append]

theorem averages_page (log : List StatsAction) (out : List Action) :
    Machine.Throughout AverageOf log (out.map .page) := by
  refine Machine.throughout_of_forall ?_
  intro a there _
  obtain ⟨b, _, rfl⟩ := List.mem_map.mp there
  trivial

theorem Remembers.step {e : StatsEvent} (remembers : Remembers s (lastSample log))
    (run : statsStep s e = some (t, out)) :
    Remembers t (lastSample (log ++ out)) ∧ Machine.Throughout AverageOf log out := by
  cases e with
  | page e =>
    obtain ⟨⟨next, made⟩, stepped, same⟩ := Option.map_eq_some_iff.mp run
    cases same
    rw [lastSample_append_page]
    exact ⟨remembers.page stepped, averages_page _ _⟩
  | interval id =>
    obtain ⟨rfl, rfl⟩ := interval_spec run
    rw [List.append_nil]
    exact ⟨remembers.polled, trivial⟩
  | rejectStats i =>
    obtain ⟨rfl, rfl⟩ := rejectStats_spec run
    rw [List.append_nil]
    exact ⟨remembers.answered i, trivial⟩
  | fulfilStats i report =>
    obtain ⟨r, sample, stats, asked, rfl, rfl, average⟩ := fulfilStats_spec run
    rw [lastSample_append_reported]
    cases sample with
    | none =>
      refine ⟨remembers.answered i, ?_, trivial⟩
      intro avg found
      rw [average] at found
      cases found
    | some now =>
      refine ⟨remembers.reported asked now, ?_, trivial⟩
      intro avg found
      rw [average] at found
      obtain ⟨last, latest, positive, equal, own⟩ := remembers.average (List.mem_of_getElem? asked) found
      exact ⟨now.1, now.2, last, rfl, latest, positive, equal, fun timely => own (of_decide_eq_true timely)⟩

/-- Every average of the jitter buffer is that of the values in two successive
reports, of one connection unless one of them came after its statistics had
been stopped. -/
theorem averages_of_one_connection (reach : statsPage.Reach Machine.Always s log) :
    Machine.Throughout AverageOf [] log := by
  have held : Remembers s (lastSample log) ∧ Machine.Throughout AverageOf [] log := by
    refine reach.invariant (P := fun s log => Remembers s (lastSample log) ∧ Machine.Throughout AverageOf [] log) ?_ ?_
    · exact ⟨⟨fun r there => absurd there (by simp [statsPage, statsInitial]), .inl rfl⟩, trivial⟩
    · intro s log e t out held _ run
      obtain ⟨remembers, averages⟩ := held.1.step run
      exact ⟨remembers, Machine.throughout_append.mpr ⟨held.2, by simpa using averages⟩⟩
  exact held.2

def videoReport (delay emitted : ℚ) : List Stat :=
  [.other, .inboundRtp
    { kind := some "video", jitterBufferDelay := some delay, jitterBufferEmittedCount := some emitted }]

/-- Two reports of one connection. -/
theorem averages_of_one_connection_two :
    ∃ s log, statsPage.Reach Machine.Always s log ∧
      log.filterMap sampleOf = [⟨0, true, 1, 30⟩, ⟨0, true, 3, 90⟩] ∧
      Machine.Throughout AverageOf [] log := by
  have reach := Machine.Reach.ofExec (M := statsPage) Machine.Always
    [.page (.offerReceived "o1" true), .page (.connectionStateChange 0 "connected"), .fulfilStats 0 (videoReport 1 30),
      .interval 0, .fulfilStats 0 (videoReport 3 90)]
    rfl (Machine.meets_always _ _)
  exact ⟨_, _, reach, rfl, averages_of_one_connection reach⟩

end WebRtcDemo.Page
