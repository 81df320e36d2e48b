import Mathlib.Data.List.GetD
import Mathlib.Data.List.Sort
import WebRtcDemo.Timing.LogTool

/-! What `compare_render_logs.py` computes from the lists and prints. -/

namespace WebRtcDemo.Timing

open Regex Decimals Binary64

/-- A Python float; `none` is `math.nan`. There is no `-0.0` among these, no
infinity and nothing subnormal, nor is there in the report of a `LogFile`. -/
abbrev Number := Option ℚ

/-- The keys of `metrics`. -/
inductive Metric
  | decodeMce2e
  | onframeTotal
  | renderUpload
  | renderDraw
  | renderUploadDraw
  | renderWall
  | renderTotal
  deriving DecidableEq, Repr

def Metric.name : Metric → Text
  | .decodeMce2e => chars "decode.mce2e_ms"
  | .onframeTotal => chars "onframe.total_ms"
  | .renderUpload => chars "render.upload_ms"
  | .renderDraw => chars "render.draw_ms"
  | .renderUploadDraw => chars "render.upload_draw_ms"
  | .renderWall => chars "render.wall_ms"
  | .renderTotal => chars "render.total_ms"

/-- `metrics.get(name, [])` -/
def Metrics.get (m : Metrics) : Metric → List ℚ
  | .decodeMce2e => m.decodeMce2eMs
  | .onframeTotal => m.onframeTotalMs
  | .renderUpload => m.renderUploadMs
  | .renderDraw => m.renderDrawMs
  | .renderUploadDraw => m.renderUploadDrawMs
  | .renderWall => m.renderWallMs
  | .renderTotal => m.renderTotalMs

structure MetricStats where
  count : ℕ
  avg : Number
  p50 : Number
  p95 : Number
  max : Number
  deriving DecidableEq

/-- `sorted` -/
def sorted (values : List ℚ) : List ℚ := values.insertionSort (· ≤ ·)

/-- Linear interpolation between the two neighbours of a rank. -/
def interpolate (low high weight : ℚ) : ℚ :=
  round64 (round64 (low * round64 (1 - weight)) + round64 (high * weight))

/-- What stands at a rank of the sorted values. The places are in range for a
rank below the length. -/
def atRank (ordered : List ℚ) (rank : ℚ) : ℚ :=
  let low := ⌊rank⌋.toNat
  let high := ⌈rank⌉.toNat
  if low = high then ordered.getD low 0
  else interpolate (ordered.getD low 0) (ordered.getD high 0) (round64 (rank - low))

def percentile (values : List ℚ) (p : ℚ) : Number :=
  match values with
  | [] => none
  | [v] => some v
  | v :: w :: rest => some (atRank (sorted (v :: w :: rest)) (round64 (round64 ((v :: w :: rest).length - 1 : ℕ) * p)))

/-- `statistics.fmean`: the sum is rounded once. -/
def fmean (values : List ℚ) : Number :=
  if values = [] then none else some (div64 (round64 values.sum) (round64 values.length))

/-- The literal `0.95`. -/
def p95 : ℚ := round64 (95 / 100)

def summarize (values : List ℚ) : Option MetricStats :=
  if values = [] then none
  else some
    { count := values.length
      avg := fmean values
      p50 := percentile values (1 / 2)
      p95 := percentile values p95
      max := values.max? }

def metricOrder : List Metric :=
  [.decodeMce2e, .onframeTotal, .renderUpload, .renderDraw, .renderUploadDraw, .renderWall, .renderTotal]

def buildStatMap (m : Metrics) : List (Metric × Option MetricStats) :=
  metricOrder.map fun name => (name, summarize (m.get name))

/-- Fixed-point output without a sign, rounded to nearest with ties to even. -/
def magnitude (places : ℕ) (q : ℚ) : Text := pointed places (nearestEven (|q| * 10 ^ places)).toNat

/-- `:.3f` -/
def fmt : Number → Text
  | none => ['-']
  | some q => if q < 0 then '-' :: magnitude 3 q else magnitude 3 q

/-- `:+.1f` and `:+.3f` -/
def withSign (places : ℕ) (q : ℚ) : Text := (if q < 0 then '-' else '+') :: magnitude places q

def fmtDelta : Number → Number → Text
  | some candidate, some baseline =>
    let delta := round64 (candidate - baseline)
    if baseline = 0 then withSign 3 delta
    else
      let pct := round64 (div64 delta baseline * 100)
      withSign 3 delta ++ chars " (" ++ withSign 1 pct ++ chars "%)"
  | _, _ => ['-']

/-- `:28` -/
def leftAligned (width : ℕ) (s : Text) : Text := s ++ List.replicate (width - s.length) ' '

/-- `:>10` -/
def rightAligned (width : ℕ) (s : Text) : Text := List.replicate (width - s.length) ' ' ++ s

def spaced (fields : List Text) : Text := List.intercalate [' '] fields

def singleHeader : Text :=
  spaced [leftAligned 28 (chars "metric"), rightAligned 7 (chars "count"), rightAligned 10 (chars "avg"),
    rightAligned 10 (chars "p50"), rightAligned 10 (chars "p95"), rightAligned 10 (chars "max")]

def singleRow (metric : Metric) (stats : MetricStats) : Text :=
  spaced [leftAligned 28 metric.name, rightAligned 7 (natText stats.count), rightAligned 10 (fmt stats.avg),
    rightAligned 10 (fmt stats.p50), rightAligned 10 (fmt stats.p95), rightAligned 10 (fmt stats.max)]

/-- `print_single`, as the lines printed. -/
def printSingle (label : Text) (statsMap : List (Metric × Option MetricStats)) : List Text :=
  label :: singleHeader :: statsMap.filterMap fun (metric, stats) => stats.map (singleRow metric)

/-- One row of the comparison. -/
structure CompareRow where
  metric : Metric
  baseAvg : Text
  candAvg : Text
  deltaAvg : Text
  baseP95 : Text
  candP95 : Text
  deltaP95 : Text

def compareRow (metric : Metric) (base cand : Option MetricStats) : Option CompareRow :=
  if base = none ∧ cand = none then none
  else
    let baseAvg := base.bind (·.avg)
    let candAvg := cand.bind (·.avg)
    let baseP95 := base.bind (·.p95)
    let candP95 := cand.bind (·.p95)
    some
      { metric := metric
        baseAvg := fmt baseAvg
        candAvg := fmt candAvg
        deltaAvg := fmtDelta candAvg baseAvg
        baseP95 := fmt baseP95
        candP95 := fmt candP95
        deltaP95 := fmtDelta candP95 baseP95 }

def CompareRow.line (r : CompareRow) : Text :=
  spaced [leftAligned 28 r.metric.name, rightAligned 10 r.baseAvg, rightAligned 10 r.candAvg,
    rightAligned 18 r.deltaAvg, rightAligned 10 r.baseP95, rightAligned 10 r.candP95, rightAligned 18 r.deltaP95]

def compareHeader : Text :=
  spaced [leftAligned 28 (chars "metric"), rightAligned 10 (chars "base avg"), rightAligned 10 (chars "cand avg"),
    rightAligned 18 (chars "delta avg"), rightAligned 10 (chars "base p95"), rightAligned 10 (chars "cand p95"),
    rightAligned 18 (chars "delta p95")]

/-- `candidate_stats.get(metric)` -/
def statsOf (statsMap : List (Metric × Option MetricStats)) (metric : Metric) : Option MetricStats :=
  (statsMap.find? (·.1 = metric)).bind (·.2)

def compareRows (baselineStats candidateStats : List (Metric × Option MetricStats)) : List CompareRow :=
  baselineStats.filterMap fun (metric, base) => compareRow metric base (statsOf candidateStats metric)

/-- `print_compare`, as the lines printed. -/
def printCompare (baselineLabel : Text) (baselineStats : List (Metric × Option MetricStats)) (candidateLabel : Text)
    (candidateStats : List (Metric × Option MetricStats)) : List Text :=
  (chars "baseline:  " ++ baselineLabel) :: (chars "candidate: " ++ candidateLabel) :: compareHeader ::
    (compareRows baselineStats candidateStats).map CompareRow.line

/-- The texts that `load_metrics` turns into numbers. -/
def numbersRead (line : Text) : List Text :=
  match search renderRe line with
  | some found =>
    [found.group "upload_ms", found.group "draw_ms", found.group "upload_draw_ms", found.group "wall_ms"] ++
      if found.group "total_ms" ≠ ['—'] then [found.group "total_ms"] else []
  | none =>
    match search onframeRe line with
    | some found => [found.group "onframe_ms"]
    | none =>
      match search mce2eRe line with
      | some found => [found.group "e2e_us"]
      | none => []

/-- A number without a sign that is zero, or far from the ends of the range of doubles. -/
structure Ordinary (s : Text) : Prop where
  unsigned : s.head? ≠ some '-'
  range : Between (-200) 200 (value s)

/-- A log file: its path and its lines. Not every file is one: the numbers of its
lines are such that the report needs no `-0.0`, no infinity and nothing subnormal. -/
structure LogFile where
  path : Text
  lines : List Text
  few : lines.length ≤ 2 ^ 53
  ordinary : ∀ line ∈ lines, ∀ s ∈ numbersRead line, Ordinary s

def LogFile.stats (f : LogFile) : List (Metric × Option MetricStats) := buildStatMap (loadMetrics double f.lines)

/-- `main`, as the lines printed. A baseline with an empty path counts as none. -/
def report (candidate : LogFile) : Option LogFile → List Text
  | none => printSingle (chars "summary: " ++ candidate.path) candidate.stats
  | some base =>
    if base.path = [] then printSingle (chars "summary: " ++ candidate.path) candidate.stats
    else printCompare base.path base.stats candidate.path candidate.stats

/-! The logs of the program are such files. -/

theorem numbersRead_logged (l : Logged) : ∀ s ∈ numbersRead l.line,
    (∃ us ∈ l.entry.fixedUs, s = fixed 3 (milliseconds us)) ∨ ∃ us ∈ l.entry.wholeUs, s = natText us := by
  obtain ⟨before, entry, lineFeed, free⟩ := l
  have clean := Logged.ending_clean ⟨before, entry, lineFeed, free⟩
  unfold Logged.line
  generalize Logged.ending ⟨before, entry, lineFeed, free⟩ = ending at clean
  intro s member
  cases entry with
  | render r =>
    simp only [Entry.line, List.append_assoc, numbersRead, search_render free] at member
    refine .inl ?_
    cases recorded : r.decodeToRenderUs with
    | none => simpa [RenderTimes.groups, RenderTimes.decodeToRenderText, recorded, Entry.fixedUs] using member
    | some us =>
      simpa [RenderTimes.groups, RenderTimes.decodeToRenderText, recorded, Entry.fixedUs, fixed_ne_dash] using member
  | onFrame o =>
    obtain ⟨none, found⟩ := search_onframe free clean o
    simp only [Entry.line, List.append_assoc, numbersRead, none, found] at member
    exact .inl ⟨o.totalUs, by simp [Entry.fixedUs], by simpa [OnFrameTimes.groups] using member⟩
  | mcE2E d =>
    obtain ⟨none, other, found⟩ := search_mce2e free clean d
    simp only [Entry.line, List.append_assoc, numbersRead, none, other, found] at member
    exact .inr ⟨d.e2eUs, by simp [Entry.wholeUs], by simpa [McE2ETimes.groups] using member⟩

theorem unsigned_of_digits {s : Text} (digits : Digits s) (rest : Text) : (s ++ rest).head? ≠ some '-' := by
  obtain ⟨nonempty, all⟩ := digits
  cases s with
  | nil => exact absurd rfl nonempty
  | cons c s =>
    intro sign
    have digit := all c List.mem_cons_self
    rw [Option.some.inj sign] at digit
    exact absurd digit (by decide)

theorem between_natCast {us : ℕ} (small : us ≤ 1000 * 2 ^ 43) : Between 0 54 (us : ℚ) := by
  rcases Nat.eq_zero_or_pos us with rfl | positive
  · exact .inl Nat.cast_zero
  · have least : (1 : ℚ) ≤ us := by exact_mod_cast positive
    have most : (us : ℚ) ≤ 1000 * 2 ^ 43 := by exact_mod_cast small
    exact .inr ⟨by simpa using least, most.trans (by norm_num)⟩

theorem between_thousandth {a b : ℤ} {q : ℚ} (within : Between a b q) : Between (a - 10) b (q / 1000) :=
  (within.div (c := 9) (d := 10) (by norm_num) (by norm_num)).mono le_rfl (by omega)

/-- What the program prints is ordinary, up to 278 years. -/
theorem ordinary_logged (l : Logged) (small : ∀ us ∈ l.entry.fixedUs ++ l.entry.wholeUs, us ≤ 1000 * 2 ^ 43) :
    ∀ s ∈ numbersRead l.line, Ordinary s := by
  intro s member
  obtain ⟨decimals, whole⟩ := List.forall_mem_append.mp small
  rcases numbersRead_logged l s member with ⟨us, inside, rfl⟩ | ⟨us, inside, rfl⟩
  · refine ⟨?_, ?_⟩
    · rw [fixed_milliseconds, pointed]
      exact unsigned_of_digits (natText_digits _) _
    · rw [value_fixed_milliseconds (decimals us inside)]
      exact (between_thousandth (between_natCast (decimals us inside))).mono (by norm_num) (by norm_num)
  · refine ⟨?_, ?_⟩
    · simpa using unsigned_of_digits (natText_digits us) []
    · rw [value_natText]
      exact (between_natCast (whole us inside)).mono (by norm_num) (by norm_num)

/-- A log that holds timing lines of the program only. -/
def programLog (path : Text) (log : List Logged) (few : log.length ≤ 2 ^ 53)
    (small : ∀ l ∈ log, ∀ us ∈ l.entry.fixedUs ++ l.entry.wholeUs, us ≤ 1000 * 2 ^ 43) : LogFile where
  path := path
  lines := log.map Logged.line
  few := by rwa [List.length_map]
  ordinary := by
    intro line member
    obtain ⟨l, inside, rfl⟩ := List.mem_map.mp member
    exact ordinary_logged l (small l inside)

/-! The order of the lines in a log does not matter. -/

/-- What a line adds does not depend on the lines before it. -/
theorem get_loadLine (a : Arithmetic) (m : Metrics) (line : Text) (metric : Metric) :
    (loadLine a m line).get metric = m.get metric ++ (loadLine a .empty line).get metric := by
  unfold loadLine
  split
  · cases metric <;> simp only [Metrics.get, Metrics.empty, List.append_nil, List.nil_append]
    case renderTotal => split <;> simp
  · split
    · cases metric <;> simp [Metrics.get, Metrics.empty]
    · split <;> cases metric <;> simp [Metrics.get, Metrics.empty]

theorem get_foldl_loadLine (a : Arithmetic) (m : Metrics) (lines : List Text) (metric : Metric) :
    (lines.foldl (loadLine a) m).get metric =
      m.get metric ++ lines.flatMap fun line => (loadLine a .empty line).get metric := by
  induction lines generalizing m with
  | nil => simp
  | cons line lines ih =>
    rw [List.foldl_cons, ih, get_loadLine, List.flatMap_cons, List.append_assoc]

theorem get_loadMetrics (a : Arithmetic) (lines : List Text) (metric : Metric) :
    (loadMetrics a lines).get metric = lines.flatMap fun line => (loadLine a .empty line).get metric := by
  unfold loadMetrics
  rw [get_foldl_loadLine]
  cases metric <;> rfl

theorem sorted_perm {values values' : List ℚ} (perm : values.Perm values') : sorted values = sorted values' := by
  have same : (sorted values).Perm (sorted values') :=
    (List.perm_insertionSort _ values).trans (perm.trans (List.perm_insertionSort _ values').symm)
  exact same.eq_of_pairwise' (List.pairwise_insertionSort _ values) (List.pairwise_insertionSort _ values')

theorem sorted_sorted (values : List ℚ) : sorted (sorted values) = sorted values :=
  sorted_perm (List.perm_insertionSort _ values)

theorem length_sorted (values : List ℚ) : (sorted values).length = values.length := List.length_insertionSort _ values

theorem percentile_cons (v w : ℚ) (rest : List ℚ) (p : ℚ) : percentile (v :: w :: rest) p =
    some (atRank (sorted (v :: w :: rest)) (round64 (round64 ((v :: w :: rest).length - 1 : ℕ) * p))) := rfl

/-- A percentile looks at the sorted values only. -/
theorem percentile_sorted (values : List ℚ) (p : ℚ) : percentile (sorted values) p = percentile values p := by
  match values with
  | [] => rfl
  | [v] => rfl
  | v :: w :: rest =>
    have length := length_sorted (v :: w :: rest)
    obtain ⟨x, y, others, shape⟩ : ∃ x y others, sorted (v :: w :: rest) = x :: y :: others := by
      match atSorted : sorted (v :: w :: rest) with
      | [] => simp [atSorted] at length
      | [x] => simp [atSorted] at length
      | x :: y :: others => exact ⟨x, y, others, rfl⟩
    have again : sorted (x :: y :: others) = sorted (v :: w :: rest) := by rw [← shape, sorted_sorted]
    rw [shape, percentile_cons, again, ← shape, length, percentile_cons]

theorem percentile_perm {values values' : List ℚ} (perm : values.Perm values') (p : ℚ) :
    percentile values p = percentile values' p := by
  rw [← percentile_sorted values, ← percentile_sorted values', sorted_perm perm]

theorem max?_perm {values values' : List ℚ} (perm : values.Perm values') : values.max? = values'.max? := by
  cases atMax : values.max? with
  | none =>
    rw [List.max?_eq_none_iff] at atMax
    rw [atMax] at perm
    rw [← perm.nil_eq]
    rfl
  | some most =>
    obtain ⟨inside, above⟩ := List.max?_eq_some_iff.mp atMax
    exact (List.max?_eq_some_iff.mpr ⟨perm.mem_iff.mp inside, fun b member => above b (perm.mem_iff.mpr member)⟩).symm

theorem summarize_perm {values values' : List ℚ} (perm : values.Perm values') : summarize values = summarize values' := by
  have empty : values = [] ↔ values' = [] := ⟨fun h => (h ▸ perm).nil_eq.symm, fun h => (h ▸ perm).eq_nil⟩
  unfold summarize fmean
  simp only [empty, perm.length_eq, perm.sum_eq, percentile_perm perm, max?_perm perm]

theorem stats_perm {f g : LogFile} (reordered : f.lines.Perm g.lines) : f.stats = g.stats := by
  unfold LogFile.stats buildStatMap
  refine List.map_congr_left fun metric _ => ?_
  have same : ((loadMetrics double f.lines).get metric).Perm ((loadMetrics double g.lines).get metric) := by
    rw [get_loadMetrics, get_loadMetrics]
    exact reordered.flatMap_right _
  rw [summarize_perm same]

/-- A printed change that is none. -/
def NoChange (s : Text) : Prop := s = chars "+0.000" ∨ s = chars "+0.000" ++ chars " (" ++ chars "+0.0" ++ chars "%)"

theorem fmtDelta_self (q : ℚ) : NoChange (fmtDelta (some q) (some q)) := by
  have three : withSign 3 0 = chars "+0.000" := by
    rw [show "+0.000" = String.ofList ['+', '0', '.', '0', '0', '0'] from rfl, chars_ofList]
    decide +kernel
  have one : withSign 1 0 = chars "+0.0" := by
    rw [show "+0.0" = String.ofList ['+', '0', '.', '0'] from rfl, chars_ofList]
    decide +kernel
  unfold fmtDelta
  simp only [sub_self, round64_zero, div64, zero_div, zero_mul, three, one]
  split
  · exact .inl rfl
  · exact .inr rfl

theorem summarize_some {values : List ℚ} {stats : MetricStats} (summarized : summarize values = some stats) :
    values ≠ [] ∧ stats.avg = fmean values ∧ stats.p50 = percentile values (1 / 2) ∧
      stats.p95 = percentile values p95 ∧ stats.max = values.max? := by
  unfold summarize at summarized
  split at summarized
  · cases summarized
  · rename_i nonempty
    cases summarized
    exact ⟨nonempty, rfl, rfl, rfl, rfl⟩

theorem percentile_isSome {values : List ℚ} (nonempty : values ≠ []) (p : ℚ) : ∃ q, percentile values p = some q := by
  match values with
  | [] => exact absurd rfl nonempty
  | [v] => exact ⟨v, rfl⟩
  | v :: w :: rest => exact ⟨_, rfl⟩

theorem statsOf_stats {f : LogFile} {metric : Metric} {base : Option MetricStats} (listed : (metric, base) ∈ f.stats) :
    statsOf f.stats metric = base ∧ base = summarize ((loadMetrics double f.lines).get metric) := by
  obtain ⟨name, _, same⟩ := List.mem_map.mp listed
  cases same
  refine ⟨?_, rfl⟩
  unfold statsOf LogFile.stats buildStatMap
  cases metric <;> rfl

/-- A log whose lines come in another order gives the same report, alone, as
the candidate and as the baseline; compared with each other, both show no
change in any row. -/
theorem report_reordered {f g : LogFile} (samePath : f.path = g.path) (reordered : f.lines.Perm g.lines) :
    (∀ baseline, report f baseline = report g baseline) ∧
      (∀ candidate, report candidate (some f) = report candidate (some g)) ∧
      ∀ row ∈ compareRows f.stats g.stats, row.candAvg = row.baseAvg ∧ row.candP95 = row.baseP95 ∧
        NoChange row.deltaAvg ∧ NoChange row.deltaP95 := by
  have stats := stats_perm reordered
  refine ⟨?_, ?_, ?_⟩
  · intro baseline
    cases baseline with
    | none => simp only [report, samePath, stats]
    | some base => simp only [report, samePath, stats]
  · intro candidate
    simp only [report, samePath, stats]
  · intro row inside
    obtain ⟨⟨metric, base⟩, listed, made⟩ := List.mem_filterMap.mp inside
    obtain ⟨found, summary⟩ := statsOf_stats listed
    dsimp only at made
    rw [← stats, found] at made
    cases base with
    | none => simp [compareRow] at made
    | some stats =>
      obtain ⟨nonempty, avg, _, p95, _⟩ := summarize_some summary.symm
      obtain ⟨q, atP95⟩ := percentile_isSome nonempty Timing.p95
      simp only [compareRow, reduceCtorEq, and_self, ↓reduceIte, Option.bind_some, Option.some.injEq] at made
      subst made
      refine ⟨rfl, rfl, ?_, ?_⟩
      · rw [avg, fmean, if_neg nonempty]
        exact fmtDelta_self _
      · rw [p95, atP95]
        exact fmtDelta_self _

/-- The lines of a sampled frame in the other order. -/
theorem report_reordered_sample :
    report (programLog (chars "new.log") sampledFrame (by decide) (by decide)) none =
      report (programLog (chars "new.log") sampledFrame.reverse (by decide) (by decide)) none := by
  have reordered : (sampledFrame.map Logged.line).Perm (sampledFrame.reverse.map Logged.line) :=
    (List.reverse_perm sampledFrame).symm.map Logged.line
  exact (report_reordered (f := programLog (chars "new.log") sampledFrame (by decide) (by decide))
    (g := programLog (chars "new.log") sampledFrame.reverse (by decide) (by decide)) rfl reordered).1 none

/-! The 50th percentile is a median. -/

/-- At least half of the values are at most this, and at least half at least this. -/
structure IsMedian (values : List ℚ) (m : ℚ) : Prop where
  below : values.length ≤ 2 * values.countP (· ≤ m)
  above : values.length ≤ 2 * values.countP (m ≤ ·)

theorem IsMedian.perm {values values' : List ℚ} {m : ℚ} (median : IsMedian values m) (perm : values.Perm values') :
    IsMedian values' m := by
  refine ⟨?_, ?_⟩
  · rw [← perm.length_eq, ← perm.countP_eq]
    exact median.below
  · rw [← perm.length_eq, ← perm.countP_eq]
    exact median.above

section Ordered
variable {ordered : List ℚ} (ascending : ordered.Pairwise (· ≤ ·)) {k : ℕ} {m : ℚ}
include ascending

theorem countP_le_of_ordered (inside : k < ordered.length) (le : ordered[k] ≤ m) : k + 1 ≤ ordered.countP (· ≤ m) := by
  have all : (ordered.take (k + 1)).countP (· ≤ m) = (ordered.take (k + 1)).length := by
    refine List.countP_eq_length.mpr fun v member => ?_
    obtain ⟨i, bound, rfl⟩ := List.mem_iff_getElem.mp member
    rw [List.length_take] at bound
    have order : ordered[i] ≤ ordered[k] := by
      rcases (show i ≤ k by omega).eq_or_lt with rfl | before
      · exact le_refl _
      · exact List.pairwise_iff_getElem.mp ascending i k (by omega) inside before
    rw [List.getElem_take]
    exact decide_eq_true (order.trans le)
  calc k + 1 = (ordered.take (k + 1)).length := by rw [List.length_take]; omega
    _ = (ordered.take (k + 1)).countP (· ≤ m) := all.symm
    _ ≤ ordered.countP (· ≤ m) := (List.take_sublist _ _).countP_le

theorem countP_ge_of_ordered (inside : k < ordered.length) (ge : m ≤ ordered[k]) :
    ordered.length - k ≤ ordered.countP (m ≤ ·) := by
  have all : (ordered.drop k).countP (m ≤ ·) = (ordered.drop k).length := by
    refine List.countP_eq_length.mpr fun v member => ?_
    obtain ⟨i, bound, rfl⟩ := List.mem_iff_getElem.mp member
    rw [List.length_drop] at bound
    have order : ordered[k] ≤ ordered[k + i] := by
      rcases (show k ≤ k + i by omega).eq_or_lt with same | after
      · exact (getElem_congr_idx same).le
      · exact List.pairwise_iff_getElem.mp ascending k (k + i) inside (by omega) after
    rw [List.getElem_drop]
    exact decide_eq_true (ge.trans order)
  calc ordered.length - k = (ordered.drop k).length := by rw [List.length_drop]
    _ = (ordered.drop k).countP (m ≤ ·) := all.symm
    _ ≤ ordered.countP (m ≤ ·) := (List.drop_sublist _ _).countP_le

end Ordered

/-- The mean of two doubles lies between them, also as a double. -/
theorem interpolate_half {low high : ℚ} (lowDouble : IsDouble low) (highDouble : IsDouble high) (le : low ≤ high) :
    low ≤ interpolate low high (1 / 2) ∧ interpolate low high (1 / 2) ≤ high := by
  have half : round64 (1 / 2) = 1 / 2 := by
    rw [round64_half, ← Nat.cast_one, round64_natCast (by norm_num)]
  have mean : interpolate low high (1 / 2) = round64 ((low + high) / 2) := by
    unfold interpolate
    rw [sub_half, half, mul_one_div, mul_one_div, round64_half, round64_half, lowDouble, highDouble, ← add_div]
  rw [mean]
  constructor
  · calc low = round64 low := lowDouble.symm
      _ ≤ round64 ((low + high) / 2) := round64_mono (by linarith)
  · calc round64 ((low + high) / 2) ≤ round64 high := round64_mono (by linarith)
      _ = high := highDouble

/-- The rank of the 50th percentile is not rounded. -/
theorem rank_half {n : ℕ} (small : n ≤ 2 ^ 53) : round64 (round64 n * (1 / 2)) = n / 2 := by
  rw [mul_one_div, round64_half, round64_natCast small, round64_natCast small]

theorem percentile_half {values : List ℚ} (nonempty : values ≠ []) (doubles : ∀ v ∈ values, IsDouble v)
    (small : values.length ≤ 2 ^ 53) : ∃ m, percentile values (1 / 2) = some m ∧ IsMedian values m := by
  match values with
  | [] => exact absurd rfl nonempty
  | [v] => exact ⟨v, rfl, ⟨by simp, by simp⟩⟩
  | v :: w :: rest =>
    have ascending : (sorted (v :: w :: rest)).Pairwise (· ≤ ·) := List.pairwise_insertionSort _ _
    have length := length_sorted (v :: w :: rest)
    have perm : (sorted (v :: w :: rest)).Perm (v :: w :: rest) := List.perm_insertionSort _ _
    have plural : 2 ≤ (v :: w :: rest).length := by simp
    rw [percentile_cons]
    generalize v :: w :: rest = values at *
    refine ⟨_, rfl, IsMedian.perm ?_ perm⟩
    rw [rank_half (by omega)]
    rw [← length] at plural small ⊢
    generalize sorted values = ordered at *
    obtain ⟨k, odd⟩ | ⟨k, even⟩ : (∃ k, ordered.length = 2 * k + 1) ∨ ∃ k, ordered.length = 2 * k + 2 := by
      rcases Nat.even_or_odd' ordered.length with ⟨k, here | here⟩
      · exact .inr ⟨k - 1, by omega⟩
      · exact .inl ⟨k, here⟩
    · have rank : ((ordered.length - 1 : ℕ) : ℚ) / 2 = (k : ℤ) := by
        rw [odd]
        push_cast
        ring
      have place : atRank ordered (((ordered.length - 1 : ℕ) : ℚ) / 2) = ordered[k] := by
        unfold atRank
        rw [rank, Int.floor_intCast, Int.ceil_intCast, if_pos rfl, Int.toNat_natCast, List.getD_eq_getElem]
      rw [place]
      have below := countP_le_of_ordered ascending (by omega) (le_refl ordered[k])
      have above := countP_ge_of_ordered ascending (by omega) (le_refl ordered[k])
      exact ⟨by omega, by omega⟩
    · have rank : ((ordered.length - 1 : ℕ) : ℚ) / 2 = k + 1 / 2 := by
        rw [even, show 2 * k + 2 - 1 = 2 * k + 1 from rfl]
        push_cast
        ring
      have floor : ⌊(k + 1 / 2 : ℚ)⌋ = k := Int.floor_eq_iff.mpr ⟨by push_cast; linarith, by push_cast; linarith⟩
      have ceil : ⌈(k + 1 / 2 : ℚ)⌉ = k + 1 := Int.ceil_eq_iff.mpr ⟨by push_cast; linarith, by push_cast; linarith⟩
      have half : round64 (1 / 2) = 1 / 2 := by
        rw [round64_half, ← Nat.cast_one, round64_natCast (by norm_num)]
      have place : atRank ordered (((ordered.length - 1 : ℕ) : ℚ) / 2) =
          interpolate ordered[k] ordered[k + 1] (1 / 2) := by
        unfold atRank
        rw [rank, floor, ceil, if_neg (by omega), Int.toNat_natCast, show ((k : ℤ) + 1).toNat = k + 1 by omega,
          List.getD_eq_getElem, List.getD_eq_getElem, add_sub_cancel_left, half]
      have isDouble (i : ℕ) (inside : i < ordered.length) : IsDouble ordered[i] :=
        doubles _ (perm.mem_iff.mp (List.getElem_mem inside))
      have order : ordered[k] ≤ ordered[k + 1] :=
        List.pairwise_iff_getElem.mp ascending k (k + 1) (by omega) (by omega) (Nat.lt_succ_self k)
      obtain ⟨low, high⟩ := interpolate_half (isDouble k (by omega)) (isDouble (k + 1) (by omega)) order
      rw [place]
      have below := countP_le_of_ordered ascending (by omega) low
      have above := countP_ge_of_ordered ascending (by omega) high
      exact ⟨by omega, by omega⟩

/-- Every value in the lists is one of the numbers read, or a thousandth of one. -/
theorem mem_loadLine {line : Text} {metric : Metric} {v : ℚ} (member : v ∈ (loadLine double .empty line).get metric) :
    ∃ s ∈ numbersRead line, v = round64 (value s) ∨ v = round64 (round64 (value s) / 1000) := by
  have read {s : Text} (inside : s ∈ numbersRead line) (same : v = double.float s) :
      ∃ s ∈ numbersRead line, v = round64 (value s) ∨ v = round64 (round64 (value s) / 1000) := ⟨s, inside, .inl same⟩
  unfold loadLine at member
  split at member
  · rename_i found rendered
    have numbers : numbersRead line = [found.group "upload_ms", found.group "draw_ms", found.group "upload_draw_ms",
        found.group "wall_ms"] ++ if found.group "total_ms" ≠ ['—'] then [found.group "total_ms"] else [] := by
      simp only [numbersRead, rendered]
    cases metric <;> simp [Metrics.get, Metrics.empty] at member
    case renderTotal => exact read (by simp [numbers, member.1]) member.2
    all_goals exact read (by simp [numbers]) member
  · rename_i rendered
    split at member
    · rename_i found entered
      have numbers : numbersRead line = [found.group "onframe_ms"] := by simp only [numbersRead, rendered, entered]
      cases metric <;> simp [Metrics.get, Metrics.empty] at member
      exact read (by simp [numbers]) member
    · rename_i entered
      split at member
      · rename_i found decoded
        have numbers : numbersRead line = [found.group "e2e_us"] := by
          simp only [numbersRead, rendered, entered, decoded]
        cases metric <;> simp [Metrics.get, Metrics.empty] at member
        exact ⟨_, numbers ▸ List.mem_singleton_self _, .inr member⟩
      · cases metric <;> simp [Metrics.get, Metrics.empty] at member

theorem length_loadLine (line : Text) (metric : Metric) : ((loadLine double .empty line).get metric).length ≤ 1 := by
  unfold loadLine
  split
  · cases metric <;> simp [Metrics.get, Metrics.empty]
    case renderTotal => split <;> simp
  · split
    · cases metric <;> simp [Metrics.get, Metrics.empty]
    · split <;> cases metric <;> simp [Metrics.get, Metrics.empty]

section Values
variable (f : LogFile) (metric : Metric)

theorem mem_values {v : ℚ} (member : v ∈ (loadMetrics double f.lines).get metric) :
    ∃ s, Ordinary s ∧ (v = round64 (value s) ∨ v = round64 (round64 (value s) / 1000)) := by
  rw [get_loadMetrics] at member
  obtain ⟨line, inside, added⟩ := List.mem_flatMap.mp member
  obtain ⟨s, read, same⟩ := mem_loadLine added
  exact ⟨s, f.ordinary line inside s read, same⟩

theorem values_isDouble : ∀ v ∈ (loadMetrics double f.lines).get metric, IsDouble v := by
  intro v member
  obtain ⟨s, _, rfl | rfl⟩ := mem_values f metric member
  · exact isDouble_round64 _
  · exact isDouble_round64 _

theorem values_between : ∀ v ∈ (loadMetrics double f.lines).get metric, Between (-210) 200 v := by
  intro v member
  obtain ⟨s, ordinary, rfl | rfl⟩ := mem_values f metric member
  · exact ordinary.range.round.mono (by norm_num) le_rfl
  · exact (between_thousandth ordinary.range.round).round.mono (by norm_num) le_rfl

theorem values_length : ((loadMetrics double f.lines).get metric).length ≤ 2 ^ 53 := by
  rw [get_loadMetrics, List.length_flatMap]
  calc (f.lines.map fun line => ((loadLine double .empty line).get metric).length).sum
      ≤ (f.lines.map fun _ => 1).sum := List.sum_le_sum fun line _ => length_loadLine line metric
    _ = f.lines.length := by simp
    _ ≤ 2 ^ 53 := f.few

end Values

/-! What is computed from such values stays away from overflow and underflow. -/

section Range
variable {a b : ℤ}

theorem interpolate_between {low high weight : ℚ} (lowWithin : Between a b low) (highWithin : Between a b high)
    (weighs : Between (-53) 0 weight) (rest : Between (-53) 0 (1 - weight)) :
    Between (a - 53) (b + 1) (interpolate low high weight) := by
  have first := (lowWithin.mul rest.round).round
  have second := (highWithin.mul weighs).round
  exact (first.add second).round.mono (by omega) (by omega)

theorem getD_between {values : List ℚ} (within : ∀ v ∈ values, Between a b v) (n : ℕ) : Between a b (values.getD n 0) := by
  by_cases inside : n < values.length
  · rw [List.getD_eq_getElem _ _ inside]
    exact within _ (List.getElem_mem inside)
  · rw [List.getD_eq_default _ _ (Nat.le_of_not_lt inside)]
    exact .inl rfl

theorem atRank_between {ordered : List ℚ} (within : ∀ v ∈ ordered, Between a b v) {rank : ℚ} (double : IsDouble rank)
    (half : (2 : ℚ) ^ (-1 : ℤ) ≤ rank) : Between (a - 53) (b + 1) (atRank ordered rank) := by
  unfold atRank
  dsimp only
  split
  · exact (getD_between within _).mono (by omega) (by omega)
  · rename_i apart
    have broken : (⌊rank⌋ : ℚ) ≠ rank := by
      intro whole
      rw [← whole, Int.floor_intCast, Int.ceil_intCast] at apart
      exact apart rfl
    have place : ((⌊rank⌋.toNat : ℕ) : ℚ) = ⌊rank⌋ := by
      have nonneg : 0 ≤ ⌊rank⌋ := Int.floor_nonneg.mpr (le_trans (by norm_num) half)
      exact_mod_cast Int.toNat_of_nonneg nonneg
    obtain ⟨same, weighs, rest⟩ := fraction_weight double half broken
    rw [place, same]
    exact interpolate_between (getD_between within _) (getD_between within _) weighs rest

theorem percentile_between {values : List ℚ} (within : ∀ v ∈ values, Between a b v) {p m : ℚ}
    (half : (2 : ℚ) ^ (-1 : ℤ) ≤ p) (ranked : percentile values p = some m) : Between (a - 53) (b + 1) m := by
  match values with
  | [] => cases ranked
  | [v] =>
    cases ranked
    exact (within m (List.mem_singleton_self m)).mono (by omega) (by omega)
  | v :: w :: rest =>
    rw [percentile_cons] at ranked
    have plural : 1 ≤ (v :: w :: rest).length - 1 := by simp
    generalize v :: w :: rest = values at *
    cases ranked
    have last : (2 : ℚ) ^ (0 : ℤ) ≤ round64 (values.length - 1 : ℕ) :=
      zpow_le_round64 (by rw [zpow_zero]; exact_mod_cast plural)
    have rank : (2 : ℚ) ^ (-1 : ℤ) ≤ round64 (values.length - 1 : ℕ) * p :=
      calc (2 : ℚ) ^ (-1 : ℤ) = 2 ^ (0 : ℤ) * 2 ^ (-1 : ℤ) := by norm_num
        _ ≤ round64 (values.length - 1 : ℕ) * p := mul_le_mul last half (by positivity) (le_trans (by norm_num) last)
    refine atRank_between (fun u member => ?_) (isDouble_round64 _) (zpow_le_round64 rank)
    exact within u ((List.perm_insertionSort _ _).mem_iff.mp member)

theorem fmean_between {values : List ℚ} (within : ∀ v ∈ values, Between a b v) (few : values.length ≤ 2 ^ 53) {m : ℚ}
    (mean : fmean values = some m) : Between (a - 53) (b + 53) m := by
  unfold fmean at mean
  split at mean
  · cases mean
  · rename_i nonempty
    cases mean
    have least : (2 : ℚ) ^ (0 : ℤ) ≤ values.length := by
      have one := List.length_pos_iff.mpr nonempty
      exact_mod_cast one
    have most : (values.length : ℚ) ≤ 2 ^ (53 : ℤ) := by exact_mod_cast few
    have sum := (Between.sum within few).round
    exact (sum.div (zpow_le_round64 least) (round64_le_zpow most)).round.mono le_rfl (by omega)

end Range

/-- Every number of the report is zero, or far from the ends of the range of doubles. -/
theorem stats_between {f : LogFile} {metric : Metric} {stats : MetricStats} (listed : (metric, some stats) ∈ f.stats) :
    ∀ shown ∈ [stats.avg, stats.p50, stats.p95, stats.max], ∃ q, shown = some q ∧ Between (-263) 253 q := by
  have within := values_between f metric
  obtain ⟨nonempty, avg, p50, p95, max⟩ := summarize_some (statsOf_stats listed).2.symm
  have few := values_length f metric
  generalize (loadMetrics double f.lines).get metric = values at *
  simp only [List.forall_mem_cons, List.not_mem_nil, false_imp_iff, implies_true, and_true]
  refine ⟨?_, ?_, ?_, ?_⟩
  · have mean : fmean values = some (div64 (round64 values.sum) (round64 values.length)) := if_neg nonempty
    exact ⟨_, avg.trans mean, fmean_between within few mean⟩
  · obtain ⟨q, ranked⟩ := percentile_isSome nonempty (1 / 2)
    exact ⟨q, p50.trans ranked, (percentile_between within (by norm_num) ranked).mono le_rfl (by norm_num)⟩
  · obtain ⟨q, ranked⟩ := percentile_isSome nonempty Timing.p95
    have half : (2 : ℚ) ^ (-1 : ℤ) ≤ Timing.p95 := zpow_le_round64 (by norm_num)
    exact ⟨q, p95.trans ranked, (percentile_between within half ranked).mono le_rfl (by norm_num)⟩
  · obtain ⟨q, most⟩ := Option.isSome_iff_exists.mp (List.isSome_max?_of_ne_nil nonempty)
    exact ⟨q, max.trans most, (within q (List.max?_eq_some_iff.mp most).1).mono (by norm_num) (by norm_num)⟩

/-- The log of one sampled frame. -/
def sampleLog : LogFile := programLog (chars "run.log") sampledFrame (by decide) (by decide)

end WebRtcDemo.Timing
