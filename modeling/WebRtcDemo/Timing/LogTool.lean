import WebRtcDemo.Timing.LogLines

/-! `load_metrics` on the lines the program prints. -/

namespace WebRtcDemo.Timing

open Regex Decimals Binary64

/-- The lists that `load_metrics` fills. -/
structure Metrics where
  renderUploadMs : List ℚ
  renderDrawMs : List ℚ
  renderUploadDrawMs : List ℚ
  renderWallMs : List ℚ
  renderTotalMs : List ℚ
  onframeTotalMs : List ℚ
  decodeMce2eMs : List ℚ
deriving DecidableEq

def Metrics.empty : Metrics := ⟨[], [], [], [], [], [], []⟩

/-- The numbers a decimal text is read into, and their division. -/
structure Arithmetic where
  ofDecimal : ℚ → ℚ
  div : ℚ → ℚ → ℚ

/-- The numbers of the log tool. -/
def double : Arithmetic := ⟨round64, div64⟩

/-- The decimals taken at their word. -/
def decimal : Arithmetic := ⟨id, (· / ·)⟩

/-- `float` on a decimal text. -/
def Arithmetic.float (a : Arithmetic) (s : Text) : ℚ := a.ofDecimal (value s)

/-- One line of the file. -/
def loadLine (a : Arithmetic) (m : Metrics) (line : Text) : Metrics :=
  match search renderRe line with
  | some found =>
    { m with
      renderUploadMs := m.renderUploadMs ++ [a.float (found.group "upload_ms")]
      renderDrawMs := m.renderDrawMs ++ [a.float (found.group "draw_ms")]
      renderUploadDrawMs := m.renderUploadDrawMs ++ [a.float (found.group "upload_draw_ms")]
      renderWallMs := m.renderWallMs ++ [a.float (found.group "wall_ms")]
      renderTotalMs :=
        if found.group "total_ms" ≠ ['—'] then m.renderTotalMs ++ [a.float (found.group "total_ms")]
        else m.renderTotalMs }
  | none =>
    match search onframeRe line with
    | some found => { m with onframeTotalMs := m.onframeTotalMs ++ [a.float (found.group "onframe_ms")] }
    | none =>
      match search mce2eRe line with
      | some found => { m with decodeMce2eMs := m.decodeMce2eMs ++ [a.div (a.float (found.group "e2e_us")) 1000] }
      | none => m

def loadMetrics (a : Arithmetic) (lines : List Text) : Metrics := lines.foldl (loadLine a) .empty

/-- A timing line in the log, after a prefix that is free of the marker. The
last line of a file may lack its line feed. -/
structure Logged where
  before : Text
  entry : Entry
  lineFeed : Bool
  free : ¬ marker <:+: before

def Logged.ending (l : Logged) : Text := if l.lineFeed then ['\n'] else []

def Logged.line (l : Logged) : Text := l.before ++ (l.entry.line ++ l.ending)

/-- The metrics with the times of an entry in its own lists, in milliseconds. -/
def Metrics.record (ms : ℕ → ℚ) (m : Metrics) : Entry → Metrics
  | .render r =>
    { m with
      renderUploadMs := m.renderUploadMs ++ [ms r.uploadUs]
      renderDrawMs := m.renderDrawMs ++ [ms r.paintUs]
      renderUploadDrawMs := m.renderUploadDrawMs ++ [ms r.sumUploadDrawUs]
      renderWallMs := m.renderWallMs ++ [ms r.wallFromQueueUs]
      renderTotalMs := m.renderTotalMs ++ (r.decodeToRenderUs.map ms).toList }
  | .onFrame o => { m with onframeTotalMs := m.onframeTotalMs ++ [ms o.totalUs] }
  | .mcE2E d => { m with decodeMce2eMs := m.decodeMce2eMs ++ [ms d.e2eUs] }

/-- The times the tool reads with three decimals. -/
def Entry.fixedUs : Entry → List ℕ
  | .render r => [r.uploadUs, r.paintUs, r.sumUploadDrawUs, r.wallFromQueueUs] ++ r.decodeToRenderUs.toList
  | .onFrame o => [o.totalUs]
  | .mcE2E _ => []

/-- The times the tool reads in microseconds. -/
def Entry.wholeUs : Entry → List ℕ
  | .render _ => []
  | .onFrame _ => []
  | .mcE2E d => [d.e2eUs]

theorem Logged.ending_clean (l : Logged) : '【' ∉ l.ending := by
  unfold Logged.ending
  split <;> decide

theorem search_render {before : Text} (free : ¬ marker <:+: before) (r : RenderTimes) (ending : Text) :
    search renderRe (before ++ (marker ++ (r.body ++ ending))) = some r.groups := by
  obtain ⟨_, finds⟩ := finds_render r ending
  exact (search_before free _ _).trans (search_of_finds finds)

theorem search_onframe {before ending : Text} (free : ¬ marker <:+: before) (clean : '【' ∉ ending) (o : OnFrameTimes) :
    search renderRe (before ++ (marker ++ (o.body ++ ending))) = none ∧
      search onframeRe (before ++ (marker ++ (o.body ++ ending))) = some o.groups := by
  obtain ⟨_, finds⟩ := finds_onframe o ending
  exact ⟨(search_before free _ _).trans (render_fails_onframe o (List.not_mem_append o.body_clean clean)),
    (search_before free _ _).trans (search_of_finds finds)⟩

theorem search_mce2e {before ending : Text} (free : ¬ marker <:+: before) (clean : '【' ∉ ending) (d : McE2ETimes) :
    search renderRe (before ++ (marker ++ (d.body ++ ending))) = none ∧
      search onframeRe (before ++ (marker ++ (d.body ++ ending))) = none ∧
      search mce2eRe (before ++ (marker ++ (d.body ++ ending))) = some d.groups := by
  obtain ⟨_, finds⟩ := finds_mce2e d ending
  have whole := List.not_mem_append d.body_clean clean
  exact ⟨(search_before free _ _).trans (render_fails_mce2e d whole),
    (search_before free _ _).trans (onframe_fails_mce2e d whole),
    (search_before free _ _).trans (search_of_finds finds)⟩

theorem fixed_ne_dash (us : ℕ) : fixed 3 (milliseconds us) ≠ ['—'] := by
  intro dash
  have point : '.' ∈ fixed 3 (milliseconds us) := by
    rw [fixed_milliseconds, pointed]
    exact List.mem_append_right _ (List.mem_cons_self ..)
  rw [dash] at point
  exact absurd point (by decide)

/-- A line of the program adds the times of its entry, and nothing else, as
far as the arithmetic reads the printed decimals as these times. -/
theorem loadLine_logged {a : Arithmetic} {ms : ℕ → ℚ} (m : Metrics) (l : Logged)
    (decimals : ∀ us ∈ l.entry.fixedUs, a.float (fixed 3 (milliseconds us)) = ms us)
    (whole : ∀ us ∈ l.entry.wholeUs, a.div (a.float (natText us)) 1000 = ms us) :
    loadLine a m l.line = m.record ms l.entry := by
  obtain ⟨before, entry, lineFeed, free⟩ := l
  have clean := Logged.ending_clean ⟨before, entry, lineFeed, free⟩
  unfold Logged.line
  generalize Logged.ending ⟨before, entry, lineFeed, free⟩ = ending at clean
  cases entry with
  | render r =>
    simp only [Entry.fixedUs, List.forall_mem_append, List.forall_mem_cons] at decimals
    obtain ⟨⟨upload, draw, sum, wall, -⟩, total⟩ := decimals
    have total_read : (if r.decodeToRenderText ≠ ['—'] then m.renderTotalMs ++ [a.float r.decodeToRenderText]
        else m.renderTotalMs) = m.renderTotalMs ++ (r.decodeToRenderUs.map ms).toList := by
      unfold RenderTimes.decodeToRenderText
      cases recorded : r.decodeToRenderUs with
      | none => simp
      | some us => simp [fixed_ne_dash, total us (by simp [recorded])]
    simp only [Entry.line, List.append_assoc, loadLine, search_render free, Metrics.record]
    simp [RenderTimes.groups, upload, draw, sum, wall, total_read]
  | onFrame o =>
    obtain ⟨none, found⟩ := search_onframe free clean o
    simp only [Entry.line, List.append_assoc, loadLine, none, found, Metrics.record]
    simp [OnFrameTimes.groups, decimals o.totalUs (by simp [Entry.fixedUs])]
  | mcE2E d =>
    obtain ⟨none, other, found⟩ := search_mce2e free clean d
    simp only [Entry.line, List.append_assoc, loadLine, none, other, found, Metrics.record]
    simp [McE2ETimes.groups, whole d.e2eUs (by simp [Entry.wholeUs])]

theorem loadMetrics_logged {a : Arithmetic} {ms : ℕ → ℚ} (earlier : List Text) {log : List Logged}
    (decimals : ∀ l ∈ log, ∀ us ∈ l.entry.fixedUs, a.float (fixed 3 (milliseconds us)) = ms us)
    (whole : ∀ l ∈ log, ∀ us ∈ l.entry.wholeUs, a.div (a.float (natText us)) 1000 = ms us) :
    loadMetrics a (earlier ++ log.map Logged.line) =
      (log.map Logged.entry).foldl (Metrics.record ms) (loadMetrics a earlier) := by
  unfold loadMetrics
  rw [List.foldl_append]
  generalize earlier.foldl (loadLine a) .empty = m
  induction log generalizing m with
  | nil => rfl
  | cons l log ih =>
    have read := loadLine_logged m l (decimals l (List.mem_cons_self ..)) (whole l (List.mem_cons_self ..))
    rw [List.map_cons, List.foldl_cons, List.map_cons, List.foldl_cons, read]
    exact ih (fun k member => decimals k (List.mem_cons_of_mem l member))
      (fun k member => whole k (List.mem_cons_of_mem l member)) _

/-! How much of a time its printed decimals keep. -/

theorem milliseconds_eq {us : ℕ} (small : us ≤ 2 ^ 53) : milliseconds us = round64 (us / 1000) := by
  rw [milliseconds, round64_natCast small, div64]

/-- Below this bound half a bit of the double is less than half a microsecond. -/
theorem milliseconds_near {us : ℕ} (small : us ≤ 1000 * 2 ^ 43) : |milliseconds us * 1000 - us| < 1 / 2 := by
  rw [milliseconds_eq (small.trans (by norm_num))]
  rcases small.eq_or_lt with rfl | below
  · have whole : (((1000 * 2 ^ 43 : ℕ) : ℚ) / 1000) = ((2 ^ 43 : ℕ) : ℚ) := by norm_num
    rw [whole, round64_natCast (by norm_num)]
    norm_num
  rcases Nat.eq_zero_or_pos us with rfl | positive
  · simp [round64, nearestEven]
  · have quotient : (0 : ℚ) < us / 1000 := by positivity
    have limit : (us : ℚ) / 1000 < 2 ^ (43 : ℤ) := by
      rw [div_lt_iff₀ (by norm_num)]
      have cast : (us : ℚ) < ((1000 * 2 ^ 43 : ℕ) : ℚ) := by exact_mod_cast below
      norm_num at cast ⊢
      linarith
    have bit : (2 : ℚ) ^ lastBit (us / 1000) ≤ 2 ^ (-10 : ℤ) :=
      zpow_le_zpow_right₀ (by norm_num) (lastBit_le quotient limit)
    have error := round64_error (us / 1000)
    have scaled : round64 (us / 1000) * 1000 - us = (round64 (us / 1000) - us / 1000) * 1000 := by ring
    rw [scaled, abs_mul]
    norm_num at bit ⊢
    linarith

theorem value_fixed_milliseconds {us : ℕ} (small : us ≤ 1000 * 2 ^ 43) :
    value (fixed 3 (milliseconds us)) = us / 1000 := by
  have near := abs_lt.mp (milliseconds_near small)
  have units : round (milliseconds us * 10 ^ 3) = us := by
    rw [round_eq, Int.floor_eq_iff]
    push_cast
    constructor <;> linarith
  rw [value_fixed (milliseconds_nonneg us), units]
  norm_num

/-- Whatever the time, the decimals are enough to read the same double again. -/
theorem float_fixed_milliseconds (us : ℕ) : double.float (fixed 3 (milliseconds us)) = milliseconds us := by
  change round64 (value (fixed 3 (milliseconds us))) = milliseconds us
  rcases le_or_gt us (1000 * 2 ^ 43) with small | large
  · rw [value_fixed_milliseconds small, milliseconds_eq (small.trans (by norm_num))]
  · have numerator : (1000 * 2 ^ 43 : ℚ) ≤ round64 us := by
      rcases le_or_gt us (2 ^ 53) with within | beyond
      · rw [round64_natCast within]
        exact_mod_cast large.le
      · have power : (2 : ℚ) ^ (53 : ℤ) ≤ us := by exact_mod_cast beyond.le
        calc (1000 * 2 ^ 43 : ℚ) ≤ 2 ^ (53 : ℤ) := by norm_num
          _ ≤ round64 us := zpow_le_round64 power
    have quotient : (2 : ℚ) ^ (43 : ℤ) ≤ round64 us / 1000 := by
      rw [le_div_iff₀ (by norm_num)]
      norm_num at numerator ⊢
      linarith
    have magnitude : (2 : ℚ) ^ (43 : ℤ) ≤ milliseconds us := zpow_le_round64 quotient
    have bit : (2 : ℚ) ^ (-9 : ℤ) ≤ 2 ^ lastBit (milliseconds us) :=
      zpow_le_zpow_right₀ (by norm_num) (le_lastBit magnitude)
    obtain ⟨n, isDouble⟩ := round64_is_double (lt_of_lt_of_le (by norm_num) quotient)
    rw [value_fixed (milliseconds_nonneg us)]
    refine round64_decimal isDouble ?_ ?_
    · exact le_trans (by norm_num) magnitude
    · exact lt_of_lt_of_le (by norm_num) bit

/-- `load_metrics` reads back the times the program prints. Each line goes to
the lists of its own kind, the total of a render line only when a decode start
was recorded, and the numbers are the very doubles that were printed. The
decimals are exactly the thousandths up to `2 ^ 43` milliseconds. -/
theorem loadMetrics_reads_back (earlier : List Text) (log : List Logged) :
    loadMetrics double (earlier ++ log.map Logged.line) =
        (log.map Logged.entry).foldl (Metrics.record milliseconds) (loadMetrics double earlier) ∧
      ((∀ l ∈ log, ∀ us ∈ l.entry.fixedUs, us ≤ 1000 * 2 ^ 43) →
        loadMetrics decimal (earlier ++ log.map Logged.line) =
          (log.map Logged.entry).foldl (Metrics.record fun us => us / 1000) (loadMetrics decimal earlier)) := by
  constructor
  · refine loadMetrics_logged earlier (fun _ _ us _ => float_fixed_milliseconds us) fun _ _ us _ => ?_
    change div64 (round64 (value (natText us))) 1000 = milliseconds us
    rw [value_natText, milliseconds]
  · intro small
    refine loadMetrics_logged earlier (fun l member us printed => ?_) fun _ _ us _ => ?_
    · exact value_fixed_milliseconds (small l member us printed)
    · change value (natText us) / 1000 = us / 1000
      rw [value_natText]

/-- A timing line as the log of an application shows it. -/
def logged (entry : Entry) : Logged where
  before := chars "D/Demo: "
  entry := entry
  lineFeed := true
  free := by
    rw [marker_eq, chars_ofList]
    decide

/-- The three lines of one sampled frame. -/
def sampledFrame : List Logged :=
  [logged (.mcE2E ⟨120, 90000, 15250⟩), logged (.onFrame ⟨120, 80, 33333, .nv12, 410⟩),
    logged (.render ⟨120, 1250, 300, 8042, some 23001⟩)]

theorem loadMetrics_reads_sample :
    loadMetrics decimal (sampledFrame.map Logged.line) =
      ⟨[1250 / 1000], [300 / 1000], [1550 / 1000], [8042 / 1000], [23001 / 1000], [410 / 1000], [15250 / 1000]⟩ := by
  refine ((loadMetrics_reads_back [] sampledFrame).2 (by decide)).trans ?_
  decide +kernel

/-- A frame whose upload took longer than a double has bits for. -/
def endlessUpload : Logged where
  before := []
  entry := .render ⟨120, 9007199254740995, 0, 0, none⟩
  lineFeed := true
  free := by
    rw [marker_eq]
    decide

/-- The line says 9007199254740.996, and the double read from it is not the
one nearest to 9007199254740.995. -/
theorem endlessUpload_inexact :
    loadMetrics decimal [endlessUpload.line] ≠ Metrics.empty.record (fun us => us / 1000) endlessUpload.entry ∧
      loadMetrics double [endlessUpload.line] ≠
        Metrics.empty.record (fun us => round64 (us / 1000)) endlessUpload.entry := by
  have digits : round (milliseconds 9007199254740995 * 10 ^ 3) = 9007199254740996 := by decide +kernel
  constructor
  · intro same
    have read : loadMetrics decimal [endlessUpload.line] =
        Metrics.empty.record (fun us => value (fixed 3 (milliseconds us))) endlessUpload.entry :=
      loadLine_logged _ _ (fun _ _ => rfl) (by simp [endlessUpload, Entry.wholeUs])
    have uploads := congrArg Metrics.renderUploadMs (read.symm.trans same)
    have printed : value (fixed 3 (milliseconds 9007199254740995)) = ((9007199254740995 : ℕ) : ℚ) / 1000 :=
      List.singleton_injective uploads
    rw [value_fixed (milliseconds_nonneg _), digits] at printed
    norm_num at printed
  · intro same
    have read : loadMetrics double [endlessUpload.line] =
        Metrics.empty.record milliseconds endlessUpload.entry :=
      loadLine_logged _ _ (fun us _ => float_fixed_milliseconds us) (by simp [endlessUpload, Entry.wholeUs])
    have uploads := congrArg Metrics.renderUploadMs (read.symm.trans same)
    have nearest : milliseconds 9007199254740995 = round64 (((9007199254740995 : ℕ) : ℚ) / 1000) :=
      List.singleton_injective uploads
    exact absurd nearest (by decide +kernel)

end WebRtcDemo.Timing
