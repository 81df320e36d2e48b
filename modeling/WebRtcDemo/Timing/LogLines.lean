import WebRtcDemo.Lib.Binary64
import WebRtcDemo.Lib.Regex

/-! The timing lines of the render node, of `OnFrame` and of the decoder, and
`compare_render_logs.py`, which reads them back. -/

namespace WebRtcDemo.Timing

open Regex Decimals Binary64

/-- What all the timing lines have in common. -/
def marker : Text := chars "【耗时分析】"

/-! The lines as the program prints them, from the marker on. -/

/-- `us / 1000.0` in doubles. -/
def milliseconds (us : ℕ) : ℚ := div64 (round64 us) 1000

/-- One time of a render line. -/
def msField (label : String) (us : ℕ) : Text :=
  chars " | " ++ chars label ++ chars " " ++ fixed 3 (milliseconds us) ++ chars " ms"

/-- What `WebRTCVideoRenderNode::render` knows when it prints its line. The
time since `Decode` is there when a decode start was recorded. -/
structure RenderTimes where
  frameId : Int
  uploadUs : ℕ
  paintUs : ℕ
  wallFromQueueUs : ℕ
  decodeToRenderUs : Option ℕ

def RenderTimes.sumUploadDrawUs (r : RenderTimes) : ℕ := r.uploadUs + r.paintUs

def RenderTimes.decodeToRenderText (r : RenderTimes) : Text :=
  match r.decodeToRenderUs with
  | some us => fixed 3 (milliseconds us)
  | none => ['—']

def RenderTimes.body (r : RenderTimes) : Text :=
  chars " " ++ chars "frame_id=" ++ intText r.frameId ++
    msField "上传(CPU发GL):" r.uploadUs ++
    msField "绘制(draw):" r.paintUs ++
    msField "上传+绘制:" r.sumUploadDrawUs ++
    msField "wall(OnFrame入队→render结束):" r.wallFromQueueUs ++
    chars " | " ++ chars "总(Decode入口→render结束):" ++ chars " " ++ r.decodeToRenderText ++
    chars " ms (Decode入口与 Mc/DecodeSink 同源单调钟; 与 tracking_id mod 120 对齐)"

/-- The kinds of buffer `OnFrame` tells apart. -/
inductive BufferKind where
  | oesNative
  | nv12
  | i420 (width height : Int)

def BufferKind.text : BufferKind → Text
  | oesNative => chars "OES/kNative 纹理"
  | nv12 => chars "NV12 双平面"
  | i420 width height => intText ((width * height * 3).tdiv 2 |>.tdiv 1024) ++ chars " KB"

/-- What `WebRTCVideoRenderer::OnFrame` knows when it prints its line. -/
structure OnFrameTimes where
  displayId : Int
  handoffUs : ℕ
  intervalUs : ℕ
  buffer : BufferKind
  totalUs : ℕ

def OnFrameTimes.timesText (o : OnFrameTimes) : Text :=
  chars " | 投递(锁内挂接buffer,无整帧拷贝): " ++ fixed 3 (milliseconds o.handoffUs) ++
    chars " ms | 帧间隔: " ++ fixed 2 (milliseconds o.intervalUs) ++ chars " ms | 数据量: "

/-- The part of the line between the id and the total time. -/
def OnFrameTimes.details (o : OnFrameTimes) : Text := o.timesText ++ o.buffer.text ++ chars " | "

def OnFrameTimes.body (o : OnFrameTimes) : Text :=
  chars " " ++ chars "OnFrame" ++ chars " " ++ chars "tracking_id=" ++
    intText o.displayId ++ o.details ++
    chars "OnFrame整体:" ++ chars " " ++ fixed 3 (milliseconds o.totalUs) ++ chars " " ++ chars "ms" ++
    chars " (入口至返回,含NV12/I420/OES适配与锁内挂接; 与 tracking_id mod 120 对齐)"

/-- What `DrainOutputs` knows when it prints its line. -/
structure McE2ETimes where
  trackingId : ℕ
  rtpTimestamp : ℕ
  e2eUs : ℕ

def McE2ETimes.rtpText (d : McE2ETimes) : Text := chars " rtp_ts=" ++ natText d.rtpTimestamp ++ chars " "

def McE2ETimes.body (d : McE2ETimes) : Text :=
  chars "硬件解码总耗时" ++ chars " " ++ chars "McE2E" ++ chars " " ++
    chars "tracking_id=" ++ natText d.trackingId ++ d.rtpText ++ chars "e2e=" ++ natText d.e2eUs ++ chars "us" ++
    chars " (Decode入口->Decoded返回; " ++
    chars "含入队等待+worker+MediaCodec+NV12输出整理+cb; 不含WebRTC后续sink; 与 tracking_id mod 120 对齐)"

/-- A timing line and who prints it. -/
inductive Entry where
  | render (r : RenderTimes)
  | onFrame (o : OnFrameTimes)
  | mcE2E (d : McE2ETimes)

def Entry.line : Entry → Text
  | render r => marker ++ r.body
  | onFrame o => marker ++ o.body
  | mcE2E d => marker ++ d.body

/-! The patterns of the log tool. -/

/-- `\s` in a text pattern of Python. -/
def isSpace (c : Char) : Bool :=
  (9 ≤ c.toNat && c.toNat ≤ 13) || (28 ≤ c.toNat && c.toNat ≤ 32) || (0x2000 ≤ c.toNat && c.toNat ≤ 0x200a) ||
    [0x85, 0xa0, 0x1680, 0x2028, 0x2029, 0x202f, 0x205f, 0x3000].contains c.toNat

/-- `.` without the flag that lets it match a line feed. -/
def isDot (c : Char) : Bool := c != '\n'

def lit (literal : String) : Regex := text (chars literal)

def spaces : Regex := greedy isSpace

/-- `-?\d+` -/
def integer : Regex := seq (optional (text ['-'])) (oneOrMore isDecimal)

/-- `-?\d+(?:\.\d+)?` -/
def number : Regex :=
  seq (optional (text ['-'])) (seq (oneOrMore isDecimal) (optional (seq (text ['.']) (oneOrMore isDecimal))))

/-- One time of `RENDER_RE`, from the bar before it to its unit. -/
def msPattern (label name : String) : List Regex :=
  [spaces, lit "|", spaces, lit label, spaces, group name number, spaces, lit "ms"]

def renderRe : Regex := chain (
  [text marker, spaces, lit "frame_id=", group "frame_id" integer] ++
  msPattern "上传(CPU发GL):" "upload_ms" ++
  msPattern "绘制(draw):" "draw_ms" ++
  msPattern "上传+绘制:" "upload_draw_ms" ++
  msPattern "wall(OnFrame入队→render结束):" "wall_ms" ++
  [spaces, lit "|", spaces, lit "总(Decode入口→render结束):", spaces, group "total_ms" (alt number (text ['—']))])

def onframeRe : Regex := chain
  [text marker, spaces, lit "OnFrame", spaces, lit "tracking_id=", group "frame_id" integer, lazily isDot,
    lit "OnFrame整体:", spaces, group "onframe_ms" number, spaces, lit "ms"]

def mce2eRe : Regex := chain
  [text marker, lit "硬件解码总耗时", spaces, lit "McE2E", spaces, lit "tracking_id=",
    group "frame_id" (oneOrMore isDecimal), lazily isDot, lit "e2e=", group "e2e_us" (oneOrMore isDecimal), lit "us"]

/-! How the patterns take the lines. -/

theorem stops_of_head {cls : Char → Bool} {c : Char} (outside : cls c = false) (s : Text) : Stops cls (c :: s) := by
  rintro d ⟨⟩
  exact outside

theorem stops_literal {cls : Char → Bool} {c : Char} {s : Text} (outside : cls c = false) (rest : Text) :
    Stops cls (chars (String.ofList (c :: s)) ++ rest) := by
  rw [chars_ofList]
  exact stops_of_head outside _

theorem bar_eq : chars " | " = chars " " ++ (chars "|" ++ chars " ") := by
  rw [chars_ofList, chars_ofList, chars_ofList]
  rfl

theorem unit_eq : chars " ms" = chars " " ++ chars "ms" := by
  rw [chars_ofList, chars_ofList, chars_ofList]
  rfl

theorem isSpace_of_isDigit {c : Char} (digit : c.isDigit) : isSpace c = false := by
  have range := toNat_of_isDigit digit
  have between : ∀ n : ℕ, 48 ≤ n → n ≤ 57 → ((9 ≤ n && n ≤ 13) || (28 ≤ n && n ≤ 32) || (0x2000 ≤ n && n ≤ 0x200a) ||
      [0x85, 0xa0, 0x1680, 0x2028, 0x2029, 0x202f, 0x205f, 0x3000].contains n) = false := by
    intro n low high
    interval_cases n <;> rfl
  exact between c.toNat range.1 range.2

theorem stops_digits {s : Text} (digits : Digits s) (rest : Text) : Stops isSpace (s ++ rest) := by
  obtain ⟨nonempty, all⟩ := digits
  cases s with
  | nil => exact absurd rfl nonempty
  | cons c s => exact stops_of_head (isSpace_of_isDigit (all c (List.mem_cons_self ..))) _

theorem finds_digits {s rest : Text} (digits : Digits s) (stops : Stops isDecimal rest) :
    Finds (oneOrMore isDecimal) (s ++ rest) [] rest :=
  finds_oneOrMore digits.nonempty (fun c member => isDecimal_of_isDigit (digits.all c member)) stops

theorem fails_sign {s : Text} (digits : Digits s) (rest : Text) : Fails (text ['-']) (s ++ rest) := by
  obtain ⟨nonempty, all⟩ := digits
  cases s with
  | nil => exact absurd rfl nonempty
  | cons c s =>
    refine fails_text fun start => ?_
    have digit := all c (List.mem_cons_self ..)
    rw [← (List.cons_prefix_cons.mp start).1] at digit
    exact absurd digit (by decide)

theorem finds_integer (z : Int) {rest : Text} (stops : Stops isDecimal rest) :
    Finds integer (intText z ++ rest) [] rest := by
  have digits := natText_digits z.natAbs
  unfold intText
  split
  · exact finds_seq (finds_alt_left (finds_text ['-'] _)) (finds_digits digits stops)
  · exact finds_seq (finds_optional_absent (fails_sign digits rest)) (finds_digits digits stops)

theorem milliseconds_nonneg (us : ℕ) : 0 ≤ milliseconds us :=
  round64_nonneg (div_nonneg (round64_nonneg us.cast_nonneg) (by norm_num))

theorem fixed_milliseconds (places us : ℕ) :
    fixed places (milliseconds us) = pointed places (round (milliseconds us * 10 ^ places)).toNat := by
  rw [fixed, if_neg (not_lt.mpr (milliseconds_nonneg us))]

theorem finds_number (us : ℕ) {rest : Text} (stops : Stops isDecimal rest) :
    Finds number (fixed 3 (milliseconds us) ++ rest) [] rest := by
  rw [fixed_milliseconds, pointed, List.append_assoc]
  generalize (round (milliseconds us * 10 ^ 3)).toNat = n
  have whole := natText_digits (n / 10 ^ 3)
  have fraction := padded_digits 2 n
  refine finds_seq (finds_optional_absent (fails_sign whole _)) (finds_seq (finds_digits whole ?_) ?_)
  · exact stops_of_head rfl _
  · exact finds_alt_left (finds_seq (finds_text ['.'] _) (finds_digits fraction stops))

theorem stops_fixed (us : ℕ) (rest : Text) : Stops isSpace (fixed 3 (milliseconds us) ++ rest) := by
  rw [fixed_milliseconds, pointed, List.append_assoc]
  exact stops_digits (natText_digits _) _

theorem isSpace_blank : ∀ c ∈ chars " ", isSpace c = true := by
  rw [chars_ofList]
  exact List.forall_mem_singleton.mpr (by decide)

theorem finds_space {rest : Text} (stops : Stops isSpace rest) : Finds spaces (chars " " ++ rest) [] rest :=
  finds_greedy isSpace_blank stops

theorem finds_msPattern {label name : String} {us : ℕ} {rs : List Regex} {s rest : Text} {captures : Captures}
    (solid : ∀ t, Stops isSpace (chars label ++ t)) (there : Finds (chain rs) s captures rest) :
    Finds (chain (msPattern label name ++ rs)) (msField label us ++ s)
      ((name, fixed 3 (milliseconds us)) :: captures) rest := by
  rw [msField, bar_eq, unit_eq]
  simp only [List.append_assoc]
  refine chain_skip (finds_space (stops_literal (by decide) _)) (chain_skip (finds_text _ _) ?_)
  refine chain_skip (finds_space (solid _)) (chain_skip (finds_text _ _) ?_)
  refine chain_skip (finds_space (stops_fixed us _)) ?_
  refine chain_take (finds_group name (finds_number us (stops_literal (by decide) _))) ?_
  exact chain_skip (finds_space (stops_literal (by decide) _)) (chain_skip (finds_text _ _) there)

/-- The texts the groups of a render line hold. -/
def RenderTimes.groups (r : RenderTimes) : Captures :=
  [("frame_id", intText r.frameId), ("upload_ms", fixed 3 (milliseconds r.uploadUs)),
    ("draw_ms", fixed 3 (milliseconds r.paintUs)), ("upload_draw_ms", fixed 3 (milliseconds r.sumUploadDrawUs)),
    ("wall_ms", fixed 3 (milliseconds r.wallFromQueueUs)), ("total_ms", r.decodeToRenderText)]

theorem finds_total (r : RenderTimes) {rest : Text} (stops : Stops isDecimal rest) :
    Finds (alt number (text ['—'])) (r.decodeToRenderText ++ rest) [] rest ∧
      Stops isSpace (r.decodeToRenderText ++ rest) := by
  unfold RenderTimes.decodeToRenderText
  split
  · rename_i us _
    exact ⟨finds_alt_left (finds_number us stops), stops_fixed us rest⟩
  · have dash : Fails number ('—' :: rest) := rfl
    exact ⟨finds_alt_right dash (finds_text ['—'] _), stops_of_head (by decide) _⟩

theorem finds_render (r : RenderTimes) (s : Text) : ∃ rest, Finds renderRe (marker ++ (r.body ++ s)) r.groups rest := by
  have unit : Stops isDecimal (chars " ms (Decode入口与 Mc/DecodeSink 同源单调钟; 与 tracking_id mod 120 对齐)" ++ s) :=
    stops_literal (by decide) s
  obtain ⟨total, visible⟩ := finds_total r unit
  refine ⟨chars " ms (Decode入口与 Mc/DecodeSink 同源单调钟; 与 tracking_id mod 120 对齐)" ++ s, ?_⟩
  rw [RenderTimes.body, renderRe, bar_eq]
  simp only [List.append_assoc]
  refine chain_skip (finds_text _ _) (chain_skip (finds_space (stops_literal (by decide) _)) ?_)
  refine chain_skip (finds_text _ _) ?_
  refine chain_take (finds_group "frame_id" (finds_integer r.frameId ?_)) ?_
  · rw [msField]
    simp only [List.append_assoc]
    exact stops_literal (by decide) _
  refine finds_msPattern (fun _ => stops_literal (by decide) _) ?_
  refine finds_msPattern (fun _ => stops_literal (by decide) _) ?_
  refine finds_msPattern (fun _ => stops_literal (by decide) _) ?_
  refine finds_msPattern (fun _ => stops_literal (by decide) _) ?_
  refine chain_skip (finds_space (stops_literal (by decide) _)) (chain_skip (finds_text _ _) ?_)
  refine chain_skip (finds_space (stops_literal (by decide) _)) (chain_skip (finds_text _ _) ?_)
  exact chain_skip (finds_space visible) (chain_take (finds_group "total_ms" total) (finds_chain_nil _))

/-- A character that no printed number has. -/
structure Foreign (c : Char) : Prop where
  digit : c.isDigit = false
  sign : c ≠ '-'
  point : c ≠ '.'

theorem Foreign.natText {c : Char} (foreign : Foreign c) (n : ℕ) : c ∉ natText n := by
  intro member
  have digit := (natText_digits n).all c member
  rw [foreign.digit] at digit
  exact absurd digit (by decide)

theorem Foreign.intText {c : Char} (foreign : Foreign c) (z : Int) : c ∉ intText z := by
  unfold Decimals.intText
  split
  · exact List.not_mem_cons_of_ne_of_not_mem foreign.sign (foreign.natText _)
  · exact foreign.natText _

theorem Foreign.fixed {c : Char} (foreign : Foreign c) (places us : ℕ) : c ∉ fixed places (milliseconds us) := by
  rw [fixed_milliseconds, pointed, List.mem_append, List.mem_cons]
  rintro (whole | point | fraction)
  · exact foreign.natText _ whole
  · exact foreign.point point
  · have digit := padded_isDigit _ _ c fraction
    rw [foreign.digit] at digit
    exact absurd digit (by decide)

theorem Foreign.bufferText {c : Char} (foreign : Foreign c) (native : c ∉ chars "OES/kNative 纹理")
    (planes : c ∉ chars "NV12 双平面") (size : c ∉ chars " KB") (buffer : BufferKind) : c ∉ buffer.text := by
  cases buffer with
  | oesNative => exact native
  | nv12 => exact planes
  | i420 width height =>
    rw [BufferKind.text, List.mem_append, not_or]
    exact ⟨foreign.intText _, size⟩

theorem barren_literal {c : Char} {literal first : Text} (absent : c ∉ first) (r : Regex) (rest : Text) :
    Barren (seq (lit (String.ofList (c :: literal))) r) first rest := by
  rw [lit, chars_ofList]
  exact .of_absent absent literal r rest

theorem Foreign.timesText {c : Char} (foreign : Foreign c) (handoff : c ∉ chars " | 投递(锁内挂接buffer,无整帧拷贝): ")
    (interval : c ∉ chars " ms | 帧间隔: ") (size : c ∉ chars " ms | 数据量: ") (o : OnFrameTimes) : c ∉ o.timesText := by
  simp only [OnFrameTimes.timesText, List.mem_append, not_or]
  exact ⟨⟨⟨⟨handoff, foreign.fixed _ _⟩, interval⟩, foreign.fixed _ _⟩, size⟩

/-- The total time is announced only once: the one other word with the same
initial letter is the kind of a native buffer. -/
theorem barren_details (o : OnFrameTimes) (r : Regex) (rest : Text) :
    Barren (seq (lit "OnFrame整体:") r) o.details rest := by
  have foreign : Foreign 'O' := ⟨by decide, by decide, by decide⟩
  have bar : 'O' ∉ chars " | " := by rw [chars_ofList]; decide
  have times : 'O' ∉ o.timesText :=
    foreign.timesText (by rw [chars_ofList]; decide) (by rw [chars_ofList]; decide) (by rw [chars_ofList]; decide) o
  refine .append (.append (barren_literal times r _) ?_) (barren_literal bar r _)
  cases o.buffer with
  | oesNative =>
    rw [BufferKind.text, chars_ofList, lit, chars_ofList]
    refine ⟨fails_seq_text (fun start => ?_) r, .of_absent (by decide) _ r _⟩
    simp at start
  | nv12 =>
    refine barren_literal ?_ r _
    rw [BufferKind.text, chars_ofList]
    decide
  | i420 width height =>
    refine barren_literal ?_ r _
    rw [BufferKind.text, chars_ofList, List.mem_append, not_or]
    exact ⟨foreign.intText _, by decide⟩

theorem isDot_of_absent {s : Text} (absent : '\n' ∉ s) : ∀ c ∈ s, isDot c = true := by
  intro c member
  rw [isDot, bne_iff_ne]
  rintro rfl
  exact absent member

theorem Foreign.details {c : Char} (foreign : Foreign c) (handoff : c ∉ chars " | 投递(锁内挂接buffer,无整帧拷贝): ")
    (interval : c ∉ chars " ms | 帧间隔: ") (size : c ∉ chars " ms | 数据量: ") (native : c ∉ chars "OES/kNative 纹理")
    (planes : c ∉ chars "NV12 双平面") (kilobytes : c ∉ chars " KB") (bar : c ∉ chars " | ") (o : OnFrameTimes) :
    c ∉ o.details := by
  simp only [OnFrameTimes.details, List.mem_append, not_or]
  exact ⟨⟨foreign.timesText handoff interval size o, foreign.bufferText native planes kilobytes _⟩, bar⟩

theorem details_dots (o : OnFrameTimes) : ∀ c ∈ o.details, isDot c = true := by
  have foreign : Foreign '\n' := ⟨by decide, by decide, by decide⟩
  refine isDot_of_absent (foreign.details ?_ ?_ ?_ ?_ ?_ ?_ ?_ o) <;> rw [chars_ofList] <;> decide

def OnFrameTimes.groups (o : OnFrameTimes) : Captures :=
  [("frame_id", intText o.displayId), ("onframe_ms", fixed 3 (milliseconds o.totalUs))]

theorem finds_onframe (o : OnFrameTimes) (s : Text) :
    ∃ rest, Finds onframeRe (marker ++ (o.body ++ s)) o.groups rest := by
  have next : ∀ t, Stops isDecimal (o.details ++ t) := by
    intro t
    rw [OnFrameTimes.details, OnFrameTimes.timesText]
    simp only [List.append_assoc]
    exact stops_literal (by decide) _
  refine ⟨chars " (入口至返回,含NV12/I420/OES适配与锁内挂接; 与 tracking_id mod 120 对齐)" ++ s, ?_⟩
  rw [OnFrameTimes.body, onframeRe]
  simp only [List.append_assoc]
  refine chain_skip (finds_text _ _) (chain_skip (finds_space (stops_literal (by decide) _)) ?_)
  refine chain_skip (finds_text _ _) (chain_skip (finds_space (stops_literal (by decide) _)) ?_)
  refine chain_skip (finds_text _ _) (chain_take (finds_group "frame_id" (finds_integer o.displayId (next _))) ?_)
  refine finds_lazily (details_dots o) (barren_details o _ _) ?_
  refine chain_skip (finds_text _ _) (chain_skip (finds_space (stops_fixed o.totalUs _)) ?_)
  refine chain_take (finds_group "onframe_ms" (finds_number o.totalUs (stops_literal (by decide) _))) ?_
  refine chain_skip (finds_space (stops_literal (by decide) _)) (chain_skip (finds_text _ _) (finds_chain_nil _))

def McE2ETimes.groups (d : McE2ETimes) : Captures :=
  [("frame_id", natText d.trackingId), ("e2e_us", natText d.e2eUs)]

theorem Foreign.rtpText {c : Char} (foreign : Foreign c) (name : c ∉ chars " rtp_ts=") (space : c ∉ chars " ")
    (d : McE2ETimes) : c ∉ d.rtpText := by
  simp only [McE2ETimes.rtpText, List.mem_append, not_or]
  exact ⟨⟨name, foreign.natText _⟩, space⟩

theorem finds_mce2e (d : McE2ETimes) (s : Text) :
    ∃ rest, Finds mce2eRe (marker ++ (d.body ++ s)) d.groups rest := by
  have next : ∀ t, Stops isDecimal (d.rtpText ++ t) := by
    intro t
    rw [McE2ETimes.rtpText]
    simp only [List.append_assoc]
    exact stops_literal (by decide) _
  have dots : ∀ c ∈ d.rtpText, isDot c = true := by
    refine isDot_of_absent (Foreign.rtpText ⟨by decide, by decide, by decide⟩ ?_ ?_ d) <;> rw [chars_ofList] <;> decide
  have unnamed : 'e' ∉ d.rtpText := by
    refine Foreign.rtpText ⟨by decide, by decide, by decide⟩ ?_ ?_ d <;> rw [chars_ofList] <;> decide
  refine ⟨chars " (Decode入口->Decoded返回; " ++
    (chars "含入队等待+worker+MediaCodec+NV12输出整理+cb; 不含WebRTC后续sink; 与 tracking_id mod 120 对齐)" ++ s), ?_⟩
  rw [McE2ETimes.body, mce2eRe]
  simp only [List.append_assoc]
  refine chain_skip (finds_text _ _) (chain_skip (finds_text _ _) ?_)
  refine chain_skip (finds_space (stops_literal (by decide) _)) (chain_skip (finds_text _ _) ?_)
  refine chain_skip (finds_space (stops_literal (by decide) _)) (chain_skip (finds_text _ _) ?_)
  refine chain_take (finds_group "frame_id" (finds_digits (natText_digits _) (next _))) ?_
  refine finds_lazily dots (barren_literal unnamed _ _) (chain_skip (finds_text _ _) ?_)
  refine chain_take (finds_group "e2e_us" (finds_digits (natText_digits _) (stops_literal (by decide) _))) ?_
  exact chain_skip (finds_text _ _) (finds_chain_nil _)

/-! What the patterns do not take. -/

theorem marker_eq : marker = '【' :: ['耗', '时', '分', '析', '】'] := by
  rw [marker, chars_ofList]

/-- A log prefix that is free of the marker does not hide the line. -/
theorem search_before {before : Text} (free : ¬ marker <:+: before) (r : Regex) (body : Text) :
    search (seq (text marker) r) (before ++ (marker ++ body)) = search (seq (text marker) r) (marker ++ body) := by
  rw [marker_eq] at free ⊢
  exact search_barren (.of_free (by decide) free r _)

theorem search_none {r : Regex} {body : Text} (failed : Fails r body) (clean : '【' ∉ body) :
    search (seq (text marker) r) (marker ++ body) = none := by
  have here : Fails (seq (text marker) r) (marker ++ body) := by
    refine fails_seq fun m member => ?_
    rw [run_text, List.mem_singleton] at member
    rw [member]
    exact failed
  have empty : Fails (seq (text marker) r) [] := fails_seq_text (by rw [marker_eq]; simp) r
  rw [marker_eq] at here empty ⊢
  refine search_eq_none ⟨by simpa using here, ?_⟩ empty
  exact .of_absent (List.not_mem_append (by decide) clean) _ r []

theorem fails_literal {c d : Char} {literal other : Text} (different : c ≠ d) (r : Regex) (rest : Text) :
    Fails (seq (lit (String.ofList (c :: literal))) r) (chars (String.ofList (d :: other)) ++ rest) := by
  rw [lit, chars_ofList, chars_ofList]
  exact fails_seq_text (fun start => different (List.cons_prefix_cons.mp start).1) r

/-- Only the render line has its name after the marker. -/
theorem render_fails_onframe (o : OnFrameTimes) {s : Text} (clean : '【' ∉ o.body ++ s) :
    search renderRe (marker ++ (o.body ++ s)) = none := by
  refine search_none ?_ clean
  rw [OnFrameTimes.body]
  simp only [List.append_assoc]
  have blank : 'f' ∉ chars " " := by
    rw [chars_ofList]
    decide
  exact fails_greedy isSpace_blank (stops_literal (by decide) _) (barren_literal blank _ _)
    (fails_literal (by decide) _ _)

theorem McE2ETimes.fails_word (d : McE2ETimes) {c : Char} {word : Text} (different : c ≠ '硬') (r : Regex) (s : Text) :
    Fails (seq spaces (seq (lit (String.ofList (c :: word))) r)) (d.body ++ s) := by
  rw [McE2ETimes.body]
  simp only [List.append_assoc]
  rw [← List.nil_append (chars "硬件解码总耗时" ++ _)]
  exact fails_greedy (by simp) (stops_literal (by decide) _) trivial (fails_literal different _ _)

theorem render_fails_mce2e (d : McE2ETimes) {s : Text} (clean : '【' ∉ d.body ++ s) :
    search renderRe (marker ++ (d.body ++ s)) = none :=
  search_none (d.fails_word (by decide) _ s) clean

theorem onframe_fails_mce2e (d : McE2ETimes) {s : Text} (clean : '【' ∉ d.body ++ s) :
    search onframeRe (marker ++ (d.body ++ s)) = none :=
  search_none (d.fails_word (by decide) _ s) clean

theorem OnFrameTimes.body_clean (o : OnFrameTimes) : '【' ∉ o.body := by
  have foreign : Foreign '【' := ⟨by decide, by decide, by decide⟩
  have details : '【' ∉ o.details := by
    refine foreign.details ?_ ?_ ?_ ?_ ?_ ?_ ?_ o <;> rw [chars_ofList] <;> decide
  simp only [OnFrameTimes.body, List.mem_append, not_or, details, foreign.intText, foreign.fixed, not_false_eq_true,
    and_true]
  refine ⟨⟨⟨⟨⟨⟨⟨⟨?_, ?_⟩, ?_⟩, ?_⟩, ?_⟩, ?_⟩, ?_⟩, ?_⟩, ?_⟩ <;> rw [chars_ofList] <;> decide

theorem McE2ETimes.body_clean (d : McE2ETimes) : '【' ∉ d.body := by
  have foreign : Foreign '【' := ⟨by decide, by decide, by decide⟩
  have rtp : '【' ∉ d.rtpText := by
    refine foreign.rtpText ?_ ?_ d <;> rw [chars_ofList] <;> decide
  simp only [McE2ETimes.body, List.mem_append, not_or, rtp, foreign.natText, not_false_eq_true, and_true]
  refine ⟨⟨⟨⟨⟨⟨⟨⟨?_, ?_⟩, ?_⟩, ?_⟩, ?_⟩, ?_⟩, ?_⟩, ?_⟩, ?_⟩ <;> rw [chars_ofList] <;> decide

end WebRtcDemo.Timing
