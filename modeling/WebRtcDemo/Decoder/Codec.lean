import WebRtcDemo.Decoder.AnnexB
import WebRtcDemo.Decoder.Pool

namespace WebRtcDemo.Decoder

open CInt

def kColorFormatNv12 : Int := 21
def kColorFormatYuv420Flexible : Int := 0x7F420888
def kColorFormatQtiSurface : Int := 2141391876

def isNv12FamilyOutput (fmt : Int) : Bool :=
  fmt == 0 || fmt == kColorFormatNv12 || fmt == kColorFormatYuv420Flexible || fmt == kColorFormatQtiSurface

/-- The keys of an `AMediaFormat` that are read; a missing key is `none`. -/
structure OutputFormat where
  width : Option Int
  height : Option Int
  colorFormat : Option Int
  androidColorFormat : Option Int
  stride : Option Int
  sliceHeight : Option Int
  deriving DecidableEq, Repr

/-- An output buffer as MediaCodec hands it out. `cap` is `none` when
`getOutputBuffer` returns null; the last fields are what the calls made while
the buffer is copied return. -/
structure OutputBuffer where
  index : Nat
  offset : Int
  size : Int
  presentationTimeUs : Nat
  cap : Option Nat
  format : Option OutputFormat
  nv12Created : Bool
  nv12ToI420 : Bool
  i420Created : Bool
  deriving DecidableEq, Repr

/-- What `AMediaCodec_dequeueOutputBuffer` returns. -/
inductive OutputResponse
  | formatChanged (format : Option OutputFormat)
  | buffersChanged (format : Option OutputFormat)
  | tryAgainLater
  | error
  | buffer (b : OutputBuffer)
  deriving DecidableEq, Repr

/-- The parameters that travel with an encoded frame. -/
structure FrameMeta where
  renderTimeMs : Int
  rtpTimestamp : Nat
  trackingId : Option Nat
  deriving DecidableEq, Repr

structure EncodedFrame where
  data : Bytes
  metadata : FrameMeta
  isKeyframe : Bool
  deriving DecidableEq, Repr

/-- What `VideoFrame::Builder` was given; `id` is `none` when it was not set. -/
structure VideoFrame where
  rtpTimestamp : Nat
  timestampUs : Int
  id : Option Nat
  deriving DecidableEq, Repr

/-- Members of `Impl` that `ProcessOneFrame` uses. -/
structure Impl where
  codec : Bool
  callback : Bool
  outWidth : Int
  outHeight : Int
  yStride : Int
  sliceHeight : Int
  colorFormat : Int
  nextInputPtsUs : Nat
  pool : PoolState

/-- The results of the codec calls of one `ProcessOneFrame`. Each drain sees
its own list, after which nothing more is ready. -/
structure CodecScript where
  dequeueInput : Option Nat
  inputCap : Option Nat
  queueInputOk : Bool
  drain0 : List OutputResponse
  drain1 : List OutputResponse
  deriving DecidableEq, Repr

/-- The calls made. `processing` records the frame a call is about, and
`decoded` the presentation time of the output buffer the picture was copied
from. -/
inductive CodecAction
  | processing (metadata : FrameMeta)
  | dequeueInputBuffer (index : Nat)
  | queueInputBuffer (index size pts : Nat) (keyFrame accepted : Bool)
  | dequeueOutputBuffer (index : Nat) (size : Int) (pts : Nat)
  | decoded (frame : VideoFrame) (pts : Nat)
  | recordAfterDecoded (rtpTimestamp : Nat)
  | releaseOutputBuffer (index : Nat)
  deriving DecidableEq, Repr

def updateOutputFormat (s : Impl) (fmt : OutputFormat) : Impl :=
  let width := fmt.width.getD s.outWidth
  let height := fmt.height.getD s.outHeight
  let color := match fmt.colorFormat with
    | some color => color
    | none => fmt.androidColorFormat.getD s.colorFormat
  let stride := match fmt.stride with
    | some stride => if stride < width then width else stride
    | none => width
  let slice := match fmt.sliceHeight with
    | some slice => if slice < height then height else slice
    | none => height
  { s with outWidth := width, outHeight := height, colorFormat := color, yStride := stride, sliceHeight := slice }

def refreshOutputFormat (s : Impl) (fmt : Option OutputFormat) : Impl :=
  if s.codec then
    match fmt with
    | none => s
    | some fmt => updateOutputFormat s fmt
  else s

/-! The copies. Only whether they succeed matters here. -/

def fillI420FromNv12 (cap : Nat) (offset width height yStride sliceHeight : Int) (nv12ToI420 : Bool) : Bool :=
  if width ≤ 0 ∨ height ≤ 0 ∨ yStride < width then false
  else if wrap (wrap (offset + wrap (yStride * sliceHeight)) + wrap (yStride * sliceHeight.tdiv 2)) > wrap cap then false
  else nv12ToI420

def fillI420FromNv12Tight (cap : Nat) (offset width height : Int) (nv12ToI420 : Bool) : Bool :=
  if width ≤ 0 ∨ height ≤ 0 then false
  else if offset < 0 ∨ wrap (offset + wrap (wrap (width * height) + wrap (width * height.tdiv 2))) > wrap cap then false
  else nv12ToI420

def fillNV12BufferFromNv12 (cap : Nat) (offset width height yStride sliceHeight : Int) : Bool :=
  if width ≤ 0 ∨ height ≤ 0 ∨ yStride < width then false
  else decide
    (wrap (wrap (offset + wrap (yStride * sliceHeight)) + wrap (yStride * halfUp height)) ≤ wrap cap)

def fillNV12BufferFromNv12Tight (cap : Nat) (offset width height : Int) : Bool :=
  if width ≤ 0 ∨ height ≤ 0 then false
  else if offset < 0 then false
  else decide (wrap (offset + wrap (wrap (width * height) + wrap (width * halfUp height))) ≤ wrap cap)

/-- Whether a frame buffer comes out: an `NV12Buffer`, else a pooled I420
buffer, else one of its own. -/
def copyOutput (s : Impl) (b : OutputBuffer) (cap : Nat) : Impl × Bool :=
  if b.nv12Created ∧ (fillNV12BufferFromNv12 cap b.offset s.outWidth s.outHeight s.yStride s.sliceHeight ∨
      fillNV12BufferFromNv12Tight cap b.offset s.outWidth s.outHeight) then (s, true)
  else
    let ok := fillI420FromNv12 cap b.offset s.outWidth s.outHeight s.yStride s.sliceHeight b.nv12ToI420 ||
      fillI420FromNv12Tight cap b.offset s.outWidth s.outHeight b.nv12ToI420
    let pooled := (acquirePoolSlot s.pool s.outWidth s.outHeight).isSome && ok
    ({ s with pool := acquire s.pool s.outWidth s.outHeight ok }, pooled || (b.i420Created && ok))

/-- Whether the picture of an output buffer reaches the callback. -/
def deliverOutput (s : Impl) (b : OutputBuffer) : Impl × Bool :=
  if 0 < b.size ∧ 0 < s.outWidth ∧ 0 < s.outHeight ∧ s.callback ∧ isNv12FamilyOutput s.colorFormat then
    match b.cap with
    | none => (s, false)
    | some cap => if wrapSize (toSize b.offset + toSize b.size) ≤ cap then copyOutput s b cap else (s, false)
  else (s, false)

/-- The frame is labelled with the parameters of the call. -/
def buildFrame (m : FrameMeta) : VideoFrame := ⟨m.rtpTimestamp, m.renderTimeMs * 1000, m.trackingId⟩

/-- Returns also how many frames were delivered. -/
def drainOutputs (m : FrameMeta) : Impl → List OutputResponse → Impl × List CodecAction × Nat
  | s, [] => (s, [], 0)
  | s, .formatChanged fmt :: rest => drainOutputs m (refreshOutputFormat s fmt) rest
  | s, .buffersChanged fmt :: rest => drainOutputs m (refreshOutputFormat s fmt) rest
  | s, .tryAgainLater :: _ => (s, [], 0)
  | s, .error :: _ => (s, [], 0)
  | s, .buffer b :: rest =>
    let s := if 0 < b.size ∧ (s.outWidth ≤ 0 ∨ s.outHeight ≤ 0) then refreshOutputFormat s b.format else s
    let (s, ok) := deliverOutput s b
    let shown := if ok then
        [.decoded (buildFrame m) b.presentationTimeUs, .recordAfterDecoded m.rtpTimestamp]
      else []
    let (t, later, delivered) := drainOutputs m s rest
    (t, .dequeueOutputBuffer b.index b.size b.presentationTimeUs :: shown ++ .releaseOutputBuffer b.index :: later,
      delivered + if ok then 1 else 0)

/-- The two drains after an input was queued. -/
def drainTwice (m : FrameMeta) (s : Impl) (script : CodecScript) : Impl × List CodecAction :=
  let (s, first, _) := drainOutputs m s script.drain0
  let (s, second, _) := drainOutputs m s script.drain1
  (s, first ++ second)

/-- The bytes that are fed: as they are, or converted. -/
def feedOf (data : Bytes) : Bytes := if looksLikeAnnexB data then data else annexBToAvcc data

/-- `!in_buf || feed_size > in_cap` -/
def tooSmall : Option Nat → Nat → Bool
  | none, _ => true
  | some cap, size => cap < size

def processOneFrame (s : Impl) (frame : EncodedFrame) (script : CodecScript) : Impl × List CodecAction :=
  if s.codec = false ∨ frame.data = [] then (s, [])
  else
    let feed := feedOf frame.data
    if feed = [] then (s, [])
    else match script.dequeueInput with
      | none =>
        let (t, out, _) := drainOutputs frame.metadata s script.drain0
        (t, .processing frame.metadata :: out)
      | some index =>
        let started := [.processing frame.metadata, .dequeueInputBuffer index]
        if tooSmall script.inputCap feed.length then (s, started ++ [.queueInputBuffer index 0 0 false true])
        else
          let pts := s.nextInputPtsUs
          let s := { s with nextInputPtsUs := pts + 1 }
          if script.queueInputOk then
            let (t, out) := drainTwice frame.metadata s script
            (t, started ++ .queueInputBuffer index feed.length pts frame.isKeyframe true :: out)
          else
            (s, started ++ [.queueInputBuffer index feed.length pts frame.isKeyframe false,
              .queueInputBuffer index 0 0 false true])

end WebRtcDemo.Decoder
