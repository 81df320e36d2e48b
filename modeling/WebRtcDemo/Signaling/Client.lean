import WebRtcDemo.Lib.QuotedText

namespace WebRtcDemo.Signaling
open ByteText

/-! The sending side of `SignalingClient`. -/

/-- What one `send` call on the socket takes of the bytes offered to it. -/
inductive SendResult
  | all
  | short (n : Nat)
  | error
  deriving DecidableEq, Repr

def SendResult.accepted (msg : Bytes) : SendResult → Bytes
  | .all => msg
  | .short n => msg.take n
  | .error => []

/-- The writing end of a client: its descriptor and the bytes the socket has
accepted so far. -/
structure Sender where
  sock_fd_ : Int
  wire : Bytes
  deriving DecidableEq, Repr

/-- The result of `send` is looked at by nobody. -/
def sendLine (c : Sender) (line : Bytes) (sent : SendResult) : Sender :=
  if c.sock_fd_ < 0 then c else { c with wire := c.wire ++ sent.accepted (line ++ [10]) }

/-- The escape loop of `SendOffer` and of `SendAnswer`. -/
def escapeSdp (sdp : Bytes) : Bytes :=
  sdp.flatMap fun c =>
    if c = 34 then [92, 34] else if c = 92 then [92, 92] else if c = 10 then ascii "\\n"
    else if c = 13 then ascii "\\r" else [c]

/-- The escape loop of `SendIceCandidate` has no branch for line ends. -/
def escapeCandidate (candidate : Bytes) : Bytes :=
  candidate.flatMap fun c => if c = 34 then [92, 34] else if c = 92 then [92, 92] else [c]

/-- The line `SendOffer` hands to `SendLine`. -/
def offerLine (sdp : Bytes) : Bytes :=
  ascii "\x7b\"type\":\"offer\",\"sdp\":\"" ++ escapeSdp sdp ++ ascii "\"\x7d"

def answerLine (sdp : Bytes) : Bytes :=
  ascii "\x7b\"type\":\"answer\",\"sdp\":\"" ++ escapeSdp sdp ++ ascii "\"\x7d"

/-- The line of `SendIceCandidate`; the mid is written as it is. -/
def iceLine (mid : Bytes) (mline_index : Int32) (candidate : Bytes) : Bytes :=
  ascii "\x7b\"type\":\"ice\",\"mid\":\"" ++ mid ++ ascii "\",\"mlineIndex\":" ++
    decimal mline_index.toInt ++ ascii ",\"candidate\":\"" ++ escapeCandidate candidate ++ ascii "\"\x7d"

def sendOffer (c : Sender) (sdp : Bytes) (sent : SendResult) : Sender := sendLine c (offerLine sdp) sent

def sendAnswer (c : Sender) (sdp : Bytes) (sent : SendResult) : Sender := sendLine c (answerLine sdp) sent

def sendIceCandidate (c : Sender) (mid : Bytes) (mline_index : Int32) (candidate : Bytes)
    (sent : SendResult) : Sender :=
  sendLine c (iceLine mid mline_index candidate) sent

/-- One call of the three sending functions, with its arguments. -/
inductive Message
  | offer (sdp : Bytes)
  | answer (sdp : Bytes)
  | ice (mid : Bytes) (mline_index : Int32) (candidate : Bytes)
  deriving DecidableEq, Repr

def Message.line : Message → Bytes
  | .offer sdp => offerLine sdp
  | .answer sdp => answerLine sdp
  | .ice mid mline_index candidate => iceLine mid mline_index candidate

def Message.send (c : Sender) (sent : SendResult) : Message → Sender
  | .offer sdp => sendOffer c sdp sent
  | .answer sdp => sendAnswer c sdp sent
  | .ice mid mline_index candidate => sendIceCandidate c mid mline_index candidate sent

/-- A sequence of sends that all complete. -/
def sendAll (c : Sender) (msgs : List Message) : Sender :=
  msgs.foldl (fun c m => m.send c .all) c

/-! The receiving side. -/

/-- A call of one of the callbacks, with its arguments. -/
inductive Callback
  | onAnswer (type sdp : Bytes)
  | onOffer (type sdp : Bytes)
  | onIce (mid : Bytes) (mline_index : Int32) (candidate : Bytes)
  deriving DecidableEq, Repr

/-- Which of `on_answer_`, `on_offer_` and `on_ice_` were set. -/
structure Handlers where
  on_answer_ : Bool
  on_offer_ : Bool
  on_ice_ : Bool
  deriving DecidableEq, Repr

def Handlers.installed (h : Handlers) : Callback → Bool
  | .onAnswer _ _ => h.on_answer_
  | .onOffer _ _ => h.on_offer_
  | .onIce _ _ _ => h.on_ice_

/-- The unescape loops read up to the first unescaped quotation mark or to
the end of the line; a backslash that ends the line stands for itself. -/
def unescape (decode : UInt8 → UInt8) : Bytes → Bytes
  | [] => []
  | [c] => if c = 34 then [] else [c]
  | c :: d :: rest =>
    if c = 92 then decode d :: unescape decode rest
    else if c = 34 then []
    else c :: unescape decode (d :: rest)

/-- The loop of the answer branch and of the offer branch. -/
def unescapeSdp : Bytes → Bytes :=
  unescape fun d => if d = 110 then 10 else if d = 114 then 13 else if d = 34 then 34 else d

def unescapeCandidate : Bytes → Bytes := unescape id

/-- The `sdp` member of a line. -/
def sdpOf (line : Bytes) : Option Bytes :=
  (find (ascii "\"sdp\":\"") line).map fun p => unescapeSdp (line.drop (p + 7))

/-- The `mid` member, empty when it is absent or has no closing mark. -/
def midOf (line : Bytes) : Bytes :=
  match find (ascii "\"mid\":\"") line with
  | none => []
  | some p =>
    match (line.drop (p + 7)).idxOf? 34 with
    | none => []
    | some length => (line.drop (p + 7)).take length

def mlineOf (line : Bytes) : Int32 :=
  match find (ascii "\"mlineIndex\":") line with
  | none => 0
  | some p => atoi (cString (line.drop (p + 13)))

def candidateOf (line : Bytes) : Bytes :=
  match find (ascii "\"candidate\":\"") line with
  | none => []
  | some p => unescapeCandidate (line.drop (p + 13))

/-- The callback a line asks for. The type tests run over the whole line, in
this order, and the first one that succeeds decides. -/
def parseLine (line : Bytes) : Option Callback :=
  if line.isEmpty then none
  else if contains (ascii "\"type\":\"register\"") line then none
  else if contains (ascii "\"type\":\"answer\"") line || contains (ascii "\"type\": \"answer\"") line then
    (sdpOf line).map (.onAnswer (ascii "answer"))
  else if contains (ascii "\"type\":\"offer\"") line || contains (ascii "\"type\": \"offer\"") line then
    (sdpOf line).map (.onOffer (ascii "offer"))
  else if contains (ascii "\"type\":\"ice\"") line || contains (ascii "\"type\": \"ice\"") line then
    if (candidateOf line).isEmpty then none
    else some (.onIce (midOf line) (mlineOf line) (candidateOf line))
  else none

def parseAndDispatch (h : Handlers) (line : Bytes) : List Callback :=
  (parseLine line).toList.filter h.installed

/-- One successful `recv`: the buffer has 65536 bytes and the last one is
kept for the terminator. -/
structure Chunk where
  bytes : Bytes
  size : 0 < bytes.length ∧ bytes.length ≤ 65535

inductive Errno
  | again
  | wouldBlock
  | other
  deriving DecidableEq, Repr

/-- What `recv` returned. -/
inductive RecvResult
  | data (chunk : Chunk)
  | closed
  | failed (errno : Errno)

/-- The inner loop of `ReaderLoop`: cut off complete lines, keep the rest. -/
def takeLines (buf : Bytes) : List Bytes × Bytes :=
  match found : buf.idxOf? 10 with
  | none => ([], buf)
  | some pos =>
    have : (buf.drop (pos + 1)).length < buf.length := by
      have := (List.idxOf?_eq_some_iff.mp found).1
      simp only [List.length_drop]
      omega
    let (lines, rest) := takeLines (buf.drop (pos + 1))
    (buf.take pos :: lines, rest)
termination_by buf.length

/-- The lines `ReaderLoop` passes to `ParseAndDispatch`. The received bytes
are appended as a C string. -/
def readerLines (buf : Bytes) : List RecvResult → List Bytes
  | [] => []
  | .data chunk :: rest =>
    let (lines, left) := takeLines (buf ++ cString chunk.bytes)
    lines ++ readerLines left rest
  | .closed :: _ => []
  | .failed .other :: _ => []
  | .failed _ :: rest => readerLines buf rest

/-- The callbacks of a reader thread that is not stopped from outside. -/
def readerLoop (h : Handlers) (received : List RecvResult) : List Callback :=
  (readerLines [] received).flatMap (parseAndDispatch h)

end WebRtcDemo.Signaling
