import WebRtcDemo.Signaling.RoundTrip

/-! The codec of the candidates against that of the session descriptions. -/

namespace WebRtcDemo.Signaling
open ByteText

/-- The text that a callback delivers. -/
def Callback.text : Callback → Bytes
  | .onAnswer _ sdp => sdp
  | .onOffer _ sdp => sdp
  | .onIce _ _ candidate => candidate

/-- However the two byte sequences are cut, one callback is made for each and
both deliver the same text. -/
def DeliversAlike (c : Sender) (mid : Bytes) (mline_index : Int32) (s : Bytes) : Prop :=
  ∀ ice answer : List Chunk,
    (ice.map (·.bytes)).flatten = (sendIceCandidate c mid mline_index s .all).wire →
    (answer.map (·.bytes)).flatten = (sendAnswer c s .all).wire →
      (readerLoop Handlers.all (ice.map .data)).map Callback.text =
        (readerLoop Handlers.all (answer.map .data)).map Callback.text ∧
      (readerLoop Handlers.all (ice.map .data)).length = 1

/-- An escaped text in which a line end is written as an escape. -/
def escapesLineEnd : Bytes → Bool
  | 92 :: d :: rest => d == 110 || d == 114 || escapesLineEnd rest
  | _ :: rest => escapesLineEnd rest
  | [] => false

/-! The unescape loops. -/

/-- The two loops decode one escape alike unless it is a line end. -/
theorem decode_eq_iff (d : UInt8) :
    id d = (if d = 110 then 10 else if d = 114 then 13 else if d = 34 then 34 else d) ↔ d ≠ 110 ∧ d ≠ 114 := by
  by_cases lineFeed : d = 110
  · subst lineFeed
    decide
  by_cases carriageReturn : d = 114
  · subst carriageReturn
    decide
  by_cases quote : d = 34
  · subst quote
    decide
  · simp [lineFeed, carriageReturn, quote]

theorem unescapeCandidate_eq_unescapeSdp_iff {body : Bytes} (escaped : Escaped body) (rest : Bytes) :
    unescapeCandidate (body ++ 34 :: rest) = unescapeSdp (body ++ 34 :: rest) ↔ escapesLineEnd body = false := by
  unfold unescapeCandidate unescapeSdp
  induction escaped with
  | nil => simp [escapesLineEnd]
  | @plain c s notQuote notSlash _ ih =>
    rw [List.cons_append, unescape_plain _ notQuote notSlash, unescape_plain _ notQuote notSlash, List.cons_inj_right, ih]
    simp [escapesLineEnd, notSlash]
  | @pair d s _ ih =>
    simp only [List.cons_append, unescape_pair, List.cons.injEq, ih, decode_eq_iff, escapesLineEnd, Bool.or_eq_false_iff,
      beq_eq_false_iff_ne]

theorem mem_unescapeCandidate {b : UInt8} {s : Bytes} (member : b ∈ unescapeCandidate s) : b ∈ s := by
  unfold unescapeCandidate at member
  induction s using unescape.induct with
  | case1 => cases member
  | case2 => simp [unescape] at member
  | case3 c notQuote => simpa [unescape, notQuote] using member
  | case4 d rest ih =>
    rw [unescape_pair, List.mem_cons] at member
    rcases member with rfl | later
    · simp
    · simp [ih later]
  | case5 => simp [unescape] at member
  | case6 c d rest notSlash notQuote ih =>
    rw [unescape_plain _ notQuote notSlash, List.mem_cons] at member
    rcases member with rfl | later
    · exact List.mem_cons_self
    · exact List.mem_cons_of_mem _ (ih later)

/-! The lines of a candidate that has line ends of its own. -/

theorem takeLines_isInfix {s line : Bytes} (member : line ∈ (takeLines s).1) : line <:+: s ∧ 10 ∉ line := by
  induction s using lines_induction with
  | last s absent =>
    rw [takeLines_of_not_mem absent] at member
    cases member
  | line first rest absent ih =>
    rw [takeLines_line absent] at member
    rcases List.mem_cons.mp member with rfl | later
    · exact ⟨(List.prefix_append _ _).isInfix, absent⟩
    · obtain ⟨inside, clean⟩ := ih later
      exact ⟨inside.trans ((List.suffix_cons 10 rest).trans (List.suffix_append first _)).isInfix, clean⟩

theorem mem_candidateOf {b : UInt8} {line : Bytes} (member : b ∈ candidateOf line) : b ∈ line := by
  unfold candidateOf at member
  split at member
  · cases member
  · exact List.mem_of_mem_drop (mem_unescapeCandidate member)

/-- What a line without an answer and without an offer delivers is part of it. -/
theorem mem_text_of_ice {line : Bytes} {call : Callback} (parsed : parseLine line = some call)
    (others : ∀ value ∈ [ascii "\"answer\"", ascii " \"answer\"", ascii "\"offer\"", ascii " \"offer\""],
      contains (typePattern value) line = false) : ∀ b ∈ call.text, b ∈ line := by
  simp only [List.forall_mem_cons, List.not_mem_nil, false_implies, implies_true, and_true] at others
  obtain ⟨answer, spacedAnswer, offer, spacedOffer⟩ := others
  simp only [parseLine_eq, answer, spacedAnswer, offer, spacedOffer, Bool.or_self, Bool.false_eq_true, if_false,
    Option.ite_none_left_eq_some, Option.ite_none_right_eq_some, Option.some.injEq] at parsed
  obtain ⟨_, _, _, _, rfl⟩ := parsed
  exact fun b => mem_candidateOf

theorem zero_not_mem_iceLine {mid candidate : Bytes} (token : ∀ c ∈ mid, isTokenChar c = true) (mline_index : Int32)
    (nulFree : 0 ∉ candidate) : 0 ∉ iceLine mid mline_index candidate := by
  have tag : (0 : UInt8) ∉ mid := fun member => (isTokenChar_excludes (token _ member)).2.2.2 rfl
  have payload : 0 ∉ escapeCandidate candidate := by
    intro member
    rcases mem_escapeCandidate member with same | same | inside
    · cases same
    · cases same
    · exact nulFree inside
  simp [iceLine, ascii, decimal_excludes, tag, payload]

/-- No line that the reader cuts from a candidate message brings a line end
back: the types of the other messages are nowhere in it. -/
theorem texts_of_ice {mid s : Bytes} (token : ∀ c ∈ mid, isTokenChar c = true) (mline_index : Int32) (nulFree : 0 ∉ s)
    {chunks : List Chunk} (cut : (chunks.map (·.bytes)).flatten = iceLine mid mline_index s ++ [10]) :
    ∀ call ∈ readerLoop Handlers.all (chunks.map .data), 10 ∉ call.text := by
  have clean : ∀ line ∈ (takeLines (iceLine mid mline_index s ++ [10])).1, 0 ∉ line := by
    intro line member zero
    have inside := (takeLines_isInfix member).1.subset zero
    rw [List.mem_append] at inside
    rcases inside with here | ending
    · exact zero_not_mem_iceLine token mline_index nulFree here
    · simp at ending
  have lines : readerLines [] (chunks.map .data) = (takeLines (iceLine mid mline_index s ++ [10])).1 := by
    rw [readerLines_chunks (by simp) (by rwa [List.nil_append, cut]), List.nil_append, cut]
  intro call made ending
  rw [readerLoop, lines, List.mem_flatMap] at made
  obtain ⟨line, member, dispatched⟩ := made
  have parsed : parseLine line = some call := Option.mem_toList.mp (List.mem_of_mem_filter dispatched)
  obtain ⟨inside, oneLine⟩ := takeLines_isInfix member
  refine oneLine (mem_text_of_ice parsed ?_ 10 ending)
  -- a type in a part of the message would be one in the whole
  have absent {value : Bytes} (unbroken : 10 ∉ typePattern value)
      (apart : ∀ i < (ascii "\x7b\"type\":\"ice\",\"mid\":").length,
        clash (typePattern value) ((ascii "\x7b\"type\":\"ice\",\"mid\":").drop i) = true) :
      contains (typePattern value) line = false := by
    rw [Bool.eq_false_iff]
    intro found
    have whole := (contains_iff_isInfix.mp found).trans inside
    rcases List.infix_concat_iff.mp whole with last | within
    · rcases List.suffix_concat_iff.mp last with empty | ⟨start, ended, _⟩
      · cases empty
      · exact unbroken (by rw [ended]; simp)
    · exact absurd (contains_iff_isInfix.mpr within)
        (Bool.eq_false_iff.mp (contains_iceLine_eq_false token mline_index s apart))
  simp only [List.forall_mem_cons, List.not_mem_nil, false_implies, implies_true, and_true]
  exact ⟨absent (by decide) (by decide), absent (by decide) (by decide), absent (by decide) (by decide),
    absent (by decide) (by decide)⟩

section messages
variable {c : Sender} {mid s : Bytes} {mline_index : Int32} (isOpen : 0 ≤ c.sock_fd_) (fresh : c.wire = [])
include isOpen fresh

theorem readerLoop_sendAnswer (nulFree : 0 ∉ s) {chunks : List Chunk}
    (cut : (chunks.map (·.bytes)).flatten = (sendAnswer c s .all).wire) :
    readerLoop Handlers.all (chunks.map .data) = [.onAnswer (ascii "answer") s] :=
  readerLoop_sendAll [.answer s] (by simpa [Message.WellFormed] using nulFree) isOpen fresh cut

theorem DeliversAlike.of_one_line (present : s ≠ []) (nulFree : 0 ∉ s) (token : mid.all isTokenChar = true)
    (oneLine : 10 ∉ s) : DeliversAlike c mid mline_index s := by
  intro ice answer cutIce cutAnswer
  have good : ∀ m ∈ [Message.ice mid mline_index s], m.WellFormed :=
    List.forall_mem_singleton.mpr ⟨token, present, nulFree, oneLine⟩
  rw [readerLoop_sendAll [.ice mid mline_index s] good isOpen fresh cutIce,
    readerLoop_sendAnswer isOpen fresh nulFree cutAnswer]
  exact ⟨rfl, rfl⟩

theorem DeliversAlike.one_line (nulFree : 0 ∉ s) (token : mid.all isTokenChar = true)
    (alike : DeliversAlike c mid mline_index s) : 10 ∉ s := by
  obtain ⟨ice, cutIce⟩ := exists_chunks (sendIceCandidate c mid mline_index s .all).wire
  obtain ⟨answer, cutAnswer⟩ := exists_chunks (sendAnswer c s .all).wire
  have wire : (sendIceCandidate c mid mline_index s .all).wire = iceLine mid mline_index s ++ [10] := by
    simp [sendIceCandidate, sendLine, SendResult.accepted, Int.not_lt.mpr isOpen, fresh]
  have texts := texts_of_ice (List.all_eq_true.mp token) mline_index nulFree (cutIce.trans wire)
  have same := (alike ice answer cutIce cutAnswer).1
  rw [readerLoop_sendAnswer isOpen fresh nulFree cutAnswer] at same
  have delivered : s ∈ (readerLoop Handlers.all (ice.map .data)).map Callback.text := by
    rw [same]
    exact List.mem_singleton_self s
  obtain ⟨call, made, rfl⟩ := List.mem_map.mp delivered
  exact texts call made

end messages

/-- A text without a NUL comes through as a candidate as it does as an answer
if and only if it is one line, and the unescape loops agree on an escaped text
if and only if no line end is escaped in it. -/
theorem codecs_agree_iff {c : Sender} (isOpen : 0 ≤ c.sock_fd_) (fresh : c.wire = []) {mid s : Bytes} (present : s ≠ [])
    (nulFree : 0 ∉ s) (token : mid.all isTokenChar = true) (mline_index : Int32) {body : Bytes} (escaped : Escaped body)
    (rest : Bytes) :
    (DeliversAlike c mid mline_index s ↔ 10 ∉ s) ∧
      (unescapeCandidate (body ++ 34 :: rest) = unescapeSdp (body ++ 34 :: rest) ↔ escapesLineEnd body = false) := by
  refine ⟨⟨DeliversAlike.one_line isOpen fresh nulFree token, ?_⟩, unescapeCandidate_eq_unescapeSdp_iff escaped rest⟩
  exact DeliversAlike.of_one_line isOpen fresh present nulFree token

/-- A quotation mark, a backslash and a carriage return in one line. -/
theorem codecs_agree_one_line :
    DeliversAlike ⟨3, []⟩ (ascii "0") 0 [34, 92, 13] ∧
      unescapeCandidate (ascii "\\\"\\\\" ++ [34]) = unescapeSdp (ascii "\\\"\\\\" ++ [34]) := by
  have escaped : Escaped (ascii "\\\"\\\\") := .pair (.pair .nil)
  have agree := codecs_agree_iff (c := ⟨3, []⟩) (by decide) rfl (by decide : ([34, 92, 13] : Bytes) ≠ []) (by decide)
    (by decide : (ascii "0").all isTokenChar = true) 0 escaped []
  exact ⟨agree.1.mpr (by decide), agree.2.mpr (by decide)⟩

/-- Two lines, and an escaped line end. -/
theorem codecs_disagree_line_end :
    ¬ DeliversAlike ⟨3, []⟩ (ascii "0") 0 [97, 10, 98] ∧
      unescapeCandidate (ascii "\\n" ++ [34]) ≠ unescapeSdp (ascii "\\n" ++ [34]) := by
  refine ⟨fun alike => ?_, by decide⟩
  exact DeliversAlike.one_line (by decide) rfl (by decide) (by decide) alike (by decide)

end WebRtcDemo.Signaling
