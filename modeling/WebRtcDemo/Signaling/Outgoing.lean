import WebRtcDemo.Lib.Machine
import WebRtcDemo.Signaling.RoundTrip

namespace WebRtcDemo.Signaling
open ByteText

/-! What stands on the wire after any sequence of sends. -/

def registerLine (role : Bytes) : Bytes :=
  ascii "\x7b\"type\":\"register\",\"role\":\"" ++ role ++ ascii "\"\x7d"

/-- The end of `Connect`: the socket is kept only if the registration went out whole. -/
def connect (role : Bytes) (fd : Nat) (sent : SendResult) : Sender :=
  let msg := registerLine role ++ [10]
  if (sent.accepted msg).length = msg.length then ⟨fd, msg⟩ else ⟨-1, sent.accepted msg⟩

/-- The sending side of a client after `Connect`. An event is a call with the
outcome of its `send`; the outputs are the encoded messages. Both receivers
register with the role `subscriber`. -/
def outgoing (fd : Nat) (registered : SendResult) : Machine Sender (Message × SendResult) Bytes where
  init := connect (ascii "subscriber") fd registered
  step c call := some (call.1.send c call.2, [call.1.line])

/-- The lines that the server can extract are whole messages, in order. -/
def FramesWhole (c : Sender) (encoded : List Bytes) : Prop :=
  (segments c.wire).Sublist (registerLine (ascii "subscriber") :: encoded)

/-- A send does no harm if none of its bytes that were accepted is a line end, or if
its message is one line and the bytes before it end with a line end. -/
def Sender.Unbroken (c : Sender) (call : Message × SendResult) : Prop :=
  c.sock_fd_ < 0 ∨ 10 ∉ call.2.accepted (call.1.line ++ [10]) ∨
    10 ∉ call.1.line ∧ c.wire.getLast? = some 10

instance (c : Sender) (call : Message × SendResult) : Decidable (c.Unbroken call) :=
  inferInstanceAs (Decidable (_ ∨ _ ∨ _ ∧ _))

theorem Message.send_eq (m : Message) (c : Sender) (sent : SendResult) : m.send c sent = sendLine c m.line sent := by
  cases m <;> rfl

theorem SendResult.accepted_isPrefix (msg : Bytes) (sent : SendResult) : sent.accepted msg <+: msg := by
  cases sent with
  | all => exact List.prefix_rfl
  | short n => exact List.take_prefix n msg
  | error => exact List.nil_prefix

/-- What is accepted of one line is the line with its end or has no line end. -/
theorem SendResult.accepted_line {line : Bytes} (oneLine : 10 ∉ line) (sent : SendResult) :
    sent.accepted (line ++ [10]) = line ++ [10] ∨ 10 ∉ sent.accepted (line ++ [10]) := by
  cases sent with
  | all => exact Or.inl rfl
  | short n =>
    by_cases enough : n ≤ line.length
    · refine Or.inr fun inside => oneLine ?_
      rw [SendResult.accepted, List.take_append_of_le_length enough] at inside
      exact List.mem_of_mem_take inside
    · exact Or.inl (List.take_of_length_le (by simp; omega))
  | error => exact Or.inr List.not_mem_nil

theorem takeLines_rest_eq_nil {s : Bytes} (ended : s.getLast? = some 10) : (takeLines s).2 = [] := by
  by_contra left
  have whole := takeLines_decomposition s
  rw [← whole, List.getLast?_append_of_ne_nil _ left] at ended
  exact takeLines_rest s (List.mem_of_getLast? ended)

theorem segments_append_of_not_mem (s : Bytes) {t : Bytes} (absent : 10 ∉ t) :
    segments (s ++ t) = segments s := by
  rw [segments_eq_takeLines, segments_eq_takeLines, takeLines_append_fst absent]

theorem segments_append_line {s line : Bytes} (ended : s.getLast? = some 10) (oneLine : 10 ∉ line) :
    segments (s ++ (line ++ [10])) = segments s ++ [line] := by
  have added : takeLines (line ++ [10]) = ([line], []) := by
    rw [takeLines_line oneLine, takeLines_of_not_mem List.not_mem_nil]
  rw [segments_eq_takeLines, segments_eq_takeLines, takeLines_append, takeLines_rest_eq_nil ended,
    List.nil_append, added]

theorem FramesWhole.send {c : Sender} {encoded : List Bytes} (whole : FramesWhole c encoded)
    {call : Message × SendResult} (unbroken : c.Unbroken call) :
    FramesWhole (call.1.send c call.2) (encoded ++ [call.1.line]) := by
  obtain ⟨m, sent⟩ := call
  have kept : (segments c.wire).Sublist (registerLine (ascii "subscriber") :: (encoded ++ [m.line])) :=
    whole.trans (by rw [← List.cons_append]; exact List.sublist_append_left _ _)
  unfold FramesWhole
  rw [Message.send_eq, sendLine]
  split
  · exact kept
  · rename_i isOpen
    by_cases inner : 10 ∈ sent.accepted (m.line ++ [10])
    · obtain ⟨oneLine, ended⟩ := (unbroken.resolve_left isOpen).resolve_left (not_not_intro inner)
      have complete := (SendResult.accepted_line oneLine sent).resolve_right (not_not_intro inner)
      rw [complete, segments_append_line ended oneLine, ← List.cons_append]
      exact whole.append (List.Sublist.refl _)
    · rw [segments_append_of_not_mem _ inner]
      exact kept

theorem registerLine_one : 10 ∉ registerLine (ascii "subscriber") := by decide

theorem framesWhole_connect (fd : Nat) (registered : SendResult) :
    FramesWhole (connect (ascii "subscriber") fd registered) [] := by
  unfold FramesWhole connect
  rcases SendResult.accepted_line registerLine_one registered with complete | partly
  · simp only [complete, if_true, segments_eq_takeLines]
    rw [takeLines_line registerLine_one, takeLines_of_not_mem List.not_mem_nil]
  · have less : (registered.accepted (registerLine (ascii "subscriber") ++ [10])).length ≠
        (registerLine (ascii "subscriber") ++ [10]).length := by
      intro same
      rw [(SendResult.accepted_isPrefix _ registered).eq_of_length same] at partly
      simp at partly
    simp only [if_neg less, segments_eq_takeLines, takeLines_of_not_mem partly]
    exact List.nil_sublist _

/-- In every run in which each send does no harm, the server gets whole
messages only. -/
theorem outgoing_framesWhole (fd : Nat) (registered : SendResult) {c : Sender} {encoded : List Bytes}
    (reach : (outgoing fd registered).Reach Sender.Unbroken c encoded) : FramesWhole c encoded := by
  refine reach.invariant (framesWhole_connect fd registered) ?_
  intro before log call after out whole unbroken run
  simp only [outgoing, Option.some.injEq, Prod.mk.injEq] at run
  rw [← run.1, ← run.2]
  exact whole.send unbroken

/-- A message that arrived, then one cut short, then an error. -/
theorem outgoing_framesWhole_cut_short :
    FramesWhole ⟨3, registerLine (ascii "subscriber") ++ [10] ++ (answerLine [97] ++ [10]) ++ ascii "\x7b\"t"⟩
      [answerLine [97], answerLine [98], answerLine [99]] :=
  outgoing_framesWhole 3 .all
    (.ofExec _ [(.answer [97], .all), (.answer [98], .short 3), (.answer [99], .error)] rfl (by decide))

/-- After a short write the next message is appended to the stump of the one before. -/
theorem not_outgoing_framesWhole :
    ¬∀ (fd : Nat) (registered : SendResult) (c : Sender) (encoded : List Bytes),
      (outgoing fd registered).Reach Machine.Always c encoded → FramesWhole c encoded := by
  intro whole
  have frames : FramesWhole ⟨3, [registerLine (ascii "subscriber"), ascii "\x7b\"t" ++ answerLine [98]].flatMap (· ++ [10])⟩
      [answerLine [97], answerLine [98]] :=
    whole 3 .all _ _ (.ofExec _ [(.answer [97], .short 3), (.answer [98], .all)] rfl (Machine.meets_always _ _))
  rw [FramesWhole, segments_eq_takeLines, takeLines_lines _ (by decide)] at frames
  revert frames
  decide

end WebRtcDemo.Signaling
