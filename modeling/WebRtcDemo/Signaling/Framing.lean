import WebRtcDemo.Signaling.Client

namespace WebRtcDemo.Signaling
open ByteText

theorem takeLines_of_not_mem {buf : Bytes} (absent : 10 ∉ buf) : takeLines buf = ([], buf) := by
  rw [takeLines]
  split
  · rfl
  · rename_i pos found
    rw [List.idxOf?_eq_none_iff.mpr absent] at found
    cases found

theorem takeLines_line {line : Bytes} (absent : 10 ∉ line) (rest : Bytes) :
    takeLines (line ++ 10 :: rest) = (line :: (takeLines rest).1, (takeLines rest).2) := by
  have found := idxOf?_terminator absent rest
  have after : (line ++ 10 :: rest).drop (line.length + 1) = rest := by simp
  rw [takeLines]
  split
  · rename_i missing
    rw [found] at missing
    cases missing
  · rename_i pos atPos
    rw [found] at atPos
    cases atPos
    simp only [after, List.take_left']

/-- Induction along the lines of a text. -/
@[elab_as_elim]
theorem lines_induction {motive : Bytes → Prop} (s : Bytes) (last : ∀ s, 10 ∉ s → motive s)
    (line : ∀ line rest, 10 ∉ line → motive rest → motive (line ++ 10 :: rest)) : motive s := by
  induction size : s.length using Nat.strong_induction_on generalizing s with
  | _ n ih =>
    by_cases present : 10 ∈ s
    · obtain ⟨first, rest, rfl, absent⟩ := List.eq_append_cons_of_mem present
      have shorter : rest.length < n := by
        simp only [List.length_append, List.length_cons] at size
        omega
      exact line first rest absent (ih rest.length shorter rest rfl)
    · exact last s present

theorem takeLines_rest (buf : Bytes) : 10 ∉ (takeLines buf).2 := by
  induction buf using lines_induction with
  | last s absent =>
    rw [takeLines_of_not_mem absent]
    exact absent
  | line line rest absent ih =>
    rw [takeLines_line absent]
    exact ih

/-- Bytes that arrive later continue the kept rest: the lines are those of
the whole, wherever the border fell. -/
theorem takeLines_append (s t : Bytes) :
    takeLines (s ++ t) =
      ((takeLines s).1 ++ (takeLines ((takeLines s).2 ++ t)).1, (takeLines ((takeLines s).2 ++ t)).2) := by
  induction s using lines_induction with
  | last s absent =>
    rw [takeLines_of_not_mem absent]
    rfl
  | line line rest absent ih =>
    rw [List.append_assoc, List.cons_append, takeLines_line absent, takeLines_line absent, ih]
    rfl

/-- Lines without an inner line end come back one by one. -/
theorem takeLines_lines (lines : List Bytes) (absent : ∀ line ∈ lines, 10 ∉ line) :
    takeLines (lines.flatMap fun line => line ++ [10]) = (lines, []) := by
  induction lines with
  | nil => exact takeLines_of_not_mem (by simp)
  | cons line lines ih =>
    have rest := ih fun other inside => absent other (List.mem_cons_of_mem _ inside)
    rw [List.flatMap_cons, List.append_assoc, List.singleton_append, takeLines_line (absent line (by simp)),
      rest]

/-- What has no line end is only kept. -/
theorem takeLines_append_fst {s t : Bytes} (absent : 10 ∉ t) : (takeLines (s ++ t)).1 = (takeLines s).1 := by
  have rest : 10 ∉ (takeLines s).2 ++ t := by simp [takeLines_rest s, absent]
  rw [takeLines_append, takeLines_of_not_mem rest, List.append_nil]

/-- The LF-terminated segments of a byte sequence. -/
def segments (s : Bytes) : List Bytes := (s.splitOn 10).dropLast

theorem segments_eq_takeLines (s : Bytes) : segments s = (takeLines s).1 := by
  induction s using lines_induction with
  | last s absent =>
    rw [takeLines_of_not_mem absent, segments, List.splitOn_eq_singleton absent]
    rfl
  | line line rest absent ih =>
    rw [takeLines_line absent, ← ih, segments, List.splitOn_append_cons_self_of_not_mem absent,
      List.dropLast_cons_of_ne_nil (List.splitOn_ne_nil 10 rest)]
    rfl

/-- No byte gets lost: the lines with their ends and the rest are the input. -/
theorem takeLines_decomposition (s : Bytes) :
    ((takeLines s).1.flatMap fun line => line ++ [10]) ++ (takeLines s).2 = s := by
  induction s using lines_induction with
  | last s absent =>
    rw [takeLines_of_not_mem absent]
    rfl
  | line line rest absent ih =>
    rw [takeLines_line absent, List.flatMap_cons, List.append_assoc, ih, List.append_assoc]
    rfl

/-- A byte with a line end somewhere after it is in one of the lines. -/
theorem exists_line_of_terminated {s t : Bytes} (c : UInt8) (terminated : 10 ∈ t) (inner : c ≠ 10) :
    ∃ line ∈ (takeLines (s ++ c :: t)).1, c ∈ line := by
  obtain ⟨u, v, rfl, absent⟩ := List.eq_append_cons_of_mem terminated
  have clean : 10 ∉ (takeLines s).2 ++ c :: u := by simp [takeLines_rest s, absent, Ne.symm inner]
  have shape : (takeLines s).2 ++ c :: (u ++ 10 :: v) = ((takeLines s).2 ++ c :: u) ++ 10 :: v := by simp
  refine ⟨(takeLines s).2 ++ c :: u, ?_, by simp⟩
  rw [takeLines_append, shape, takeLines_line clean]
  exact List.mem_append_right _ List.mem_cons_self

theorem readerLines_of_no_end {chunks : List Chunk} {buf : Bytes} (absent : 10 ∉ buf)
    (none : 10 ∉ (chunks.map (·.bytes)).flatten) : readerLines buf (chunks.map .data) = [] := by
  induction chunks generalizing buf with
  | nil => rfl
  | cons c chunks ih =>
    simp only [List.map_cons, List.flatten_cons, List.mem_append, not_or] at none
    have kept : 10 ∉ buf ++ cString c.bytes := by
      simp only [List.mem_append, not_or]
      exact ⟨absent, fun inside => none.1 (List.takeWhile_subset _ inside)⟩
    simp only [List.map_cons, readerLines, takeLines_of_not_mem kept, List.nil_append]
    exact ih kept none.2

/-- While no line holds a NUL byte the reader sees the lines of the byte
sequence and nothing of how it was cut into pieces. A NUL then has no line end
after it, so what the C string loses is never part of a line. -/
theorem readerLines_chunks {chunks : List Chunk} {buf : Bytes} (absent : 10 ∉ buf)
    (nulFree : ∀ line ∈ (takeLines (buf ++ (chunks.map (·.bytes)).flatten)).1, 0 ∉ line) :
    readerLines buf (chunks.map .data) = (takeLines (buf ++ (chunks.map (·.bytes)).flatten)).1 := by
  induction chunks generalizing buf with
  | nil => simp [readerLines, takeLines_of_not_mem absent]
  | cons c chunks ih =>
    simp only [List.map_cons, List.flatten_cons, readerLines] at nulFree ⊢
    by_cases nul : 0 ∈ c.bytes
    · obtain ⟨kept, lost, split, clean⟩ := List.eq_append_cons_of_mem nul
      have text : cString c.bytes = kept := by
        rw [split, cString_append clean, cString]
        simp
      have shape : buf ++ (c.bytes ++ (chunks.map (·.bytes)).flatten) =
          (buf ++ kept) ++ 0 :: (lost ++ (chunks.map (·.bytes)).flatten) := by
        simp [split]
      have noEnd : 10 ∉ lost ++ (chunks.map (·.bytes)).flatten := by
        intro terminated
        obtain ⟨line, member, zero⟩ := exists_line_of_terminated (s := buf ++ kept) 0 terminated (by decide)
        exact nulFree line (shape ▸ member) zero
      have later := readerLines_of_no_end (takeLines_rest (buf ++ kept))
        fun inside => noEnd (List.mem_append_right _ inside)
      have lines := takeLines_append_fst (s := buf ++ kept) (t := 0 :: (lost ++ (chunks.map (·.bytes)).flatten))
        (by simpa using noEnd)
      rw [text, later, List.append_nil, shape, lines]
    · have here := cString_self nul
      rw [← List.append_assoc, takeLines_append (buf ++ c.bytes)] at nulFree ⊢
      rw [here, ih (takeLines_rest _) fun line member => nulFree line (List.mem_append_right _ member)]

/-- Nothing that was appended as a C string brings a NUL byte into a line. -/
theorem readerLines_nulFree {buf : Bytes} (clean : 0 ∉ buf) (received : List RecvResult) :
    ∀ line ∈ readerLines buf received, 0 ∉ line := by
  induction received generalizing buf with
  | nil => simp [readerLines]
  | cons r received ih =>
    cases r with
    | data chunk =>
      have appended : 0 ∉ buf ++ cString chunk.bytes := by
        simp only [List.mem_append, not_or]
        exact ⟨clean, zero_not_mem_cString _⟩
      have whole := takeLines_decomposition (buf ++ cString chunk.bytes)
      rw [← whole] at appended
      simp only [List.mem_append, List.mem_flatMap, not_or, not_exists, not_and] at appended
      intro line member
      rcases List.mem_append.mp member with here | later
      · exact (appended.1 line here).1
      · exact ih appended.2 line later
    | closed => simp [readerLines]
    | failed errno =>
      cases errno with
      | again => exact ih clean
      | wouldBlock => exact ih clean
      | other => simp [readerLines]

/-- Every byte sequence can be received in single bytes. -/
theorem exists_chunks (wire : Bytes) : ∃ chunks : List Chunk, (chunks.map (·.bytes)).flatten = wire := by
  refine ⟨wire.map fun b => ⟨[b], by simp⟩, ?_⟩
  rw [List.map_map]
  exact List.flatMap_singleton' wire

/-- Two ways of cutting a byte sequence into `recv` results give the same
lines, and these are its LF-terminated segments. -/
def ChunkingIndependent (s : Bytes) : Prop :=
  ∀ first second : List Chunk, (first.map (·.bytes)).flatten = s → (second.map (·.bytes)).flatten = s →
    readerLines [] (first.map .data) = readerLines [] (second.map .data) ∧
      readerLines [] (first.map .data) = segments s

theorem chunkingIndependent_iff (s : Bytes) : ChunkingIndependent s ↔ ∀ line ∈ segments s, 0 ∉ line := by
  constructor
  · intro independent
    obtain ⟨chunks, cut⟩ := exists_chunks s
    rw [← (independent chunks chunks cut cut).2]
    exact readerLines_nulFree (by simp) _
  · intro nulFree first second cutFirst cutSecond
    have seen : ∀ chunks : List Chunk, (chunks.map (·.bytes)).flatten = s →
        readerLines [] (chunks.map .data) = segments s := by
      intro chunks cut
      rw [segments_eq_takeLines] at nulFree ⊢
      rw [readerLines_chunks (by simp) (by rwa [cut]), cut, List.nil_append]
    exact ⟨(seen first cutFirst).trans (seen second cutSecond).symm, seen first cutFirst⟩

/-- A NUL takes with it all that came behind it in the same piece, line ends
included: the first cut gives no line, the second one gives two. -/
theorem not_chunkingIndependent_nul : ¬ChunkingIndependent [97, 0, 98, 10, 99, 10] := by
  intro independent
  have same := (independent [⟨[97, 0, 98, 10, 99, 10], by decide⟩]
    [⟨[97, 0], by decide⟩, ⟨[98, 10, 99, 10], by decide⟩] rfl rfl).1
  have noLine : takeLines [97] = ([], [97]) := takeLines_of_not_mem (by decide)
  have twoLines : takeLines [97, 98, 10, 99, 10] = ([[97, 98], [99]], []) :=
    takeLines_lines [[97, 98], [99]] (by decide)
  simp [readerLines, cString, noLine, twoLines] at same

theorem sendAll_wire {c : Sender} (isOpen : 0 ≤ c.sock_fd_) (msgs : List Message) :
    (sendAll c msgs).wire = c.wire ++ (msgs.map Message.line).flatMap (fun line => line ++ [10]) := by
  induction msgs generalizing c with
  | nil => simp [sendAll]
  | cons m msgs ih =>
    have one : m.send c .all = { c with wire := c.wire ++ (m.line ++ [10]) } := by
      cases m <;>
        simp [Message.send, Message.line, sendOffer, sendAnswer, sendIceCandidate, sendLine,
          SendResult.accepted, Int.not_lt.mpr isOpen]
    have rest := ih (c := m.send c .all) (by rw [one]; exact isOpen)
    rw [sendAll, List.foldl_cons]
    rw [sendAll] at rest
    rw [rest, one]
    simp [List.append_assoc]

end WebRtcDemo.Signaling
