import WebRtcDemo.Decoder.AnnexB

namespace WebRtcDemo.Decoder

/-! What `SplitAnnexB` and `AnnexBToAvcc` are for: the NAL units of a byte stream. -/

/-- A NAL unit as it stands in a byte stream: no start code inside it, and no
zero byte at its end. -/
structure NalUnit where
  bytes : Bytes
  nonempty : bytes ≠ []
  short : bytes.length < 2 ^ 32
  noStartCode : ¬[0, 0, 1] <:+: bytes
  noTrailingZero : bytes.getLast? ≠ some 0

/-- The long and the short start code. -/
def startCodeBytes (long : Bool) : Bytes := if long then [0, 0, 0, 1] else [0, 0, 1]

/-- The byte stream of NAL units, each after a start code of either length. -/
def annexB (units : List (Bool × NalUnit)) : Bytes := units.flatMap fun u => startCodeBytes u.1 ++ u.2.bytes

/-- The number in four bytes, most significant first. -/
def lengthValue (a b c d : UInt8) : Nat := ((a.toNat * 256 + b.toNat) * 256 + c.toNat) * 256 + d.toNat

/-- Reads lengths, each followed by that many bytes, up to the end. -/
def readAvcc : Bytes → Option (List Bytes)
  | [] => some []
  | a :: b :: c :: d :: rest =>
    if rest.length < lengthValue a b c d then none
    else (readAvcc (rest.drop (lengthValue a b c d))).map (rest.take (lengthValue a b c d) :: ·)
  | _ => none
termination_by s => s.length
decreasing_by
  simp only [List.length_drop, List.length_cons]
  omega

theorem startCode_startCodeBytes (long : Bool) (rest : Bytes) :
    startCode (startCodeBytes long ++ rest) = some (startCodeBytes long).length := by
  cases long <;> rfl

/-- What is left of a NAL unit does not begin like a start code, whatever
follows it: a zero byte in it has another byte of the unit behind it. -/
theorem startCode_unit {s : Bytes} (nonempty : s ≠ []) (noStartCode : ¬[0, 0, 1] <:+: s)
    (noTrailingZero : s.getLast? ≠ some 0) (rest : Bytes) : startCode (s ++ rest) = none := by
  match s with
  | [] => exact absurd rfl nonempty
  | [a] =>
    have : a ≠ 0 := by simpa using noTrailingZero
    simp [startCode, this]
  | [a, b] =>
    have : b ≠ 0 := by simpa using noTrailingZero
    simp [startCode, this]
  | [a, b, c] =>
    have last : c ≠ 0 := by simpa using noTrailingZero
    unfold startCode
    split
    · rename_i same
      cases same
      exact absurd List.infix_rfl noStartCode
    · rename_i same
      cases same
      exact absurd rfl last
    · rfl
  | a :: b :: c :: d :: t =>
    unfold startCode
    split
    · rename_i same
      cases same
      exact absurd ⟨[], d :: t, rfl⟩ noStartCode
    · rename_i same
      cases same
      exact absurd ⟨[0], t, rfl⟩ noStartCode
    · rfl

/-- The inner loop runs to the end of the unit. -/
theorem nalLength_unit {s rest : Bytes} (noStartCode : ¬[0, 0, 1] <:+: s) (noTrailingZero : s.getLast? ≠ some 0)
    (next : nalLength rest = 0) : nalLength (s ++ rest) = s.length := by
  induction s with
  | nil => exact next
  | cons b s ih =>
    have here := startCode_unit (List.cons_ne_nil b s) noStartCode noTrailingZero rest
    have inside : ¬[0, 0, 1] <:+: s := fun found => noStartCode (found.trans (List.infix_cons List.infix_rfl))
    have ending : s.getLast? ≠ some 0 := by
      intro zero
      cases s with
      | nil => cases zero
      | cons c s => exact noTrailingZero zero
    rw [List.cons_append] at here ⊢
    rw [nalLength, here, ih inside ending]
    rfl

/-- The outer loop at a start code. -/
theorem splitFrom_code {d : Bytes} {n : Nat} (found : startCode d = some n) :
    splitFrom d = (if (d.drop n).take (nalLength (d.drop n)) = [] then []
      else [(d.drop n).take (nalLength (d.drop n))]) ++ splitFrom ((d.drop n).drop (nalLength (d.drop n))) := by
  rw [splitFrom]
  split
  · rename_i m code
    rw [found, Option.some.injEq] at code
    subst code
    rfl
  · rename_i missing
    rw [found] at missing
    cases missing

/-- The outer loop at any other byte. -/
theorem splitFrom_skip {b : UInt8} {d : Bytes} (missing : startCode (b :: d) = none) :
    splitFrom (b :: d) = splitFrom d := by
  rw [splitFrom]
  split
  · rename_i found
    rw [missing] at found
    cases found
  · rfl

theorem splitFrom_startCode (long : Bool) {rest : Bytes} (nonempty : rest.take (nalLength rest) ≠ []) :
    splitFrom (startCodeBytes long ++ rest) =
      rest.take (nalLength rest) :: splitFrom (rest.drop (nalLength rest)) := by
  rw [splitFrom_code (startCode_startCodeBytes long rest), List.drop_left, if_neg nonempty, List.singleton_append]

/-- Start codes with the segments behind them. -/
def stream (parts : List (Bool × Bytes)) : Bytes := parts.flatMap fun p => startCodeBytes p.1 ++ p.2

theorem stream_cons (long : Bool) (segment : Bytes) (parts : List (Bool × Bytes)) :
    stream ((long, segment) :: parts) = startCodeBytes long ++ (segment ++ stream parts) := by
  rw [stream, List.flatMap_cons, List.append_assoc, ← stream]

theorem nalLength_stream (parts : List (Bool × Bytes)) : nalLength (stream parts) = 0 := by
  cases parts with
  | nil => rfl
  | cons p parts =>
    obtain ⟨long, segment⟩ := p
    rw [stream_cons]
    cases long <;> rfl

/-- The scanner finds the segments of a stream if none of them can be mistaken. -/
theorem splitFrom_stream {parts : List (Bool × Bytes)}
    (units : ∀ p ∈ parts, p.2 ≠ [] ∧ ¬[0, 0, 1] <:+: p.2 ∧ p.2.getLast? ≠ some 0) :
    splitFrom (stream parts) = parts.map Prod.snd := by
  induction parts with
  | nil =>
    rw [stream, List.flatMap_nil, splitFrom]
    rfl
  | cons p parts ih =>
    obtain ⟨long, segment⟩ := p
    obtain ⟨⟨nonempty, noStartCode, noTrailingZero⟩, later⟩ := List.forall_mem_cons.mp units
    have length : nalLength (segment ++ stream parts) = segment.length :=
      nalLength_unit noStartCode noTrailingZero (nalLength_stream parts)
    have found : (segment ++ stream parts).take (nalLength (segment ++ stream parts)) = segment := by
      rw [length, List.take_left' rfl]
    rw [stream_cons, splitFrom_startCode long (by rw [found]; exact nonempty), found, length, List.drop_left' rfl,
      ih later, List.map_cons]

theorem annexB_eq_stream (units : List (Bool × NalUnit)) : annexB units = stream (units.map fun u => (u.1, u.2.bytes)) := by
  rw [annexB, stream, List.flatMap_map]

theorem splitFrom_annexB (units : List (Bool × NalUnit)) : splitFrom (annexB units) = units.map fun u => u.2.bytes := by
  rw [annexB_eq_stream, splitFrom_stream, List.map_map]
  · rfl
  · intro p member
    obtain ⟨u, _, rfl⟩ := List.mem_map.mp member
    exact ⟨u.2.nonempty, u.2.noStartCode, u.2.noTrailingZero⟩

theorem three_le_length_annexB (u : Bool × NalUnit) (units : List (Bool × NalUnit)) :
    3 ≤ (annexB (u :: units)).length := by
  have code : 3 ≤ (startCodeBytes u.1).length := by cases u.1 <;> decide
  rw [annexB, List.flatMap_cons, List.length_append, List.length_append]
  omega

theorem splitAnnexB_annexB (units : List (Bool × NalUnit)) :
    splitAnnexB (annexB units) = units.map fun u => u.2.bytes := by
  cases units with
  | nil => rfl
  | cons u units =>
    have size := three_le_length_annexB u units
    rw [splitAnnexB, if_neg (by omega), splitFrom_annexB]

/-! The length fields. -/

theorem lengthValue_lengthField {n : Nat} (short : n < 2 ^ 32) :
    lengthValue (.ofNat (n >>> 24)) (.ofNat (n >>> 16)) (.ofNat (n >>> 8)) (.ofNat n) = n := by
  simp only [lengthValue, UInt8.toNat_ofNat', Nat.shiftRight_eq_div_pow]
  omega

theorem readAvcc_lengthField {nal : Bytes} (short : nal.length < 2 ^ 32) (rest : Bytes) :
    readAvcc (lengthField nal.length ++ nal ++ rest) = (readAvcc rest).map (nal :: ·) := by
  have enough : ¬(nal ++ rest).length < nal.length := by simp
  rw [lengthField, List.append_assoc]
  simp only [List.cons_append, List.nil_append]
  rw [readAvcc, lengthValue_lengthField short, if_neg enough, List.take_left' rfl, List.drop_left' rfl]

theorem readAvcc_units (units : List (Bool × NalUnit)) :
    readAvcc ((units.map fun u => u.2.bytes).flatMap fun nal => if nal = [] then [] else lengthField nal.length ++ nal) =
      some (units.map fun u => u.2.bytes) := by
  induction units with
  | nil => rw [List.map_nil, List.flatMap_nil, readAvcc]
  | cons u units ih =>
    rw [List.map_cons, List.flatMap_cons, if_neg u.2.nonempty, readAvcc_lengthField u.2.short, ih]
    rfl

/-- The scanner finds exactly the units of a byte stream, whatever their start
codes, and what `AnnexBToAvcc` writes reads back as the same units with nothing
left over. -/
theorem splitAnnexB_readAvcc (units : List (Bool × NalUnit)) :
    splitAnnexB (annexB units) = (units.map fun u => u.2.bytes) ∧
      readAvcc (annexBToAvcc (annexB units)) = some (units.map fun u => u.2.bytes) := by
  refine ⟨splitAnnexB_annexB units, ?_⟩
  cases units with
  | nil =>
    rw [annexB, List.flatMap_nil, annexBToAvcc, if_pos rfl, readAvcc]
    rfl
  | cons u units =>
    have size := three_le_length_annexB u units
    have present : annexB (u :: units) ≠ [] := by
      intro empty
      rw [empty] at size
      cases size
    rw [annexBToAvcc, if_neg present, splitAnnexB_annexB, List.map_cons]
    exact readAvcc_units (u :: units)

end WebRtcDemo.Decoder
