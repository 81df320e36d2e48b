import WebRtcDemo.Decoder.NalUnits

/-! `SplitAnnexB` with its indices: the reads of the buffer and the slices it returns. -/

namespace WebRtcDemo.Decoder

/-- A comparison of `data[k]`, or none if that is past the end. -/
def byteIs (data : Bytes) (k : Nat) (b : UInt8) : Option Bool := (data[k]?).map (b == ·)

/-- `p && q`, which reads nothing for `q` if `p` is false. -/
def both (p q : Option Bool) : Option Bool :=
  match p with
  | some true => q
  | other => other

/-- `p || q` -/
def either (p q : Option Bool) : Option Bool :=
  match p with
  | some false => q
  | other => other

/-- The tests of the outer loop. -/
def shortCodeAt (data : Bytes) (i : Nat) : Option Bool :=
  both (some (i + 3 ≤ data.length)) <| both (byteIs data i 0) <| both (byteIs data (i + 1) 0) (byteIs data (i + 2) 1)

def longCodeAt (data : Bytes) (i : Nat) : Option Bool :=
  both (some (i + 4 ≤ data.length)) <| both (byteIs data i 0) <| both (byteIs data (i + 1) 0) <|
    both (byteIs data (i + 2) 0) (byteIs data (i + 3) 1)

/-- The test of the inner loop. -/
def codeAhead (data : Bytes) (j : Nat) : Option Bool :=
  both (some (j + 3 ≤ data.length)) <| both (byteIs data j 0) <| both (byteIs data (j + 1) 0) <|
    either (byteIs data (j + 2) 1) <|
      both (some (j + 4 ≤ data.length)) <| both (byteIs data (j + 2) 0) (byteIs data (j + 3) 1)

/-- The inner loop: where it stops. -/
def nalEnd (data : Bytes) (j : Nat) : Option Nat :=
  if j < data.length then
    match codeAhead data j with
    | none => none
    | some true => some j
    | some false => nalEnd data (j + 1)
  else some j
termination_by data.length - j

/-- `nal_start`, if there is a start code at the index. -/
def nalStart (data : Bytes) (i : Nat) : Option (Option Nat) :=
  match shortCodeAt data i with
  | none => none
  | some true => some (some (i + 3))
  | some false =>
    match longCodeAt data i with
    | none => none
    | some true => some (some (i + 4))
    | some false => some none

/-! The tests read inside the buffer and find the start codes. -/

variable {data d s : Bytes} {i j n : Nat}

theorem byteIs_add (data : Bytes) (i k : Nat) (b : UInt8) : byteIs data (i + k) b = byteIs (data.drop i) k b := by
  unfold byteIs
  rw [List.getElem?_drop]

theorem room_drop {k : Nat} (positive : 0 < k) (data : Bytes) (i : Nat) :
    decide (i + k ≤ data.length) = decide (k ≤ (data.drop i).length) := by
  refine decide_eq_decide.mpr ?_
  rw [List.length_drop]
  omega

theorem shortCodeAt_eq (data : Bytes) (i : Nat) : shortCodeAt data i = some ([0, 0, 1].isPrefixOf (data.drop i)) := by
  have first : byteIs data i 0 = byteIs (data.drop i) 0 0 := byteIs_add data i 0 0
  rw [shortCodeAt, room_drop (by decide), first, byteIs_add data i 1, byteIs_add data i 2]
  match data.drop i with
  | [] | [_] | [_, _] => simp [both, List.isPrefixOf]
  | a :: b :: c :: _ =>
    simp only [byteIs, List.getElem?_cons_zero, List.getElem?_cons_succ, Option.map_some, List.length_cons,
      List.isPrefixOf_cons_cons, List.isPrefixOf_nil_left, Bool.and_true]
    cases (0 == a) <;> cases (0 == b) <;> simp [both]

theorem longCodeAt_eq (data : Bytes) (i : Nat) : longCodeAt data i = some ([0, 0, 0, 1].isPrefixOf (data.drop i)) := by
  have first : byteIs data i 0 = byteIs (data.drop i) 0 0 := byteIs_add data i 0 0
  rw [longCodeAt, room_drop (by decide), first, byteIs_add data i 1, byteIs_add data i 2, byteIs_add data i 3]
  match data.drop i with
  | [] | [_] | [_, _] | [_, _, _] => simp [both, List.isPrefixOf]
  | a :: b :: c :: e :: _ =>
    simp only [byteIs, List.getElem?_cons_zero, List.getElem?_cons_succ, Option.map_some, List.length_cons,
      List.isPrefixOf_cons_cons, List.isPrefixOf_nil_left, Bool.and_true]
    cases (0 == a) <;> cases (0 == b) <;> cases (0 == c) <;> simp [both]

/-- The inner test asks for the same start codes as the outer loop. -/
theorem codeAhead_eq (data : Bytes) (j : Nat) :
    codeAhead data j = some ([0, 0, 1].isPrefixOf (data.drop j) || [0, 0, 0, 1].isPrefixOf (data.drop j)) := by
  have first : byteIs data j 0 = byteIs (data.drop j) 0 0 := byteIs_add data j 0 0
  rw [codeAhead, room_drop (by decide), room_drop (by decide), first, byteIs_add data j 1, byteIs_add data j 2,
    byteIs_add data j 2, byteIs_add data j 3]
  match data.drop j with
  | [] | [_] | [_, _] => simp [both, List.isPrefixOf]
  | [a, b, c] =>
    have tooShort : [0, 0, 0, 1].isPrefixOf [a, b, c] = false := by simp [List.isPrefixOf]
    simp only [byteIs, List.getElem?_cons_zero, List.getElem?_cons_succ, Option.map_some, List.length_cons,
      tooShort, List.isPrefixOf_cons_cons, List.isPrefixOf_nil_left, Bool.and_true, Bool.or_false]
    cases (0 == a) <;> cases (0 == b) <;> cases (1 == c) <;> simp [both, either]
  | a :: b :: c :: e :: _ =>
    simp only [byteIs, List.getElem?_cons_zero, List.getElem?_cons_succ, Option.map_some, List.length_cons,
      List.isPrefixOf_cons_cons, List.isPrefixOf_nil_left, Bool.and_true]
    cases (0 == a) <;> cases (0 == b) <;> cases (0 == c) <;> cases (1 == c) <;> simp [both, either]

theorem startCode_eq (d : Bytes) : startCode d =
    if [0, 0, 1].isPrefixOf d then some 3 else if [0, 0, 0, 1].isPrefixOf d then some 4 else none := by
  unfold startCode
  split
  · rfl
  · rfl
  · rename_i notShort notLong
    have short : [0, 0, 1].isPrefixOf d = false := by
      refine Bool.eq_false_iff.mpr fun found => ?_
      obtain ⟨rest, rfl⟩ := List.isPrefixOf_iff_prefix.mp found
      exact notShort rest rfl
    have long : [0, 0, 0, 1].isPrefixOf d = false := by
      refine Bool.eq_false_iff.mpr fun found => ?_
      obtain ⟨rest, rfl⟩ := List.isPrefixOf_iff_prefix.mp found
      exact notLong rest rfl
    simp [short, long]

theorem nalStart_eq (data : Bytes) (i : Nat) : nalStart data i = some ((startCode (data.drop i)).map (i + ·)) := by
  rw [nalStart, shortCodeAt_eq, longCodeAt_eq, startCode_eq]
  cases [0, 0, 1].isPrefixOf (data.drop i) <;> cases [0, 0, 0, 1].isPrefixOf (data.drop i) <;> rfl

theorem codeAhead_eq_startCode (data : Bytes) (j : Nat) : codeAhead data j = some (startCode (data.drop j)).isSome := by
  rw [codeAhead_eq, startCode_eq]
  cases [0, 0, 1].isPrefixOf (data.drop j) <;> cases [0, 0, 0, 1].isPrefixOf (data.drop j) <;> rfl

/-- The inner loop stops at the next start code or at the end. -/
theorem nalEnd_eq (data : Bytes) (j : Nat) : nalEnd data j = some (j + nalLength (data.drop j)) := by
  induction left : data.length - j generalizing j with
  | zero =>
    have done : data.drop j = [] := List.drop_eq_nil_of_le (by omega)
    rw [nalEnd, if_neg (by omega), done]
    rfl
  | succ left ih =>
    have inside : j < data.length := by omega
    rw [nalEnd, if_pos inside, codeAhead_eq_startCode, List.drop_eq_getElem_cons inside, nalLength]
    cases (startCode (data[j] :: data.drop (j + 1))).isSome with
    | true => rfl
    | false =>
      change nalEnd data (j + 1) = _
      rw [ih (j + 1) (by omega)]
      simp only [Bool.false_eq_true, if_false]
      congr 1
      omega

theorem nalStart_lt {nal_start : Nat} (started : nalStart data i = some (some nal_start)) : i < nal_start := by
  rw [nalStart_eq, Option.some.injEq, Option.map_eq_some_iff] at started
  obtain ⟨n, found, rfl⟩ := started
  have bounds := startCode_bounds found
  omega

theorem nalEnd_le {nal_start : Nat} (stopped : nalEnd data nal_start = some j) : nal_start ≤ j := by
  rw [nalEnd_eq, Option.some.injEq] at stopped
  omega

/-- The outer loop: the offsets and the sizes of the slices. -/
def splitLoop (data : Bytes) (i : Nat) : Option (List (Nat × Nat)) :=
  if i < data.length then
    match started : nalStart data i with
    | none => none
    | some none => splitLoop data (i + 1)
    | some (some nal_start) =>
      match _stopped : nalEnd data nal_start with
      | some j =>
        (splitLoop data j).map fun nals => (if nal_start < j then [(nal_start, j - nal_start)] else []) ++ nals
      | none => none
  else some []
termination_by data.length - i
decreasing_by
  · omega
  · have forward := nalStart_lt started
    have further := nalEnd_le _stopped
    omega

/-- `SplitAnnexB` -/
def splitAnnexBSlices (data : Bytes) : Option (List (Nat × Nat)) :=
  if data.length < 3 then some [] else splitLoop data 0

/-! The input as start codes and what is between them. -/

/-- Where the segments that are not empty lie, if the first start code is at the offset. -/
def slicesOf (offset : Nat) : List (Bool × Bytes) → List (Nat × Nat)
  | [] => []
  | (long, segment) :: parts =>
    let start := offset + (startCodeBytes long).length
    (if segment = [] then [] else [(start, segment.length)]) ++ slicesOf (start + segment.length) parts

/-- The input is a prefix and then start codes and segments, without a start
code in any of these, and the slices are the segments that are not empty: in
order, inside the input and apart from each other. -/
structure Lossless (data before : Bytes) (parts : List (Bool × Bytes)) (nals : List (Nat × Nat)) : Prop where
  whole : data = before ++ stream parts
  noCodeBefore : ¬[0, 0, 1] <:+: before
  noCodeInside : ∀ p ∈ parts, ¬[0, 0, 1] <:+: p.2
  exact : nals = slicesOf before.length parts
  bytes : (nals.map fun nal => (data.drop nal.1).take nal.2) = (parts.map Prod.snd).filter (· ≠ [])
  inBounds : ∀ nal ∈ nals, nal.1 + nal.2 ≤ data.length
  apart : nals.Pairwise fun a b => a.1 + a.2 ≤ b.1

/-- What the inner loop runs over has no start code. -/
theorem noCode_take_nalLength (d : Bytes) : ¬[0, 0, 1] <:+: d.take (nalLength d) := by
  induction d with
  | nil => simp
  | cons b d ih =>
    rw [nalLength]
    split
    · simp
    · rename_i noCode
      rw [List.take_succ_cons, List.infix_cons_iff, not_or]
      refine ⟨fun here => noCode ?_, ih⟩
      have short := List.isPrefixOf_iff_prefix.mpr (here.trans (List.take_prefix (nalLength d + 1) (b :: d)))
      rw [startCode_eq, if_pos short]
      rfl

theorem nalLength_drop (d : Bytes) : nalLength (d.drop (nalLength d)) = 0 := by
  induction d with
  | nil => rfl
  | cons b d ih =>
    by_cases code : (startCode (b :: d)).isSome = true
    · simp [nalLength, code]
    · simp only [nalLength, code, Bool.false_eq_true, if_false, List.drop_succ_cons]
      exact ih

theorem nalLength_le (d : Bytes) : nalLength d ≤ d.length := by
  induction d with
  | nil => exact le_rfl
  | cons b d ih =>
    rw [nalLength, List.length_cons]
    split <;> omega

theorem take_nalLength_eq_nil (d : Bytes) : d.take (nalLength d) = [] ↔ ¬0 < nalLength d := by
  rw [← List.length_eq_zero_iff, List.length_take_of_le (nalLength_le d)]
  omega

/-- A start code that was found is one of the two. -/
theorem startCode_shape (found : startCode d = some n) :
    ∃ long, n = (startCodeBytes long).length ∧ d = startCodeBytes long ++ d.drop n := by
  unfold startCode at found
  split at found
  · cases found
    exact ⟨false, rfl, rfl⟩
  · cases found
    exact ⟨true, rfl, rfl⟩
  · cases found

theorem splitLoop_skip (inside : i < data.length) (missing : startCode (data.drop i) = none) :
    splitLoop data i = splitLoop data (i + 1) := by
  have none := nalStart_eq data i
  rw [missing, Option.map_none] at none
  rw [splitLoop, if_pos inside]
  split
  · rename_i failed
    rw [none] at failed
    cases failed
  · rfl
  · rename_i started
    rw [none] at started
    cases started

theorem splitLoop_code (inside : i < data.length) (found : startCode (data.drop i) = some n) :
    splitLoop data i = (splitLoop data (i + n + nalLength (data.drop (i + n)))).map fun nals =>
      (if 0 < nalLength (data.drop (i + n)) then [(i + n, nalLength (data.drop (i + n)))] else []) ++ nals := by
  have start := nalStart_eq data i
  have stop := nalEnd_eq data (i + n)
  rw [found, Option.map_some] at start
  rw [splitLoop, if_pos inside]
  split
  · rename_i failed
    rw [start] at failed
    cases failed
  · rename_i missing
    rw [start] at missing
    cases missing
  · rename_i nal_start started
    obtain rfl : i + n = nal_start := by simpa [start] using started
    split
    · rename_i j stopped
      obtain rfl : i + n + nalLength (data.drop (i + n)) = j := by simpa [stop] using stopped
      simp only [Nat.lt_add_right_iff_pos, Nat.add_sub_cancel_left]
    · rename_i failed
      rw [stop] at failed
      cases failed

/-- The bytes of the slices are what the scanner of `splitFrom` finds. -/
theorem splitLoop_bytes (data : Bytes) (i : Nat) :
    (splitLoop data i).map (List.map fun nal => (data.drop nal.1).take nal.2) = some (splitFrom (data.drop i)) := by
  induction left : data.length - i using Nat.strong_induction_on generalizing i with
  | _ left ih =>
    by_cases inside : i < data.length
    · cases found : startCode (data.drop i) with
      | none =>
        have later := ih (data.length - (i + 1)) (by omega) (i + 1) rfl
        rw [splitLoop_skip inside found, later]
        rw [List.drop_eq_getElem_cons inside] at found ⊢
        rw [splitFrom_skip found]
      | some n =>
        have bounds := startCode_bounds found
        rw [List.length_drop] at bounds
        have later := ih (data.length - (i + n + nalLength (data.drop (i + n)))) (by omega)
          (i + n + nalLength (data.drop (i + n))) rfl
        rw [splitLoop_code inside found, splitFrom_code found, List.drop_drop, List.drop_drop]
        obtain ⟨nals, loop, bytes⟩ := Option.map_eq_some_iff.mp later
        rw [loop, Option.map_some, Option.map_some, List.map_append, bytes]
        simp only [take_nalLength_eq_nil, ite_not]
        split <;> rfl
    · have done : data.drop i = [] := List.drop_eq_nil_of_le (by omega)
      rw [splitLoop, if_neg inside, done, splitFrom]
      rfl

theorem splitAnnexBSlices_bytes (data : Bytes) :
    (splitAnnexBSlices data).map (List.map fun nal => (data.drop nal.1).take nal.2) = some (splitAnnexB data) := by
  unfold splitAnnexBSlices splitAnnexB
  split
  · rfl
  · rw [splitLoop_bytes, List.drop_zero]

theorem slicesOf_nal (offset : Nat) (long : Bool) (rest : Bytes) (parts : List (Bool × Bytes)) :
    slicesOf offset ((long, rest.take (nalLength rest)) :: parts) =
      (if 0 < nalLength rest then [(offset + (startCodeBytes long).length, nalLength rest)] else []) ++
        slicesOf (offset + (startCodeBytes long).length + nalLength rest) parts := by
  have size : (rest.take (nalLength rest)).length = nalLength rest := List.length_take_of_le (nalLength_le rest)
  simp only [slicesOf, size, take_nalLength_eq_nil, ite_not]

/-- The loop from an index on: the segments begin at the next start code. -/
theorem splitLoop_eq (data : Bytes) (i : Nat) :
    ∃ parts, (data.drop i).drop (nalLength (data.drop i)) = stream parts ∧ (∀ p ∈ parts, ¬[0, 0, 1] <:+: p.2) ∧
      splitLoop data i = some (slicesOf (i + nalLength (data.drop i)) parts) := by
  -- by what is left of the input: the loop goes on one byte further, or behind a segment
  induction left : data.length - i using Nat.strong_induction_on generalizing i with
  | _ left ih =>
    by_cases inside : i < data.length
    · cases found : startCode (data.drop i) with
      | none =>
        obtain ⟨parts, rest, noCode, loop⟩ := ih (data.length - (i + 1)) (by omega) (i + 1) rfl
        have here := List.drop_eq_getElem_cons inside
        have further : nalLength (data.drop i) = nalLength (data.drop (i + 1)) + 1 := by
          rw [here, nalLength, ← here, found]
          rfl
        refine ⟨parts, ?_, noCode, ?_⟩
        · rw [further, here, List.drop_succ_cons, rest]
        · rw [splitLoop_skip inside found, loop, further]
          congr 2
          omega
      | some n =>
        have bounds := startCode_bounds found
        rw [List.length_drop] at bounds
        obtain ⟨parts, rest, noCode, loop⟩ := ih (data.length - (i + n + nalLength (data.drop (i + n)))) (by omega)
          (i + n + nalLength (data.drop (i + n))) rfl
        obtain ⟨long, code, shape⟩ := startCode_shape found
        have stopped : nalLength (data.drop i) = 0 := by
          rw [List.drop_eq_getElem_cons inside] at found ⊢
          rw [nalLength, found]
          rfl
        have next : nalLength (data.drop (i + n + nalLength (data.drop (i + n)))) = 0 := by
          rw [← List.drop_drop]
          exact nalLength_drop _
        rw [next, List.drop_zero] at rest
        rw [next, Nat.add_zero] at loop
        refine ⟨(long, (data.drop (i + n)).take (nalLength (data.drop (i + n)))) :: parts, ?_, ?_, ?_⟩
        · have tail : (data.drop i).drop n = (data.drop (i + n)).take (nalLength (data.drop (i + n))) ++ stream parts :=
            calc (data.drop i).drop n
              _ = data.drop (i + n) := List.drop_drop
              _ = _ ++ (data.drop (i + n)).drop (nalLength (data.drop (i + n))) := (List.take_append_drop _ _).symm
              _ = _ ++ stream parts := by rw [List.drop_drop, rest]
          rw [stopped, List.drop_zero, shape, tail, stream_cons]
        · exact List.forall_mem_cons.mpr ⟨noCode_take_nalLength _, noCode⟩
        · rw [splitLoop_code inside found, loop, stopped, Nat.add_zero, slicesOf_nal, ← code]
          rfl
    · have done : data.drop i = [] := List.drop_eq_nil_of_le (by omega)
      refine ⟨[], ?_, by simp, ?_⟩
      · rw [done]
        rfl
      · rw [splitLoop, if_neg inside]
        rfl

/-! The slices of a stream. -/

theorem slicesOf_bounds (parts : List (Bool × Bytes)) (offset : Nat) :
    ∀ nal ∈ slicesOf offset parts, offset ≤ nal.1 ∧ nal.1 + nal.2 ≤ offset + (stream parts).length := by
  induction parts generalizing offset with
  | nil => simp [slicesOf]
  | cons p parts ih =>
    obtain ⟨long, segment⟩ := p
    intro nal member
    have size : (stream ((long, segment) :: parts)).length =
        (startCodeBytes long).length + segment.length + (stream parts).length := by
      rw [stream_cons, List.length_append, List.length_append, Nat.add_assoc]
    rw [size]
    simp only [slicesOf, List.mem_append] at member
    rcases member with here | later
    · split at here
      · cases here
      · rw [List.mem_singleton.mp here]
        constructor <;> simp only [] <;> omega
    · have bounds := ih _ nal later
      omega

theorem slicesOf_apart (parts : List (Bool × Bytes)) (offset : Nat) :
    (slicesOf offset parts).Pairwise fun a b => a.1 + a.2 ≤ b.1 := by
  induction parts generalizing offset with
  | nil => exact .nil
  | cons p parts ih =>
    obtain ⟨long, segment⟩ := p
    refine List.pairwise_append.mpr ⟨?_, ih _, fun nal here other later => ?_⟩
    · split <;> simp
    · have bounds := slicesOf_bounds parts _ other later
      split at here
      · cases here
      · rw [List.mem_singleton.mp here]
        exact bounds.1

theorem slicesOf_bytes (parts : List (Bool × Bytes)) (lead : Bytes) :
    ((slicesOf lead.length parts).map fun nal => ((lead ++ stream parts).drop nal.1).take nal.2) =
      (parts.map Prod.snd).filter (· ≠ []) := by
  induction parts generalizing lead with
  | nil => rfl
  | cons p parts ih =>
    obtain ⟨long, segment⟩ := p
    have whole : lead ++ stream ((long, segment) :: parts) = (lead ++ startCodeBytes long ++ segment) ++ stream parts := by
      rw [stream_cons]
      simp only [List.append_assoc]
    have later := ih (lead ++ startCodeBytes long ++ segment)
    rw [List.length_append, List.length_append] at later
    simp only [slicesOf, List.map_append, List.map_cons, List.filter_cons]
    rw [whole, later]
    by_cases empty : segment = []
    · simp [empty]
    · have here : ((lead ++ startCodeBytes long ++ segment ++ stream parts).drop
          (lead.length + (startCodeBytes long).length)).take segment.length = segment := by
        rw [← List.length_append, List.append_assoc _ segment, List.drop_left, List.take_left]
      simp only [empty, if_false, List.map_cons, List.map_nil, here, ne_eq, not_false_eq_true, decide_true, if_true,
        List.singleton_append]

theorem lossless_slicesOf {before : Bytes} {parts : List (Bool × Bytes)} (whole : data = before ++ stream parts)
    (noCodeBefore : ¬[0, 0, 1] <:+: before) (noCodeInside : ∀ p ∈ parts, ¬[0, 0, 1] <:+: p.2) :
    Lossless data before parts (slicesOf before.length parts) where
  whole := whole
  noCodeBefore := noCodeBefore
  noCodeInside := noCodeInside
  exact := rfl
  bytes := by
    rw [whole]
    exact slicesOf_bytes parts before
  inBounds nal member := by
    rw [whole, List.length_append]
    exact (slicesOf_bounds parts before.length nal member).2
  apart := slicesOf_apart parts before.length

/-- On any bytes, the scanner reads inside its input, and what it returns are
the segments between the start codes. -/
theorem splitAnnexB_lossless (data : Bytes) :
    ∃ nals before parts, splitAnnexBSlices data = some nals ∧ Lossless data before parts nals := by
  by_cases short : data.length < 3
  · have noCode : ¬[0, 0, 1] <:+: data := fun inside => absurd inside.length_le (Nat.not_le.mpr short)
    exact ⟨[], data, [], if_pos short, lossless_slicesOf (by simp [stream]) noCode (by simp)⟩
  · obtain ⟨parts, rest, noCode, loop⟩ := splitLoop_eq data 0
    rw [List.drop_zero] at rest loop
    rw [Nat.zero_add] at loop
    have size : (data.take (nalLength data)).length = nalLength data := List.length_take_of_le (nalLength_le data)
    have whole : data = data.take (nalLength data) ++ stream parts := by
      rw [← rest, List.take_append_drop]
    refine ⟨_, data.take (nalLength data), parts, ?_, lossless_slicesOf whole (noCode_take_nalLength data) noCode⟩
    rw [splitAnnexBSlices, if_neg short, loop, size]

end WebRtcDemo.Decoder
