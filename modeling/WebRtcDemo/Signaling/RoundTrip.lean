import WebRtcDemo.Signaling.Framing

namespace WebRtcDemo.Signaling
open ByteText

/-! Escaping and unescaping. -/

@[simp] theorem unescape_pair (decode : UInt8 → UInt8) (d : UInt8) (rest : Bytes) :
    unescape decode (92 :: d :: rest) = decode d :: unescape decode rest := by
  simp [unescape]

@[simp] theorem unescape_quote (decode : UInt8 → UInt8) (rest : Bytes) :
    unescape decode (34 :: rest) = [] := by
  cases rest <;> simp [unescape]

theorem unescape_plain (decode : UInt8 → UInt8) {c : UInt8} (notQuote : c ≠ 34) (notSlash : c ≠ 92)
    (rest : Bytes) : unescape decode (c :: rest) = c :: unescape decode rest := by
  cases rest <;> simp [unescape, notQuote, notSlash]

theorem escapeSdp_cons (c : UInt8) (sdp : Bytes) :
    escapeSdp (c :: sdp) = escapeSdp [c] ++ escapeSdp sdp := by
  simp [escapeSdp]

theorem escapeCandidate_cons (c : UInt8) (candidate : Bytes) :
    escapeCandidate (c :: candidate) = escapeCandidate [c] ++ escapeCandidate candidate := by
  simp [escapeCandidate]

/-- The five cases of the escape loop on one byte. -/
theorem escapeSdp_byte (c : UInt8) :
    (c = 34 ∧ escapeSdp [c] = [92, 34]) ∨ (c = 92 ∧ escapeSdp [c] = [92, 92]) ∨
      (c = 10 ∧ escapeSdp [c] = [92, 110]) ∨ (c = 13 ∧ escapeSdp [c] = [92, 114]) ∨
      (c ≠ 34 ∧ c ≠ 92 ∧ c ≠ 10 ∧ escapeSdp [c] = [c]) := by
  simp only [escapeSdp, List.flatMap_cons, List.flatMap_nil, List.append_nil]
  split
  · exact Or.inl ⟨by assumption, rfl⟩
  split
  · exact Or.inr (Or.inl ⟨by assumption, rfl⟩)
  split
  · exact Or.inr (Or.inr (Or.inl ⟨by assumption, rfl⟩))
  split
  · exact Or.inr (Or.inr (Or.inr (Or.inl ⟨by assumption, rfl⟩)))
  · exact Or.inr (Or.inr (Or.inr (Or.inr ⟨by assumption, by assumption, by assumption, rfl⟩)))

theorem escapeCandidate_byte (c : UInt8) :
    (c = 34 ∧ escapeCandidate [c] = [92, 34]) ∨ (c = 92 ∧ escapeCandidate [c] = [92, 92]) ∨
      (c ≠ 34 ∧ c ≠ 92 ∧ escapeCandidate [c] = [c]) := by
  simp only [escapeCandidate, List.flatMap_cons, List.flatMap_nil, List.append_nil]
  split
  · exact Or.inl ⟨by assumption, rfl⟩
  split
  · exact Or.inr (Or.inl ⟨by assumption, rfl⟩)
  · exact Or.inr (Or.inr ⟨by assumption, by assumption, rfl⟩)

theorem escapeSdp_escaped (sdp : Bytes) : Escaped (escapeSdp sdp) := by
  induction sdp with
  | nil => exact .nil
  | cons c sdp ih =>
    rw [escapeSdp_cons]
    refine Escaped.append ?_ ih
    rcases escapeSdp_byte c with ⟨_, e⟩ | ⟨_, e⟩ | ⟨_, e⟩ | ⟨_, e⟩ | ⟨notQuote, notSlash, _, e⟩ <;> rw [e]
    all_goals first
      | exact .pair .nil
      | exact .plain notQuote notSlash .nil

theorem escapeCandidate_escaped (candidate : Bytes) : Escaped (escapeCandidate candidate) := by
  induction candidate with
  | nil => exact .nil
  | cons c candidate ih =>
    rw [escapeCandidate_cons]
    refine Escaped.append ?_ ih
    rcases escapeCandidate_byte c with ⟨_, e⟩ | ⟨_, e⟩ | ⟨notQuote, notSlash, e⟩ <;> rw [e]
    all_goals first
      | exact .pair .nil
      | exact .plain notQuote notSlash .nil

theorem unescapeSdp_escapeSdp (sdp rest : Bytes) : unescapeSdp (escapeSdp sdp ++ 34 :: rest) = sdp := by
  induction sdp with
  | nil => exact unescape_quote _ _
  | cons c sdp ih =>
    rw [escapeSdp_cons, List.append_assoc]
    unfold unescapeSdp at ih ⊢
    rcases escapeSdp_byte c with ⟨rfl, e⟩ | ⟨rfl, e⟩ | ⟨rfl, e⟩ | ⟨rfl, e⟩ | ⟨notQuote, notSlash, _, e⟩
    all_goals rw [e]
    · simp [ih]
    · simp [ih]
    · simp [ih]
    · simp [ih]
    · rw [List.singleton_append, unescape_plain _ notQuote notSlash, ih]

theorem unescapeCandidate_escapeCandidate (candidate rest : Bytes) :
    unescapeCandidate (escapeCandidate candidate ++ 34 :: rest) = candidate := by
  induction candidate with
  | nil => exact unescape_quote _ _
  | cons c candidate ih =>
    rw [escapeCandidate_cons, List.append_assoc]
    unfold unescapeCandidate at ih ⊢
    rcases escapeCandidate_byte c with ⟨rfl, e⟩ | ⟨rfl, e⟩ | ⟨notQuote, notSlash, e⟩ <;> rw [e]
    · simp [ih]
    · simp [ih]
    · rw [List.singleton_append, unescape_plain _ notQuote notSlash, ih]

/-- An escaped sdp has no line end, and no NUL that was not there before. -/
theorem mem_escapeSdp {b : UInt8} {sdp : Bytes} (member : b ∈ escapeSdp sdp) :
    b ≠ 10 ∧ (b = 0 → 0 ∈ sdp) := by
  induction sdp with
  | nil => simp [escapeSdp] at member
  | cons c sdp ih =>
    rw [escapeSdp_cons, List.mem_append] at member
    rcases member with here | later
    · rcases escapeSdp_byte c with ⟨_, e⟩ | ⟨_, e⟩ | ⟨_, e⟩ | ⟨_, e⟩ | ⟨_, _, notEnd, e⟩
      all_goals rw [e] at here; simp only [List.mem_cons, List.not_mem_nil, or_false] at here
      · rcases here with rfl | rfl <;> simp
      · rcases here with rfl | rfl <;> simp
      · rcases here with rfl | rfl <;> simp
      · rcases here with rfl | rfl <;> simp
      · subst b
        exact ⟨notEnd, fun zero => by simp [zero]⟩
    · exact ⟨(ih later).1, fun zero => List.mem_cons_of_mem _ ((ih later).2 zero)⟩

theorem mem_escapeCandidate {b : UInt8} {candidate : Bytes} (member : b ∈ escapeCandidate candidate) :
    b = 34 ∨ b = 92 ∨ b ∈ candidate := by
  induction candidate with
  | nil => simp [escapeCandidate] at member
  | cons c candidate ih =>
    rw [escapeCandidate_cons, List.mem_append] at member
    rcases member with here | later
    · rcases escapeCandidate_byte c with ⟨_, e⟩ | ⟨_, e⟩ | ⟨_, _, e⟩ <;> rw [e] at here <;> simp at here
      · exact here.elim (fun slash => Or.inr (Or.inl slash)) Or.inl
      · exact Or.inr (Or.inl here)
      · exact Or.inr (Or.inr (by simp [here]))
    · exact (ih later).imp_right (Or.imp_right (List.mem_cons_of_mem _))

/-! What the search functions of `ParseAndDispatch` find in a sent line. -/

theorem sdpOf_eq_after (line : Bytes) :
    sdpOf line = (after (ascii "\"sdp\":\"") line).map unescapeSdp := by
  simp only [sdpOf, after, Option.map_map]
  rfl

theorem midOf_eq_after (line : Bytes) :
    midOf line = match after (ascii "\"mid\":\"") line with
      | none => []
      | some rest => match rest.idxOf? 34 with
        | none => []
        | some length => rest.take length := by
  unfold midOf after
  cases find (ascii "\"mid\":\"") line <;> rfl

theorem mlineOf_eq_after (line : Bytes) :
    mlineOf line = match after (ascii "\"mlineIndex\":") line with
      | none => 0
      | some rest => atoi (cString rest) := by
  unfold mlineOf after
  cases find (ascii "\"mlineIndex\":") line <;> rfl

theorem candidateOf_eq_after (line : Bytes) :
    candidateOf line = match after (ascii "\"candidate\":\"") line with
      | none => []
      | some rest => unescapeCandidate rest := by
  unfold candidateOf after
  cases find (ascii "\"candidate\":\"") line <;> rfl

/-- The pattern with which a type is searched for. -/
abbrev typePattern (value : Bytes) : Bytes := keyPattern (ascii "type") value

theorem typeKey_clean : CleanKey (ascii "type") := ⟨by decide, by simp [ascii]⟩

theorem parseLine_eq (line : Bytes) :
    parseLine line =
      if line.isEmpty then none
      else if contains (typePattern (ascii "\"register\"")) line then none
      else if contains (typePattern (ascii "\"answer\"")) line ||
          contains (typePattern (ascii " \"answer\"")) line then
        (sdpOf line).map (.onAnswer (ascii "answer"))
      else if contains (typePattern (ascii "\"offer\"")) line ||
          contains (typePattern (ascii " \"offer\"")) line then
        (sdpOf line).map (.onOffer (ascii "offer"))
      else if contains (typePattern (ascii "\"ice\"")) line ||
          contains (typePattern (ascii " \"ice\"")) line then
        if (candidateOf line).isEmpty then none
        else some (.onIce (midOf line) (mlineOf line) (candidateOf line))
      else none := rfl

theorem parseLine_answer {line : Bytes} (nonempty : line.isEmpty = false)
    (register : contains (typePattern (ascii "\"register\"")) line = false)
    (answer : contains (typePattern (ascii "\"answer\"")) line = true) :
    parseLine line = (sdpOf line).map (.onAnswer (ascii "answer")) := by
  simp only [parseLine_eq, nonempty, register, answer, Bool.false_eq_true, if_false, Bool.true_or, if_true]

theorem parseLine_offer {line : Bytes} (nonempty : line.isEmpty = false)
    (register : contains (typePattern (ascii "\"register\"")) line = false)
    (answer : contains (typePattern (ascii "\"answer\"")) line = false)
    (spaced : contains (typePattern (ascii " \"answer\"")) line = false)
    (offer : contains (typePattern (ascii "\"offer\"")) line = true) :
    parseLine line = (sdpOf line).map (.onOffer (ascii "offer")) := by
  simp only [parseLine_eq, nonempty, register, answer, spaced, offer, Bool.false_eq_true, if_false,
    Bool.or_self, Bool.true_or, if_true]

theorem parseLine_ice {line : Bytes} (nonempty : line.isEmpty = false)
    (others : ∀ value ∈ [ascii "\"register\"", ascii "\"answer\"", ascii " \"answer\"",
      ascii "\"offer\"", ascii " \"offer\""], contains (typePattern value) line = false)
    (ice : contains (typePattern (ascii "\"ice\"")) line = true) (present : (candidateOf line).isEmpty = false) :
    parseLine line = some (.onIce (midOf line) (mlineOf line) (candidateOf line)) := by
  simp only [List.forall_mem_cons, List.not_mem_nil, false_implies, implies_true, and_true] at others
  obtain ⟨register, answer, spacedAnswer, offer, spacedOffer⟩ := others
  simp only [parseLine_eq, nonempty, register, answer, spacedAnswer, offer, spacedOffer, ice, present,
    Bool.false_eq_true, if_false, Bool.or_self, Bool.true_or, if_true]

/-- A type pattern that clashes with the beginning of an sdp line is nowhere
in the line: the payload is an escaped body. -/
theorem contains_sdpLine_eq_false {head value : Bytes} (sdp : Bytes)
    (apart : ∀ i < head.length, clash (typePattern value) (head.drop i) = true) :
    contains (typePattern value) (head ++ (34 :: (escapeSdp sdp ++ [34]) ++ [125])) = false := by
  have payload := Passes.of_quoted (escapeSdp_escaped sdp) typeKey_clean (d := 125) (by decide) (by decide) value []
  rw [(Passes.of_clash apart _).contains_eq, payload.contains_eq]
  simp [contains, find, keyPattern]

theorem sdpOf_sdpLine {head : Bytes} (sdp : Bytes)
    (apart : ∀ i < head.length, clash (ascii "\"sdp\":\"") (head.drop i) = true) :
    sdpOf (head ++ (ascii "\"sdp\":\"" ++ (escapeSdp sdp ++ [34, 125]))) = some sdp := by
  rw [sdpOf_eq_after, (Passes.of_clash apart _).after_eq, after_self (by decide), Option.map_some,
    unescapeSdp_escapeSdp]

theorem parseLine_offerLine (sdp : Bytes) :
    parseLine (offerLine sdp) = some (.onOffer (ascii "offer") sdp) := by
  have shape : offerLine sdp =
      ascii "\x7b\"type\":\"offer\",\"sdp\":" ++ (34 :: (escapeSdp sdp ++ [34]) ++ [125]) := by
    simp [offerLine, ascii]
  have payload : sdpOf (offerLine sdp) = some sdp := by
    rw [show offerLine sdp = ascii "\x7b\"type\":\"offer\"," ++ (ascii "\"sdp\":\"" ++
      (escapeSdp sdp ++ [34, 125])) by simp [offerLine, ascii]]
    exact sdpOf_sdpLine sdp (by decide)
  rw [parseLine_offer, payload]
  · rfl
  · rw [shape]
    rfl
  · rw [shape]
    exact contains_sdpLine_eq_false sdp (by decide)
  · rw [shape]
    exact contains_sdpLine_eq_false sdp (by decide)
  · rw [shape]
    exact contains_sdpLine_eq_false sdp (by decide)
  · rw [show offerLine sdp = [123] ++ (typePattern (ascii "\"offer\"") ++
      (ascii ",\"sdp\":\"" ++ escapeSdp sdp ++ [34, 125])) by simp [offerLine, ascii, keyPattern],
      (Passes.of_clash (by decide) _).contains_eq, contains_self (by decide)]

theorem parseLine_answerLine (sdp : Bytes) :
    parseLine (answerLine sdp) = some (.onAnswer (ascii "answer") sdp) := by
  have shape : answerLine sdp =
      ascii "\x7b\"type\":\"answer\",\"sdp\":" ++ (34 :: (escapeSdp sdp ++ [34]) ++ [125]) := by
    simp [answerLine, ascii]
  have payload : sdpOf (answerLine sdp) = some sdp := by
    rw [show answerLine sdp = ascii "\x7b\"type\":\"answer\"," ++ (ascii "\"sdp\":\"" ++
      (escapeSdp sdp ++ [34, 125])) by simp [answerLine, ascii]]
    exact sdpOf_sdpLine sdp (by decide)
  rw [parseLine_answer, payload]
  · rfl
  · rw [shape]
    rfl
  · rw [shape]
    exact contains_sdpLine_eq_false sdp (by decide)
  · rw [show answerLine sdp = [123] ++ (typePattern (ascii "\"answer\"") ++
      (ascii ",\"sdp\":\"" ++ escapeSdp sdp ++ [34, 125])) by simp [answerLine, ascii, keyPattern],
      (Passes.of_clash (by decide) _).contains_eq, contains_self (by decide)]

/-! The candidate line has a second free text, the mid, and a number. -/

/-- The `token` characters of SDP, from which an `a=mid` tag is made. -/
def isTokenChar (c : UInt8) : Bool :=
  c == 0x21 || (0x23 ≤ c && c ≤ 0x27) || (0x2A ≤ c && c ≤ 0x2B) || (0x2D ≤ c && c ≤ 0x2E) ||
    (0x30 ≤ c && c ≤ 0x39) || (0x41 ≤ c && c ≤ 0x5A) || (0x5E ≤ c && c ≤ 0x7E)

theorem isTokenChar_excludes {c : UInt8} (token : isTokenChar c = true) :
    c ≠ 34 ∧ c ≠ 92 ∧ c ≠ 10 ∧ c ≠ 0 := by
  refine ⟨?_, ?_, ?_, ?_⟩ <;> rintro rfl <;> revert token <;> decide

/-- The part of a candidate line after the mid. -/
def iceTail (mline_index : Int32) (candidate : Bytes) : Bytes :=
  decimal mline_index.toInt ++
    (ascii ",\"candidate\":" ++ (34 :: (escapeCandidate candidate ++ [34]) ++ [125]))

theorem iceLine_shape (mid : Bytes) (mline_index : Int32) (candidate : Bytes) :
    iceLine mid mline_index candidate =
      ascii "\x7b\"type\":\"ice\",\"mid\":" ++ (34 :: (mid ++ [34]) ++
        (44 :: (ascii "\"mlineIndex\":" ++ iceTail mline_index candidate))) := by
  simp [iceLine, iceTail, ascii]

theorem decimal_excludes {b : UInt8} (below : b < 45) (z : Int) : b ∉ decimal z := by
  rw [decimal_eq_numeral]
  exact numeral_excludes below _ _

/-- After the mid no type is found. -/
theorem contains_iceTail_eq_false (value : Bytes) (mline_index : Int32) (candidate : Bytes) :
    contains (typePattern value)
      (44 :: (ascii "\"mlineIndex\":" ++ iceTail mline_index candidate)) = false := by
  have mline : Passes (typePattern value) (ascii ",\"mlineIndex\":") (iceTail mline_index candidate) :=
    .of_clash (fun i bound => clash_keyPattern (by decide +revert) value) _
  have number : Passes (typePattern value) (decimal mline_index.toInt)
      (ascii ",\"candidate\":" ++ (34 :: (escapeCandidate candidate ++ [34]) ++ [125])) :=
    .of_head (decimal_excludes (by decide) _) _
  have name : Passes (typePattern value) (ascii ",\"candidate\":")
      (34 :: (escapeCandidate candidate ++ [34]) ++ [125]) :=
    .of_clash (fun i bound => clash_keyPattern (by decide +revert) value) _
  have payload := Passes.of_quoted (escapeCandidate_escaped candidate) typeKey_clean (d := 125) (by decide)
    (by decide) value []
  rw [show (44 : UInt8) :: (ascii "\"mlineIndex\":" ++ iceTail mline_index candidate) =
    ascii ",\"mlineIndex\":" ++ iceTail mline_index candidate by simp [ascii], mline.contains_eq,
    iceTail, number.contains_eq, name.contains_eq, payload.contains_eq]
  simp [contains, find, keyPattern]

theorem passes_mid {key mid : Bytes} (clean : CleanKey key) (apart : key.head? ≠ some 44)
    (token : ∀ c ∈ mid, isTokenChar c = true) (value rest : Bytes) :
    Passes (keyPattern key value) (34 :: (mid ++ [34])) (44 :: rest) :=
  .of_quoted (.of_plain fun c inside =>
    have excluded := isTokenChar_excludes (token c inside)
    ⟨excluded.1, excluded.2.1⟩) clean (by decide) apart value rest

theorem contains_iceLine_eq_false {value mid : Bytes} (token : ∀ c ∈ mid, isTokenChar c = true)
    (mline_index : Int32) (candidate : Bytes)
    (apart : ∀ i < (ascii "\x7b\"type\":\"ice\",\"mid\":").length,
      clash (typePattern value) ((ascii "\x7b\"type\":\"ice\",\"mid\":").drop i) = true) :
    contains (typePattern value) (iceLine mid mline_index candidate) = false := by
  have middle := passes_mid typeKey_clean (by decide) token value
    (ascii "\"mlineIndex\":" ++ iceTail mline_index candidate)
  rw [iceLine_shape, (Passes.of_clash apart _).contains_eq, middle.contains_eq]
  exact contains_iceTail_eq_false value mline_index candidate

/-- The member values that `ParseAndDispatch` reads out of a candidate line. -/
theorem midOf_iceLine {mid : Bytes} (token : ∀ c ∈ mid, isTokenChar c = true) (mline_index : Int32)
    (candidate : Bytes) : midOf (iceLine mid mline_index candidate) = mid := by
  have closing : (mid ++ 34 :: (44 :: (ascii "\"mlineIndex\":" ++ iceTail mline_index candidate))).idxOf? 34 =
      some mid.length :=
    idxOf?_terminator (fun inside => (isTokenChar_excludes (token _ inside)).1 rfl) _
  rw [midOf_eq_after, show iceLine mid mline_index candidate =
    ascii "\x7b\"type\":\"ice\"," ++ (ascii "\"mid\":\"" ++
      (mid ++ 34 :: (44 :: (ascii "\"mlineIndex\":" ++ iceTail mline_index candidate)))) by
      rw [iceLine_shape]; simp [ascii],
    (Passes.of_clash (by decide) _).after_eq, after_self (by decide)]
  simp only [closing, List.take_left']

theorem mlineOf_iceLine {mid : Bytes} (token : ∀ c ∈ mid, isTokenChar c = true) (mline_index : Int32)
    (candidate : Bytes) : mlineOf (iceLine mid mline_index candidate) = mline_index := by
  have middle : Passes (ascii "\"mlineIndex\":") (34 :: (mid ++ [34]))
      (44 :: (ascii "\"mlineIndex\":" ++ iceTail mline_index candidate)) :=
    @passes_mid (ascii "mlineIndex") mid ⟨by decide, by simp [ascii]⟩ (by decide) token [] _
  have comma : Passes (ascii "\"mlineIndex\":") [44] (ascii "\"mlineIndex\":" ++ iceTail mline_index candidate) :=
    .of_clash (by decide) _
  have found : after (ascii "\"mlineIndex\":") (iceLine mid mline_index candidate) =
      some (iceTail mline_index candidate) := by
    rw [iceLine_shape, (Passes.of_clash (by decide) _).after_eq, middle.after_eq]
    exact comma.after_eq.trans (after_self (by decide) _)
  have numeral : iceTail mline_index candidate = (decimal mline_index.toInt ++ [44]) ++
      (ascii "\"candidate\":" ++ (34 :: (escapeCandidate candidate ++ [34]) ++ [125])) := by
    simp [iceTail, ascii]
  have nulFree : (0 : UInt8) ∉ decimal mline_index.toInt ++ [44] := by
    simp [decimal_excludes]
  rw [mlineOf_eq_after, found, numeral]
  simp only [cString_append nulFree]
  rw [List.append_assoc, List.singleton_append, atoi_decimal]

theorem candidateOf_iceLine {mid : Bytes} (token : ∀ c ∈ mid, isTokenChar c = true) (mline_index : Int32)
    (candidate : Bytes) : candidateOf (iceLine mid mline_index candidate) = candidate := by
  have middle : Passes (ascii "\"candidate\":\"") (34 :: (mid ++ [34]))
      (44 :: (ascii "\"mlineIndex\":" ++ iceTail mline_index candidate)) :=
    @passes_mid (ascii "candidate") mid ⟨by decide, by simp [ascii]⟩ (by decide) token [34] _
  have mline : Passes (ascii "\"candidate\":\"") (ascii ",\"mlineIndex\":") (iceTail mline_index candidate) :=
    .of_clash (by decide) _
  have number : Passes (ascii "\"candidate\":\"") (decimal mline_index.toInt ++ [44])
      (ascii "\"candidate\":\"" ++ (escapeCandidate candidate ++ [34, 125])) :=
    Passes.of_head (p := 34) (by simp [decimal_excludes]) _
  have found : after (ascii "\"candidate\":\"") (iceLine mid mline_index candidate) =
      some (escapeCandidate candidate ++ [34, 125]) := by
    rw [iceLine_shape, (Passes.of_clash (by decide) _).after_eq, middle.after_eq]
    refine mline.after_eq.trans ?_
    rw [show iceTail mline_index candidate = (decimal mline_index.toInt ++ [44]) ++
      (ascii "\"candidate\":\"" ++ (escapeCandidate candidate ++ [34, 125])) by simp [iceTail, ascii],
      number.after_eq, after_self (by decide)]
  rw [candidateOf_eq_after, found]
  exact unescapeCandidate_escapeCandidate candidate [125]

theorem parseLine_iceLine {mid : Bytes} (token : ∀ c ∈ mid, isTokenChar c = true) (mline_index : Int32)
    {candidate : Bytes} (present : candidate ≠ []) :
    parseLine (iceLine mid mline_index candidate) = some (.onIce mid mline_index candidate) := by
  have value := candidateOf_iceLine token mline_index candidate
  rw [parseLine_ice, midOf_iceLine token, mlineOf_iceLine token, value]
  · rw [iceLine_shape]
    rfl
  · simp only [List.forall_mem_cons, List.not_mem_nil, false_implies, implies_true, and_true]
    refine ⟨?_, ?_, ?_, ?_, ?_⟩ <;> exact contains_iceLine_eq_false token _ _ (by decide)
  · rw [show iceLine mid mline_index candidate = [123] ++ (typePattern (ascii "\"ice\"") ++
      (ascii ",\"mid\":" ++ (34 :: (mid ++ [34]) ++
        (44 :: (ascii "\"mlineIndex\":" ++ iceTail mline_index candidate))))) by
        rw [iceLine_shape]; simp [ascii, keyPattern],
      (Passes.of_clash (by decide) _).contains_eq, contains_self (by decide)]
  · rw [value]
    simpa using present

/-! Whole sequences of messages. -/

/-- The arguments with which the sending functions are used: texts without
NUL, a mid tag, and a candidate of one line. -/
def Message.WellFormed : Message → Prop
  | .offer sdp => 0 ∉ sdp
  | .answer sdp => 0 ∉ sdp
  | .ice mid _ candidate =>
    mid.all isTokenChar = true ∧ candidate ≠ [] ∧ 0 ∉ candidate ∧ 10 ∉ candidate

instance : DecidablePred Message.WellFormed
  | .offer _ => inferInstanceAs (Decidable (_ ∉ _))
  | .answer _ => inferInstanceAs (Decidable (_ ∉ _))
  | .ice _ _ _ => inferInstanceAs (Decidable (_ ∧ _))

/-- The callback that a message is meant to cause at the other end. -/
def Message.callback : Message → Callback
  | .offer sdp => .onOffer (ascii "offer") sdp
  | .answer sdp => .onAnswer (ascii "answer") sdp
  | .ice mid mline_index candidate => .onIce mid mline_index candidate

theorem parseLine_line {m : Message} (good : m.WellFormed) : parseLine m.line = some m.callback := by
  cases m with
  | offer sdp => exact parseLine_offerLine sdp
  | answer sdp => exact parseLine_answerLine sdp
  | ice mid mline_index candidate => exact parseLine_iceLine (List.all_eq_true.mp good.1) mline_index good.2.1

/-- Sent lines have no NUL and no inner line end. -/
theorem Message.line_excludes {m : Message} (good : m.WellFormed) : 0 ∉ m.line ∧ 10 ∉ m.line := by
  have sdpLine : ∀ (sdp : Bytes), 0 ∉ sdp → 0 ∉ escapeSdp sdp ∧ 10 ∉ escapeSdp sdp :=
    fun sdp nulFree => ⟨fun member => nulFree ((mem_escapeSdp member).2 rfl),
      fun member => (mem_escapeSdp member).1 rfl⟩
  cases m with
  | offer sdp =>
    have inner := sdpLine sdp good
    simp [Message.line, offerLine, ascii, inner.1, inner.2]
  | answer sdp =>
    have inner := sdpLine sdp good
    simp [Message.line, answerLine, ascii, inner.1, inner.2]
  | ice mid mline_index candidate =>
    obtain ⟨allToken, _, nulFree, oneLine⟩ := good
    have token := List.all_eq_true.mp allToken
    have candidateLine : 0 ∉ escapeCandidate candidate ∧ 10 ∉ escapeCandidate candidate := by
      constructor <;> intro member <;> rcases mem_escapeCandidate member with same | same | inside
      all_goals first
        | exact absurd same (by decide)
        | contradiction
    have nulMid : (0 : UInt8) ∉ mid := fun member => (isTokenChar_excludes (token _ member)).2.2.2 rfl
    have endMid : (10 : UInt8) ∉ mid := fun member => (isTokenChar_excludes (token _ member)).2.2.1 rfl
    simp [Message.line, iceLine, ascii, candidateLine.1, candidateLine.2, decimal_excludes, nulMid, endMid]

/-- All callbacks are set. -/
def Handlers.all : Handlers := ⟨true, true, true⟩

/-- Every sequence of well-formed messages comes back as the same sequence of
callbacks, however the byte stream was cut into `recv` results. -/
theorem readerLoop_sendAll (msgs : List Message) (good : ∀ m ∈ msgs, m.WellFormed) {c : Sender}
    (isOpen : 0 ≤ c.sock_fd_) (fresh : c.wire = []) {chunks : List Chunk}
    (cut : (chunks.map (·.bytes)).flatten = (sendAll c msgs).wire) :
    readerLoop Handlers.all (chunks.map .data) = msgs.map Message.callback := by
  rw [sendAll_wire isOpen, fresh, List.nil_append] at cut
  have taken : takeLines (chunks.map (·.bytes)).flatten = (msgs.map Message.line, []) := by
    rw [cut]
    refine takeLines_lines _ fun line inside => ?_
    obtain ⟨m, here, rfl⟩ := List.mem_map.mp inside
    exact (Message.line_excludes (good m here)).2
  have lines : readerLines [] (chunks.map .data) = msgs.map Message.line := by
    rw [readerLines_chunks (by simp), List.nil_append, taken]
    intro line inside
    rw [List.nil_append, taken] at inside
    obtain ⟨m, here, rfl⟩ := List.mem_map.mp inside
    exact (Message.line_excludes (good m here)).1
  have one : ∀ m ∈ msgs, parseAndDispatch Handlers.all m.line = [m.callback] := by
    intro m here
    have set : ∀ call : Callback, Handlers.all.installed call = true := by
      rintro (_ | _ | _) <;> rfl
    simp [parseAndDispatch, parseLine_line (good m here), set]
  rw [readerLoop, lines, List.flatMap_map]
  clear lines taken cut
  induction msgs with
  | nil => rfl
  | cons m msgs ih =>
    rw [List.flatMap_cons, one m (by simp), List.map_cons, List.singleton_append,
      ih (fun other inside => good other (List.mem_cons_of_mem _ inside))
        (fun other inside => one other (List.mem_cons_of_mem _ inside))]

/-- A payload that imitates another message and ends in a backslash, cut inside an escape. -/
theorem readerLoop_sendAll_two_pieces :
    readerLoop Handlers.all
        ([⟨ascii "\x7b\"type\":\"offer\",\"sdp\":\"\\", by decide⟩,
          ⟨ascii "\"type\\\":\\\\\"\x7d\n\x7b\"type\":\"ice\",\"mid\":\"0\",\"mlineIndex\":-7,\"candidate\":\"c\"\x7d\n",
            by decide⟩].map .data) =
      [.onOffer (ascii "offer") (ascii "\"type\":\\"), .onIce (ascii "0") (-7) (ascii "c")] :=
  readerLoop_sendAll [.offer (ascii "\"type\":\\"), .ice (ascii "0") (-7) (ascii "c")]
    (c := ⟨3, []⟩) (by decide) (by decide) rfl (by decide)

end WebRtcDemo.Signaling
