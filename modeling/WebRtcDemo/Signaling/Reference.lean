import WebRtcDemo.Lib.FlatJson
import WebRtcDemo.Signaling.RoundTrip

namespace WebRtcDemo.Signaling
open ByteText FlatJson

/-! What `ParseAndDispatch` is for: read the line as JSON and call by type. -/

def textMember (key : Bytes) (members : List (Bytes × Value)) : Option Bytes :=
  match members.lookup key with
  | some (.str text) => some text
  | _ => none

def intMember (key : Bytes) (members : List (Bytes × Value)) : Option Int :=
  match members.lookup key with
  | some (.int z) => some z
  | _ => none

/-- The callback that the members of an object ask for. -/
def dispatch (members : List (Bytes × Value)) : Option Callback :=
  match textMember (ascii "type") members with
  | none => none
  | some type =>
    if type = ascii "answer" then (textMember (ascii "sdp") members).map (.onAnswer (ascii "answer"))
    else if type = ascii "offer" then (textMember (ascii "sdp") members).map (.onOffer (ascii "offer"))
    else if type = ascii "ice" then
      match textMember (ascii "candidate") members with
      | none => none
      | some candidate =>
        if candidate = [] then none
        else some (.onIce ((textMember (ascii "mid") members).getD [])
          (Int32.ofInt ((intMember (ascii "mlineIndex") members).getD 0)) candidate)
    else none

/-- The objects that may be received: 32-bit integers, a candidate without
line escapes and a mid without any. -/
structure Received extends Object where
  int32 : ∀ m ∈ members, ∀ z, m.literal.value = .int z → -2 ^ 31 ≤ z ∧ z < 2 ^ 31
  candidate : ∀ m ∈ members, m.key = ascii "candidate" → ∀ e ∈ m.literal.escapesUsed, e ∈ ([34, 92, 47] : Bytes)
  mid : ∀ m ∈ members, m.key = ascii "mid" → m.literal.escapesUsed = []

/-! What the searches find in such an object. -/

theorem contains_eq_isSome_after (pat s : Bytes) : contains pat s = (after pat s).isSome := by
  simp [contains, after]

theorem typeKey_search : SearchKey (ascii "type") := searchKey (by decide) (by decide) (by decide)

theorem sdpKey_search : SearchKey (ascii "sdp") := searchKey (by decide) (by decide) (by decide)

theorem midKey_search : SearchKey (ascii "mid") := searchKey (by decide) (by decide) (by decide)

theorem mlineKey_search : SearchKey (ascii "mlineIndex") := searchKey (by decide) (by decide) (by decide)

theorem candidateKey_search : SearchKey (ascii "candidate") := searchKey (by decide) (by decide) (by decide)

/-- The test for a type succeeds exactly on the objects of that type. -/
theorem contains_type (o : Object) {w : Bytes} (word : Word w) :
    contains (typePattern (34 :: (w ++ [34]))) o.render =
      decide (textMember (ascii "type") o.value = some w) := by
  rw [contains_eq_isSome_after, o.after_render typeKey_search]
  rcases valueText_cases (ascii "type") o.members with
    ⟨noText, noValue⟩ | ⟨m, _, d, rest, _, _, text, value⟩
  · simp [noText, textMember, Object.value, noValue]
  · rw [text, Option.bind_some, beyond_word word]
    simp only [textMember, Object.value, value]
    cases m.literal <;> simp [Literal.value]

/-- The tests with a blank after the colon find nothing in a compact object. -/
theorem contains_spaced (o : Object) (pat : Bytes) : contains (typePattern (32 :: pat)) o.render = false := by
  rw [contains_eq_isSome_after, o.after_render typeKey_search]
  rcases valueText_cases (ascii "type") o.members with
    ⟨noText, _⟩ | ⟨m, _, d, rest, _, _, text, _⟩
  · simp [noText]
  · simp [text, beyond_blank]

/-- The text after `"key":"` is the inside of the string value of that key. -/
theorem after_string {key : Bytes} (search : SearchKey key) (o : Object) :
    (after (keyPattern key [34]) o.render = none ∧ textMember key o.value = none) ∨
      ∃ m ∈ o.members, ∃ pieces rest, m.key = key ∧ m.literal = .str pieces ∧
        after (keyPattern key [34]) o.render = some (pieces.flatMap Piece.render ++ 34 :: rest) ∧
        textMember key o.value = some (pieces.map Piece.value) := by
  rw [o.after_render search]
  rcases valueText_cases key o.members with ⟨noText, noValue⟩ | ⟨m, inside, d, rest, name, _, text, value⟩
  · exact Or.inl ⟨by simp [noText], by simp [textMember, Object.value, noValue]⟩
  · rw [text, Option.bind_some, beyond_mark]
    simp only [textMember, Object.value, value]
    cases literal : m.literal with
    | str pieces => exact Or.inr ⟨m, inside, pieces, d :: rest, name, literal, rfl, rfl⟩
    | int negative magnitude => exact Or.inl ⟨rfl, rfl⟩

theorem escapesUsed_known (pieces : List Piece) : ∀ e ∈ (Literal.str pieces).escapesUsed, e ∈ escapes := by
  intro e used
  obtain ⟨p, _, escape⟩ := List.mem_filterMap.mp used
  cases p with
  | plain => cases escape
  | escape e known =>
    cases escape
    exact known

/-- An unescape loop that knows the escapes of a string reads its value. -/
theorem unescape_pieces (decode : UInt8 → UInt8) {pieces : List Piece}
    (agree : ∀ e ∈ (Literal.str pieces).escapesUsed, decode e = (escapeValue e).getD e) (rest : Bytes) :
    unescape decode (pieces.flatMap Piece.render ++ 34 :: rest) = pieces.map Piece.value := by
  induction pieces with
  | nil => exact unescape_quote _ _
  | cons p pieces ih =>
    rw [List.flatMap_cons, List.append_assoc, List.map_cons]
    cases p with
    | plain c clean =>
      rw [Piece.render, List.singleton_append, unescape_plain _ clean.1 clean.2, ih agree]
      rfl
    | escape e known =>
      obtain ⟨here, later⟩ := List.forall_mem_cons.mp agree
      rw [Piece.render, List.cons_append, List.singleton_append, unescape_pair, ih later, here]
      rfl

theorem unescapeSdp_pieces (pieces : List Piece) (rest : Bytes) :
    unescapeSdp (pieces.flatMap Piece.render ++ 34 :: rest) = pieces.map Piece.value := by
  have values : ∀ e ∈ escapes, (if e = 110 then 10 else if e = 114 then 13 else if e = 34 then 34 else e : UInt8) =
      (escapeValue e).getD e := by simp [escapes, escapeValue]
  exact unescape_pieces _ (fun e used => values e (escapesUsed_known pieces e used)) rest

theorem unescapeCandidate_pieces {pieces : List Piece}
    (plain : ∀ e ∈ (Literal.str pieces).escapesUsed, e ∈ ([34, 92, 47] : Bytes)) (rest : Bytes) :
    unescapeCandidate (pieces.flatMap Piece.render ++ 34 :: rest) = pieces.map Piece.value := by
  have values : ∀ e ∈ ([34, 92, 47] : Bytes), id e = (escapeValue e).getD e := by simp [escapeValue]
  exact unescape_pieces _ (fun e used => values e (plain e used)) rest

/-- Without escapes the raw text is the value, and it has no inner mark. -/
theorem pieces_bare {pieces : List Piece} (bare : (Literal.str pieces).escapesUsed = []) :
    pieces.flatMap Piece.render = pieces.map Piece.value ∧ 34 ∉ pieces.map Piece.value := by
  induction pieces with
  | nil => exact ⟨rfl, by simp⟩
  | cons p pieces ih =>
    cases p with
    | plain c clean =>
      obtain ⟨raw, unmarked⟩ := ih bare
      refine ⟨?_, ?_⟩
      · rw [List.flatMap_cons, raw]
        rfl
      · simpa [Piece.value, Ne.symm clean.1] using unmarked
    | escape e known => simp [Literal.escapesUsed] at bare

theorem sdpOf_render (o : Object) : sdpOf o.render = textMember (ascii "sdp") o.value := by
  rw [sdpOf_eq_after]
  rcases after_string sdpKey_search o with ⟨none, absent⟩ | ⟨m, _, pieces, rest, _, _, found, value⟩
  · rw [absent]
    exact congrArg (Option.map unescapeSdp) none
  · rw [value, ← unescapeSdp_pieces pieces rest]
    exact congrArg (Option.map unescapeSdp) found

theorem candidateOf_render (o : Received) :
    candidateOf o.render = (textMember (ascii "candidate") o.value).getD [] := by
  have shape : ascii "\"candidate\":\"" = keyPattern (ascii "candidate") [34] := rfl
  rw [candidateOf_eq_after, shape]
  rcases after_string candidateKey_search o.toObject with ⟨none, absent⟩ | ⟨m, inside, pieces, rest, name, literal, found, value⟩
  · rw [absent, none]
    rfl
  · have plain := o.candidate m inside name
    rw [literal] at plain
    rw [value, found, Option.getD_some, ← unescapeCandidate_pieces plain rest]

theorem midOf_render (o : Received) : midOf o.render = (textMember (ascii "mid") o.value).getD [] := by
  have shape : ascii "\"mid\":\"" = keyPattern (ascii "mid") [34] := rfl
  rw [midOf_eq_after, shape]
  rcases after_string midKey_search o.toObject with ⟨none, absent⟩ | ⟨m, inside, pieces, rest, name, literal, found, value⟩
  · rw [absent, none]
    rfl
  · have bare := o.mid m inside name
    rw [literal] at bare
    obtain ⟨raw, unmarked⟩ := pieces_bare bare
    rw [value, found, Option.getD_some]
    simp only [raw, idxOf?_terminator unmarked, List.take_left']

theorem atoi_mark (rest : Bytes) : atoi (34 :: rest) = 0 := by
  have text : (34 :: rest : Bytes).dropWhile isSpace = 34 :: rest := by simp [isSpace]
  have value : signedValue (34 :: rest) = 0 := by simp [signedValue, digitsValue, isDigit]
  rw [atoi, strtol, text, value]
  rfl

theorem mlineOf_render (o : Received) :
    mlineOf o.render = Int32.ofInt ((intMember (ascii "mlineIndex") o.value).getD 0) := by
  have shape : ascii "\"mlineIndex\":" = keyPattern (ascii "mlineIndex") [] := rfl
  rw [mlineOf_eq_after, shape, o.after_render mlineKey_search]
  rcases valueText_cases (ascii "mlineIndex") o.members with
    ⟨noText, noValue⟩ | ⟨m, inside, d, rest, _, separator, text, value⟩
  · simp only [noText, Option.bind_none, intMember, Object.value, noValue]
    rfl
  · have whole : beyond [] (m.literal.render ++ d :: rest) = some (m.literal.render ++ d :: rest) := rfl
    have stop : isDigit d = false := by rcases separator with rfl | rfl <;> decide
    have nonzero : d ≠ 0 := by rcases separator with rfl | rfl <;> decide
    simp only [text, Option.bind_some, whole, intMember, Object.value, value]
    cases literal : m.literal with
    | str pieces =>
      rw [Literal.render, List.cons_append, ← List.singleton_append, cString_append (by decide)]
      exact atoi_mark _
    | int negative magnitude =>
      obtain ⟨lower, upper⟩ := o.int32 m inside (numeralValue negative magnitude) (by rw [literal]; rfl)
      have nulFree : (0 : UInt8) ∉ numeral negative magnitude ++ [d] := by
        simp [numeral_excludes (b := 0) (by decide), Ne.symm nonzero]
      rw [Literal.render, ← List.singleton_append, ← List.append_assoc, cString_append nulFree,
        List.append_assoc, List.singleton_append, atoi_numeral lower upper stop]
      rfl

/-- An object's line is dispatched by its type alone: each of the seven tests
sees the type member and no other part of the line. -/
theorem Received.parseLine_render (o : Received) : parseLine o.render = dispatch o.value := by
  have nonempty : o.render.isEmpty = false := by
    unfold Object.render
    split <;> rfl
  have register : contains (typePattern (ascii "\"register\"")) o.render = _ :=
    contains_type o.toObject (w := ascii "register") (.of_all (by decide))
  have answer : contains (typePattern (ascii "\"answer\"")) o.render = _ :=
    contains_type o.toObject (w := ascii "answer") (.of_all (by decide))
  have offer : contains (typePattern (ascii "\"offer\"")) o.render = _ :=
    contains_type o.toObject (w := ascii "offer") (.of_all (by decide))
  have ice : contains (typePattern (ascii "\"ice\"")) o.render = _ :=
    contains_type o.toObject (w := ascii "ice") (.of_all (by decide))
  have spacedAnswer : contains (typePattern (ascii " \"answer\"")) o.render = false := contains_spaced o.toObject _
  have spacedOffer : contains (typePattern (ascii " \"offer\"")) o.render = false := contains_spaced o.toObject _
  have spacedIce : contains (typePattern (ascii " \"ice\"")) o.render = false := contains_spaced o.toObject _
  rw [parseLine_eq, sdpOf_render, candidateOf_render, midOf_render, mlineOf_render, nonempty, register, answer,
    offer, ice, spacedAnswer, spacedOffer, spacedIce]
  unfold dispatch
  cases textMember (ascii "type") o.value with
  | none => rfl
  | some type =>
    simp only [Bool.false_eq_true, if_false, Option.some.injEq, decide_eq_true_eq, Bool.or_false]
    by_cases isRegister : type = ascii "register"
    · subst isRegister
      rfl
    · rw [if_neg isRegister]
      cases textMember (ascii "candidate") o.value with
      | none => rfl
      | some candidate => simp only [Option.getD_some, List.isEmpty_iff]

/-- On every compact flat JSON object of this kind, whatever its strings hold
and however its members are ordered, the substring searches do what parsing
the line and dispatching on the members does. -/
theorem Received.parseAndDispatch_eq_dispatch_parse (o : Received) (h : Handlers) :
    parse o.render = some o.value ∧
      parseAndDispatch h o.render = ((parse o.render).bind dispatch).toList.filter h.installed := by
  have parsed := parse_render o.toObject
  rw [parsed, Option.bind_some, parseAndDispatch, o.parseLine_render]
  exact ⟨rfl, rfl⟩

/-- Bytes that stand for themselves. -/
def rawPieces (text : Bytes) : List Piece :=
  text.filterMap fun c => if clean : c ≠ 34 ∧ c ≠ 92 then some (.plain c clean) else none

/-- A candidate behind a note that reads `"type":"offer"` and uses every escape. -/
def disguised : Received where
  members :=
    let mark : Piece := .escape 34 (by decide)
    let others : List Piece := [.escape 92 (by decide), .escape 47 (by decide)]
    let lines : List Piece := [.escape 110 (by decide), .escape 114 (by decide)]
    let quoted (text : String) : List Piece := mark :: rawPieces (ascii text) ++ [mark]
    [⟨ascii "note", by simp [ascii], .str (quoted "type" ++ rawPieces (ascii ":") ++ quoted "offer" ++ others ++ lines)⟩,
      ⟨ascii "mlineIndex", by simp [ascii], .int true 7⟩,
      ⟨ascii "candidate", by simp [ascii], .str (rawPieces (ascii "c") ++ mark :: others)⟩,
      ⟨ascii "type", by simp [ascii], .str (rawPieces (ascii "ice"))⟩,
      ⟨ascii "mid", by simp [ascii], .str (rawPieces (ascii "0"))⟩]
  distinct := by simp [ascii]
  int32 := by simp [Literal.value, numeralValue]
  candidate := by simp [ascii, Literal.escapesUsed, rawPieces]
  mid := by simp [ascii, Literal.escapesUsed, rawPieces]

theorem Received.parseAndDispatch_eq_dispatch_parse_disguised :
    parseAndDispatch ⟨true, true, true⟩ disguised.render = [.onIce (ascii "0") (-7) [99, 34, 92, 47]] := by
  obtain ⟨parsed, same⟩ := disguised.parseAndDispatch_eq_dispatch_parse ⟨true, true, true⟩
  rw [same, parsed]
  decide

end WebRtcDemo.Signaling
