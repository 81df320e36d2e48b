import WebRtcDemo.Lib.JsonText
import WebRtcDemo.Signaling.Reference

/-! The ways in which JSON lets a message be written, and which of them
`ParseAndDispatch` reads like the shortest one. -/

namespace WebRtcDemo.Signaling
open ByteText JsonText
open FlatJson (Field SearchKey fieldsText fieldsEnd fieldText after_fieldsText beyond)

/-- Insignificant white space: blanks, tabs and line ends. -/
structure Blanks where
  bytes : Bytes
  blank : ∀ b ∈ bytes, b ∈ ([32, 9, 10, 13] : Bytes)

def Blanks.none : Blanks := ⟨[], fun _ inside => absurd inside List.not_mem_nil⟩

/-- A string value as it is written, with the white space between the colon and it. -/
structure StringText where
  before : Blanks
  pieces : List Piece

def StringText.render (t : StringText) : Bytes := t.before.bytes ++ 34 :: (body t.pieces ++ [34])

def StringText.chars (t : StringText) : List Char := t.pieces.map Piece.char

def StringText.compact (t : StringText) : StringText := ⟨.none, shortest t.pieces⟩

inductive SessionType
  | offer
  | answer
  deriving DecidableEq, Repr

def SessionType.name : SessionType → String
  | .offer => "offer"
  | .answer => "answer"

/-- An object with the members that its message has, the strings written in any
way and any white space after the colons and the commas. -/
inductive Spelling
  | session (kind : SessionType) (type : StringText) (isType : type.chars = kind.name.toList)
      (comma : Blanks) (sdp : StringText)
  | ice (type : StringText) (isType : type.chars = "ice".toList)
      (midComma : Blanks) (mid : StringText)
      (mlineComma mlineColon : Blanks) (mlineIndex : Int32)
      (candidateComma : Blanks) (candidate : StringText) (present : candidate.pieces ≠ [])

theorem chars_compact (t : StringText) : t.compact.chars = t.chars := by
  simp [StringText.chars, StringText.compact, shortest, Function.comp_def, (minimal_shortest _).char]

/-- The same object, without white space and with the strings written in the shortest way. -/
def Spelling.compact : Spelling → Spelling
  | .session kind type isType _ sdp => .session kind type.compact ((chars_compact type).trans isType) .none sdp.compact
  | .ice type isType _ mid _ _ mlineIndex _ candidate present =>
    .ice type.compact ((chars_compact type).trans isType) .none mid.compact .none .none mlineIndex .none
      candidate.compact (by simpa [StringText.compact, shortest] using present)

/-! The text of a spelling. -/

theorem Blanks.unmarked (b : Blanks) : 34 ∉ b.bytes := by
  intro inside
  exact absurd (b.blank 34 inside) (by decide)

def stringField (lead : Blanks) {key : Bytes} (name : SearchKey key) (t : StringText) : Field where
  lead := lead.bytes
  unmarked := lead.unmarked
  key := key
  clean := name.clean
  text := t.render
  passes _ search _ separator value rest :=
    .append (.of_head t.before.unmarked _) (search.passes_quoted (body_escaped t.pieces) separator value rest)

def intField (lead : Blanks) {key : Bytes} (name : SearchKey key) (before : Blanks) (z : Int32) : Field where
  lead := lead.bytes
  unmarked := lead.unmarked
  key := key
  clean := name.clean
  text := before.bytes ++ decimal z.toInt
  passes _ _ _ _ _ _ := .of_head (by simp [before.unmarked, decimal_excludes]) _

def Spelling.fields : Spelling → List Field
  | .session _ type _ comma sdp =>
    [stringField .none typeKey_search type, stringField comma sdpKey_search sdp]
  | .ice type _ midComma mid mlineComma mlineColon mlineIndex candidateComma candidate _ =>
    [stringField .none typeKey_search type, stringField midComma midKey_search mid,
      intField mlineComma mlineKey_search mlineColon mlineIndex,
      stringField candidateComma candidateKey_search candidate]

def Spelling.render (s : Spelling) : Bytes := fieldsText s.fields

/-! Which spellings are read alike. -/

/-- The type is seen after no white space or one blank, and without an escape in it. -/
def StringText.TypeSeen (t : StringText) : Prop :=
  (t.before.bytes = [] ∨ t.before.bytes = [32]) ∧ t.pieces.all Piece.isPlain = true

/-- The text is found after no white space, and its `\u` escapes have no shorter form. -/
def StringText.ReadAlike (t : StringText) : Prop := t.before.bytes = [] ∧ ∀ p ∈ t.pieces, p.Frugal

/-- The mid is cut out as it is written, up to the first mark. -/
def StringText.CutAlike (t : StringText) : Prop := t.pieces = [] ∨ t.before.bytes = [] ∧ ShortestToMark t.pieces

def Spelling.ReadAlike : Spelling → Prop
  | .session _ type _ _ sdp => type.TypeSeen ∧ sdp.ReadAlike
  | .ice type _ _ mid _ _ _ _ candidate _ => type.TypeSeen ∧ mid.CutAlike ∧ candidate.ReadAlike

instance (t : StringText) : Decidable t.TypeSeen := inferInstanceAs (Decidable ((_ ∨ _) ∧ _ = _))

instance (t : StringText) : Decidable t.ReadAlike := inferInstanceAs (Decidable (_ ∧ ∀ _ ∈ _, _))

instance (t : StringText) : Decidable t.CutAlike :=
  have : Decidable (t.pieces = []) := decidable_of_iff _ List.isEmpty_iff
  inferInstanceAs (Decidable (_ ∨ _ ∧ _))

instance : DecidablePred Spelling.ReadAlike
  | .session .. => inferInstanceAs (Decidable (_ ∧ _))
  | .ice .. => inferInstanceAs (Decidable (_ ∧ _ ∧ _))

/-! The type. -/

/-- A word ends where the inside of a string ends only if it is all of it. -/
theorem isPrefixOf_body {inside w : Bytes} (escaped : Escaped inside) (clean : ∀ c ∈ w, c ≠ 34 ∧ c ≠ 92)
    (rest : Bytes) : (w ++ [34]).isPrefixOf (inside ++ 34 :: rest) = decide (inside = w) := by
  induction escaped generalizing w with
  | nil =>
    cases w with
    | nil => simp
    | cons c w =>
      rw [List.nil_append, List.cons_append, not_isPrefixOf_of_head (clean c (by simp)).1]
      simp
  | @plain c s notQuote _ _ ih =>
    cases w with
    | nil =>
      rw [List.nil_append, List.cons_append, not_isPrefixOf_of_head (Ne.symm notQuote)]
      simp
    | cons d w =>
      have tail := ih fun x member => clean x (List.mem_cons_of_mem _ member)
      have first : (d == c) = decide (c = d) := by rw [Bool.eq_iff_iff, beq_iff_eq, decide_eq_true_iff, eq_comm]
      simp only [List.cons_append, List.isPrefixOf_cons_cons, tail, first, List.cons.injEq, Bool.decide_and]
  | @pair c s _ _ =>
    cases w with
    | nil =>
      rw [List.nil_append, List.cons_append, not_isPrefixOf_of_head (by decide)]
      simp
    | cons d w =>
      have different : d ≠ 92 := (clean d (by simp)).2
      rw [List.cons_append, List.cons_append, not_isPrefixOf_of_head different]
      simp [Ne.symm different]

theorem Blanks.mark_isPrefixOf (b : Blanks) (pat rest : Bytes) :
    (34 :: pat).isPrefixOf (b.bytes ++ 34 :: rest) = (decide (b.bytes = []) && pat.isPrefixOf rest) := by
  have unmarked := b.unmarked
  cases shape : b.bytes with
  | nil => simp
  | cons c bs =>
    rw [shape] at unmarked
    rw [List.cons_append, not_isPrefixOf_of_head (fun same => unmarked (by rw [← same]; exact List.mem_cons_self))]
    simp

theorem Blanks.blank_isPrefixOf (b : Blanks) (pat rest : Bytes) :
    (32 :: 34 :: pat).isPrefixOf (b.bytes ++ 34 :: rest) = (decide (b.bytes = [32]) && pat.isPrefixOf rest) := by
  cases shape : b.bytes with
  | nil =>
    rw [List.nil_append, not_isPrefixOf_of_head (by decide)]
    simp
  | cons c bs =>
    by_cases blank : c = 32
    · subst blank
      have tail := Blanks.mark_isPrefixOf ⟨bs, fun x inside => b.blank x (by rw [shape]; exact List.mem_cons_of_mem _ inside)⟩
        pat rest
      simpa using tail
    · rw [List.cons_append, not_isPrefixOf_of_head (Ne.symm blank)]
      simp [blank]

theorem body_plain {pieces : List Piece} (plain : pieces.all Piece.isPlain = true) :
    body pieces = (pieces.map Piece.char).flatMap String.utf8EncodeChar := by
  induction pieces with
  | nil => rfl
  | cons p pieces ih =>
    rw [List.all_cons, Bool.and_eq_true] at plain
    cases p with
    | plain c allowed => exact congrArg (String.utf8EncodeChar c ++ ·) (ih plain.2)
    | short | unicode => cases plain.1

theorem slash_mem_body {pieces : List Piece} (escapes : pieces.all Piece.isPlain = false) : 92 ∈ body pieces := by
  obtain ⟨p, inside, escape⟩ := List.all_eq_false.mp escapes
  refine List.mem_flatMap.mpr ⟨p, inside, ?_⟩
  cases p with
  | plain => exact absurd rfl escape
  | short e known => exact List.mem_cons_self
  | unicode upper c =>
    obtain ⟨rest, shape⟩ := unicodeEscape_shape upper c
    rw [Piece.render, shape]
    exact List.mem_cons_self

theorem StringText.render_append (t : StringText) (rest : Bytes) :
    t.render ++ rest = t.before.bytes ++ 34 :: (body t.pieces ++ 34 :: rest) := by
  simp [StringText.render]

section type
variable {type : StringText} {name : Bytes} (isType : type.chars.flatMap String.utf8EncodeChar = name)
  {rest : List Field} {w : Bytes} (word : ∀ c ∈ w, c ≠ 34 ∧ c ≠ 92)
include isType word

theorem body_eq_word : body type.pieces = w ↔ type.pieces.all Piece.isPlain = true ∧ name = w := by
  cases plain : type.pieces.all Piece.isPlain with
  | true =>
    rw [body_plain plain, ← isType]
    simp [StringText.chars]
  | false =>
    have slash := slash_mem_body plain
    refine ⟨fun same => ?_, fun other => ?_⟩
    · exact absurd rfl (word 92 (same ▸ slash)).2
    · cases other.1

theorem mark_word_isPrefixOf (rest : Bytes) :
    (34 :: (w ++ [34])).isPrefixOf (type.render ++ rest) =
      decide (type.before.bytes = [] ∧ type.pieces.all Piece.isPlain = true ∧ name = w) := by
  rw [StringText.render_append, Blanks.mark_isPrefixOf, isPrefixOf_body (body_escaped _) word, ← Bool.decide_and]
  simp only [body_eq_word isType word]

theorem blank_word_isPrefixOf (rest : Bytes) :
    (32 :: 34 :: (w ++ [34])).isPrefixOf (type.render ++ rest) =
      decide (type.before.bytes = [32] ∧ type.pieces.all Piece.isPlain = true ∧ name = w) := by
  rw [StringText.render_append, Blanks.blank_isPrefixOf, isPrefixOf_body (body_escaped _) word, ← Bool.decide_and]
  simp only [body_eq_word isType word]

end type

theorem isSome_beyond (beginning s : Bytes) : (beyond beginning s).isSome = beginning.isPrefixOf s := by
  unfold beyond
  cases beginning.isPrefixOf s <;> rfl

/-- The callback for a type that is seen. -/
def route (name line : Bytes) : Option Callback :=
  if name = ascii "answer" then (sdpOf line).map (.onAnswer (ascii "answer"))
  else if name = ascii "offer" then (sdpOf line).map (.onOffer (ascii "offer"))
  else if name = ascii "ice" then
    if (candidateOf line).isEmpty then none
    else some (.onIce (midOf line) (mlineOf line) (candidateOf line))
  else none

theorem parseLine_route {type : StringText} {name : Bytes} (isType : type.chars.flatMap String.utf8EncodeChar = name)
    (other : name ≠ ascii "register") {rest : List Field} {line : Bytes}
    (fields : line = fieldsText (stringField .none typeKey_search type :: rest))
    (distinct : ((stringField .none typeKey_search type :: rest).map (·.key)).Nodup) :
    parseLine line = if type.TypeSeen then route name line else none := by
  have found (value : Bytes) : contains (typePattern value) line = value.isPrefixOf (type.render ++ fieldsEnd rest) := by
    rw [fields, contains_eq_isSome_after, after_fieldsText typeKey_search _ distinct]
    exact isSome_beyond _ _
  have either {w : Bytes} (word : ∀ c ∈ w, c ≠ 34 ∧ c ≠ 92) :
      (contains (typePattern (34 :: (w ++ [34]))) line || contains (typePattern (32 :: 34 :: (w ++ [34]))) line) =
        decide (type.TypeSeen ∧ name = w) := by
    rw [found, found, mark_word_isPrefixOf isType word, blank_word_isPrefixOf isType word, ← Bool.decide_or]
    refine decide_eq_decide.mpr ?_
    rw [← or_and_right, ← and_assoc]
    rfl
  have register : contains (typePattern (ascii "\"register\"")) line = false := by
    refine (found (34 :: (ascii "register" ++ [34]))).trans ?_
    rw [mark_word_isPrefixOf isType (by simp [ascii])]
    simp [other]
  have answer : (contains (typePattern (ascii "\"answer\"")) line || contains (typePattern (ascii " \"answer\"")) line) = _ :=
    either (w := ascii "answer") (by simp [ascii])
  have offer : (contains (typePattern (ascii "\"offer\"")) line || contains (typePattern (ascii " \"offer\"")) line) = _ :=
    either (w := ascii "offer") (by simp [ascii])
  have ice : (contains (typePattern (ascii "\"ice\"")) line || contains (typePattern (ascii " \"ice\"")) line) = _ :=
    either (w := ascii "ice") (by simp [ascii])
  have nonempty : line.isEmpty = false := by
    rw [fields]
    rfl
  rw [parseLine_eq, nonempty, register, answer, offer, ice]
  by_cases seen : type.TypeSeen
  · simp only [seen, true_and, decide_eq_true_eq, Bool.false_eq_true, if_false, if_true, route]
  · simp only [seen, false_and, decide_false, Bool.false_eq_true, if_false]

/-! The texts. -/

theorem unescape_append {s : Bytes} (escaped : Escaped s) (decode : UInt8 → UInt8) (t : Bytes) :
    unescape decode (s ++ t) = unescape decode s ++ unescape decode t := by
  induction escaped with
  | nil => rfl
  | plain notQuote notSlash _ ih =>
    rw [List.cons_append, unescape_plain _ notQuote notSlash, unescape_plain _ notQuote notSlash, ih, List.cons_append]
  | pair _ ih => rw [List.cons_append, List.cons_append, unescape_pair, unescape_pair, ih, List.cons_append]

theorem unescape_body (decode : UInt8 → UInt8) (pieces : List Piece) (rest : Bytes) :
    unescape decode (body pieces ++ 34 :: rest) = unescape decode (body pieces) := by
  rw [unescape_append (body_escaped pieces), unescape_quote, List.append_nil]

theorem unescape_body_eq_flatMap (decode : UInt8 → UInt8) (pieces : List Piece) :
    unescape decode (body pieces) = pieces.flatMap fun p => unescape decode p.render := by
  induction pieces with
  | nil => rfl
  | cons p pieces ih =>
    rw [List.flatMap_cons, ← ih]
    exact unescape_append p.escaped decode (body pieces)

theorem unescape_clean (decode : UInt8 → UInt8) {s : Bytes} (clean : ∀ b ∈ s, b ≠ 34 ∧ b ≠ 92) (rest : Bytes) :
    unescape decode (s ++ rest) = s ++ unescape decode rest := by
  induction s with
  | nil => rfl
  | cons c s ih =>
    have here := clean c (by simp)
    rw [List.cons_append, unescape_plain _ here.1 here.2, ih fun b inside => clean b (List.mem_cons_of_mem _ inside),
      List.cons_append]

theorem unescape_digits (decode : UInt8 → UInt8) (upper : Nat → Bool) (n : Nat) (rest : Bytes) :
    unescape decode (hexDigits upper n ++ rest) = hexDigits upper n ++ unescape decode rest :=
  unescape_clean decode (fun _ => mem_hexDigits) rest

theorem unescape_plainChar (decode : UInt8 → UInt8) {c : Char} (allowed : 32 ≤ c.toNat ∧ c.toNat ≠ 34 ∧ c.toNat ≠ 92) :
    unescape decode (String.utf8EncodeChar c) = String.utf8EncodeChar c := by
  have clean := utf8EncodeChar_plain allowed
  have whole := unescape_clean decode (s := String.utf8EncodeChar c)
    (fun b inside => ⟨fun same => clean.1 (same ▸ inside), fun same => clean.2 (same ▸ inside)⟩) []
  simpa [unescape] using whole

/-- An `\u` escape is heard as a `u` and its digits. -/
theorem unescape_unicode (decode : UInt8 → UInt8) (upper : Nat → Bool) {c : Char} (small : c.toNat < 0x10000) :
    unescape decode (unicodeEscape upper c) = decode 117 :: hexDigits upper c.toNat := by
  have digits := unescape_digits decode upper c.toNat []
  rw [List.append_nil] at digits
  rw [unicodeEscape_small upper small, unescape_pair, digits]
  simp [unescape]

theorem length_unescape_pair (decode : UInt8 → UInt8) (upper : Nat → Bool) {c : Char} (large : 0x10000 ≤ c.toNat) :
    (unescape decode (unicodeEscape upper c)).length = 10 := by
  have last := unescape_digits decode (fun i => upper (i + 4)) (0xDC00 + (c.toNat - 0x10000) % 1024) []
  rw [List.append_nil] at last
  rw [unicodeEscape, if_neg (by omega), unescape_pair, unescape_digits, unescape_pair, last]
  simp [unescape, hexDigits]

/-- A character is heard as in its shortest spelling unless a shorter one than
its `\u` escape exists, and never as fewer bytes. -/
theorem unescape_minimal {decode : UInt8 → UInt8} (solidus : decode 47 = 47) (p : Piece) :
    (unescape decode p.render = unescape decode (minimal p.char).render ↔ p.Frugal) ∧
      (unescape decode (minimal p.char).render).length ≤ (unescape decode p.render).length := by
  cases p with
  | plain c allowed =>
    rw [Piece.char, minimal_plain allowed]
    exact ⟨by simp [Piece.Frugal], le_rfl⟩
  | short e known =>
    by_cases slash : e = 47
    · subst slash
      have least : (minimal (Piece.short 47 known).char).render = [47] := rfl
      rw [least]
      simp [Piece.render, Piece.Frugal, unescape, solidus]
    · rw [Piece.char, minimal_short known slash]
      exact ⟨by simp [Piece.Frugal], le_rfl⟩
  | unicode upper c =>
    change (unescape decode (unicodeEscape upper c) = unescape decode (minimal c).render ↔
      unicodeEscape upper c = (minimal c).render) ∧
      (unescape decode (minimal c).render).length ≤ (unescape decode (unicodeEscape upper c)).length
    have least := minimal_shortest c
    generalize minimal c = m at least ⊢
    -- a spelling with fewer bytes is another one, and is heard differently
    have fewer (written : m.render.length < (unicodeEscape upper c).length)
        (spoken : (unescape decode m.render).length < (unescape decode (unicodeEscape upper c)).length) :
        (unescape decode (unicodeEscape upper c) = unescape decode m.render ↔ unicodeEscape upper c = m.render) ∧
          (unescape decode m.render).length ≤ (unescape decode (unicodeEscape upper c)).length := by
      refine ⟨⟨fun same => ?_, fun same => ?_⟩, spoken.le⟩
      · exact absurd (congrArg List.length same) spoken.ne'
      · exact absurd (congrArg List.length same) written.ne'
    have lengths : (c.toNat < 0x10000 ∧ (unicodeEscape upper c).length = 6 ∧
          (unescape decode (unicodeEscape upper c)).length = 5) ∨
        (unicodeEscape upper c).length = 12 ∧ (unescape decode (unicodeEscape upper c)).length = 10 := by
      by_cases small : c.toNat < 0x10000
      · refine .inl ⟨small, ?_, ?_⟩
        · simp [unicodeEscape_small upper small, hexDigits]
        · simp [unescape_unicode decode upper small, hexDigits]
      · refine .inr ⟨?_, length_unescape_pair decode upper (by omega)⟩
        simp [unicodeEscape, small, hexDigits]
    cases least with
    | short e known =>
      have one : (unescape decode (Piece.short e known).render).length = 1 := by simp [Piece.render, unescape]
      have two : (Piece.short e known).render.length = 2 := rfl
      exact fewer (by omega) (by omega)
    | plain allowed =>
      have same := unescape_plainChar decode allowed
      have atMost : (String.utf8EncodeChar c).length ≤ 4 := (String.length_utf8EncodeChar c).trans_le c.utf8Size_le_four
      simp only [Piece.render] at fewer ⊢
      rw [same] at fewer ⊢
      rcases lengths with ⟨small, written, spoken⟩ | ⟨written, spoken⟩
      · have atMost := length_utf8EncodeChar_le small
        exact fewer (by omega) (by omega)
      · exact fewer (by omega) (by omega)
    | unicode control =>
      have small : c.toNat < 0x10000 := by omega
      simp only [Piece.render, unescape_unicode decode _ small]
      rw [unicodeEscape_small _ small, unicodeEscape_small _ small]
      exact ⟨by simp only [List.cons.injEq, true_and], by simp [hexDigits]⟩

theorem flatMap_eq_iff {α β : Type} {f g : α → List β} {l : List α} (shorter : ∀ a ∈ l, (g a).length ≤ (f a).length) :
    l.flatMap f = l.flatMap g ↔ ∀ a ∈ l, f a = g a := by
  refine ⟨fun same => ?_, fun same => List.flatMap_congr same⟩
  induction l with
  | nil => simp
  | cons a l ih =>
    have others : ∀ b ∈ l, (g b).length ≤ (f b).length := fun b inside => shorter b (List.mem_cons_of_mem _ inside)
    have total : (l.flatMap g).length ≤ (l.flatMap f).length := by
      simp only [List.length_flatMap]
      exact List.sum_le_sum others
    have here := shorter a List.mem_cons_self
    rw [List.flatMap_cons, List.flatMap_cons] at same
    have whole := congrArg List.length same
    simp only [List.length_append] at whole
    obtain ⟨first, rest⟩ := List.append_inj same (by omega)
    exact List.forall_mem_cons.mpr ⟨first, ih others rest⟩

/-- An unescape loop hears a string like its shortest spelling exactly if no
`\u` escape in it has a shorter form. -/
theorem unescape_shortest_iff {decode : UInt8 → UInt8} (solidus : decode 47 = 47) (pieces : List Piece) :
    unescape decode (body pieces) = unescape decode (body (shortest pieces)) ↔ ∀ p ∈ pieces, p.Frugal := by
  have each (p : Piece) := unescape_minimal solidus p
  rw [unescape_body_eq_flatMap, unescape_body_eq_flatMap, shortest, List.flatMap_map,
    flatMap_eq_iff fun p _ => (each p).2]
  exact forall₂_congr fun p _ => (each p).1

theorem body_ne_nil {pieces : List Piece} (present : pieces ≠ []) : body pieces ≠ [] := by
  cases pieces with
  | nil => exact absurd rfl present
  | cons p pieces =>
    refine List.append_ne_nil_of_left_ne_nil ?_ _
    cases p with
    | plain => exact String.utf8EncodeChar_ne_nil
    | short => exact List.cons_ne_nil _ _
    | unicode upper c =>
      obtain ⟨rest, shape⟩ := unicodeEscape_shape upper c
      rw [Piece.render, shape]
      exact List.cons_ne_nil _ _

theorem unescape_ne_nil {s : Bytes} (escaped : Escaped s) (present : s ≠ []) (decode : UInt8 → UInt8) :
    unescape decode s ≠ [] := by
  cases escaped with
  | nil => exact absurd rfl present
  | plain notQuote notSlash =>
    rw [unescape_plain _ notQuote notSlash]
    exact List.cons_ne_nil _ _
  | pair =>
    rw [unescape_pair]
    exact List.cons_ne_nil _ _

/-! What is found in the text of a spelling. -/

theorem beyond_mark_render (t : StringText) (rest : Bytes) :
    beyond [34] (t.render ++ rest) = if t.before.bytes = [] then some (body t.pieces ++ 34 :: rest) else none := by
  rw [beyond, t.render_append, Blanks.mark_isPrefixOf]
  by_cases empty : t.before.bytes = []
  · simp [empty]
  · simp [empty]

theorem idxOf?_mark (s rest : Bytes) :
    ∃ length, (s ++ 34 :: rest).idxOf? 34 = some length ∧ (s ++ 34 :: rest).take length = untilMark s := by
  by_cases inside : 34 ∈ s
  · obtain ⟨first, later, rfl, absent⟩ := List.eq_append_cons_of_mem inside
    refine ⟨first.length, ?_, ?_⟩
    · rw [List.append_assoc]
      exact idxOf?_terminator absent _
    · rw [untilMark_append absent, untilMark_mark, List.append_nil, List.append_assoc, List.take_left']
      rfl
  · refine ⟨s.length, idxOf?_terminator inside rest, ?_⟩
    have whole := untilMark_append inside []
    rw [List.take_left' rfl]
    simpa [untilMark] using whole.symm

section texts
variable {fs : List Field} (distinct : (fs.map (·.key)).Nodup)
include distinct

theorem after_mark {key : Bytes} (search : SearchKey key) {t : StringText} {rest : List Field}
    (found : fieldText key fs = some (t.render ++ fieldsEnd rest)) :
    after (keyPattern key [34]) (fieldsText fs) =
      if t.before.bytes = [] then some (body t.pieces ++ 34 :: fieldsEnd rest) else none := by
  rw [after_fieldsText search _ distinct, found, Option.bind_some, beyond_mark_render]

theorem sdpOf_fieldsText (sdp : StringText) (rest : List Field)
    (found : fieldText (ascii "sdp") fs = some (sdp.render ++ fieldsEnd rest)) :
    sdpOf (fieldsText fs) = if sdp.before.bytes = [] then some (unescapeSdp (body sdp.pieces)) else none := by
  have text : after (ascii "\"sdp\":\"") (fieldsText fs) = _ := after_mark distinct sdpKey_search found
  rw [sdpOf_eq_after, text]
  by_cases empty : sdp.before.bytes = []
  · rw [if_pos empty, if_pos empty]
    exact congrArg some (unescape_body _ _ _)
  · rw [if_neg empty, if_neg empty]
    rfl

theorem candidateOf_fieldsText (candidate : StringText) (rest : List Field)
    (found : fieldText (ascii "candidate") fs = some (candidate.render ++ fieldsEnd rest)) :
    candidateOf (fieldsText fs) =
      if candidate.before.bytes = [] then unescapeCandidate (body candidate.pieces) else [] := by
  have text : after (ascii "\"candidate\":\"") (fieldsText fs) = _ := after_mark distinct candidateKey_search found
  rw [candidateOf_eq_after, text]
  by_cases empty : candidate.before.bytes = []
  · rw [if_pos empty, if_pos empty]
    exact unescape_body _ _ _
  · rw [if_neg empty, if_neg empty]

theorem midOf_fieldsText (mid : StringText) (rest : List Field)
    (found : fieldText (ascii "mid") fs = some (mid.render ++ fieldsEnd rest)) :
    midOf (fieldsText fs) = if mid.before.bytes = [] then untilMark (body mid.pieces) else [] := by
  have text : after (ascii "\"mid\":\"") (fieldsText fs) = _ := after_mark distinct midKey_search found
  rw [midOf_eq_after, text]
  by_cases empty : mid.before.bytes = []
  · obtain ⟨length, index, cut⟩ := idxOf?_mark (body mid.pieces) (fieldsEnd rest)
    rw [if_pos empty, if_pos empty]
    simp only [index, cut]
  · rw [if_neg empty, if_neg empty]

/-- `atoi` skips the white space. -/
theorem mlineOf_fieldsText (before : Blanks) (z : Int32) {more : Bytes}
    (found : fieldText (ascii "mlineIndex") fs = some (before.bytes ++ decimal z.toInt ++ 44 :: more)) :
    mlineOf (fieldsText fs) = z := by
  have text : after (ascii "\"mlineIndex\":") (fieldsText fs) = _ := after_fieldsText mlineKey_search [] distinct
  have nulFree : (0 : UInt8) ∉ before.bytes ++ decimal z.toInt ++ [44] := by
    have blank : (0 : UInt8) ∉ before.bytes := fun inside => absurd (before.blank 0 inside) (by decide)
    simp [blank, decimal_excludes]
  have spaces : ∀ b ∈ before.bytes, isSpace b = true := by
    intro b inside
    have known := before.blank b inside
    simp only [List.mem_cons, List.not_mem_nil, or_false] at known
    rcases known with rfl | rfl | rfl | rfl <;> decide
  have skipped : (before.bytes ++ (decimal z.toInt ++ 44 :: cString more)).dropWhile isSpace =
      (decimal z.toInt ++ 44 :: cString more).dropWhile isSpace := List.dropWhile_append_of_pos spaces
  have value := atoi_decimal z (cString more)
  have all (s : Bytes) : beyond [] s = some s := rfl
  rw [found, Option.bind_some, all] at text
  rw [mlineOf_eq_after, text]
  rw [show before.bytes ++ decimal z.toInt ++ 44 :: more = (before.bytes ++ decimal z.toInt ++ [44]) ++ more by simp]
  simp only [cString_append nulFree]
  rw [List.append_assoc, List.append_assoc, List.singleton_append, atoi, strtol, skipped]
  exact value

end texts

/-! A whole message. -/

theorem SessionType.chars (kind : SessionType) : kind.name.toList.flatMap String.utf8EncodeChar = ascii kind.name := by
  cases kind <;> decide

def SessionType.callback : SessionType → Bytes → Callback
  | .offer => .onOffer (ascii "offer")
  | .answer => .onAnswer (ascii "answer")

theorem route_session (kind : SessionType) (line : Bytes) :
    route (ascii kind.name) line = (sdpOf line).map kind.callback := by
  cases kind <;> rfl

theorem route_ice (line : Bytes) :
    route (ascii "ice") line =
      if (candidateOf line).isEmpty then none else some (.onIce (midOf line) (mlineOf line) (candidateOf line)) := rfl

theorem parseLine_session (kind : SessionType) (type : StringText) (isType : type.chars = kind.name.toList)
    (comma : Blanks) (sdp : StringText) :
    parseLine (Spelling.session kind type isType comma sdp).render =
      if type.TypeSeen ∧ sdp.before.bytes = [] then some (kind.callback (unescapeSdp (body sdp.pieces))) else none := by
  have distinct : ([stringField .none typeKey_search type, stringField comma sdpKey_search sdp].map (·.key)).Nodup := by
    change [ascii "type", ascii "sdp"].Nodup
    decide
  have text : sdpOf (Spelling.session kind type isType comma sdp).render = _ :=
    sdpOf_fieldsText distinct sdp [] rfl
  have name : type.chars.flatMap String.utf8EncodeChar = ascii kind.name := by rw [isType, kind.chars]
  have routed : parseLine (Spelling.session kind type isType comma sdp).render = _ :=
    parseLine_route name (by cases kind <;> decide) rfl distinct
  rw [routed, route_session, text]
  by_cases seen : type.TypeSeen
  · by_cases empty : sdp.before.bytes = []
    · simp only [seen, empty, if_true, true_and, Option.map_some]
    · simp only [seen, empty, if_true, if_false, and_false, Option.map_none]
  · simp only [seen, if_false, false_and]

theorem parseLine_iceSpelling (type : StringText) (isType : type.chars = "ice".toList) (midComma : Blanks)
    (mid : StringText) (mlineComma mlineColon : Blanks) (mlineIndex : Int32) (candidateComma : Blanks)
    (candidate : StringText) (present : candidate.pieces ≠ []) :
    parseLine (Spelling.ice type isType midComma mid mlineComma mlineColon mlineIndex candidateComma candidate present).render =
      if type.TypeSeen ∧ candidate.before.bytes = [] then
        some (.onIce (if mid.before.bytes = [] then untilMark (body mid.pieces) else []) mlineIndex
          (unescapeCandidate (body candidate.pieces)))
      else none := by
  have distinct : ((Spelling.fields (.ice type isType midComma mid mlineComma mlineColon mlineIndex candidateComma
      candidate present)).map (·.key)).Nodup := by
    change [ascii "type", ascii "mid", ascii "mlineIndex", ascii "candidate"].Nodup
    decide
  have text := candidateOf_fieldsText distinct candidate [] rfl
  have tag := midOf_fieldsText distinct mid _ rfl
  have index := mlineOf_fieldsText distinct mlineColon mlineIndex rfl
  have name : type.chars.flatMap String.utf8EncodeChar = ascii "ice" := by rw [isType]; decide
  have routed := parseLine_route name (by decide) rfl distinct
  have heard : unescapeCandidate (body candidate.pieces) ≠ [] :=
    unescape_ne_nil (body_escaped _) (body_ne_nil present) _
  refine routed.trans ?_
  simp only [Spelling.fields] at text tag index
  rw [route_ice, text, tag, index]
  by_cases seen : type.TypeSeen
  · by_cases empty : candidate.before.bytes = []
    · simp only [seen, empty, if_true, true_and, List.isEmpty_iff, heard, if_false]
    · simp only [seen, empty, if_true, if_false, and_false, List.isEmpty_nil]
  · simp only [seen, if_false, false_and]

theorem compact_typeSeen {type : StringText} {w : String} (isType : type.chars = w.toList)
    (plain : allPlain w.toList = true) : type.compact.TypeSeen := by
  refine ⟨.inl rfl, List.all_eq_true.mpr fun p inside => ?_⟩
  obtain ⟨q, member, rfl⟩ := List.mem_map.mp inside
  have char : q.char ∈ w.toList := by
    rw [← isType]
    exact List.mem_map_of_mem member
  rw [minimal_plain (plain_of_allPlain plain _ char)]
  rfl

/-- With every handler set the callbacks tell the lines apart. -/
theorem parseAndDispatch_alike (one two : Bytes) :
    (∀ h, parseAndDispatch h one = parseAndDispatch h two) ↔ parseLine one = parseLine two := by
  constructor
  · intro alike
    have calls (line : Bytes) : parseAndDispatch .all line = (parseLine line).toList := by
      refine List.filter_eq_self.mpr fun call _ => ?_
      cases call <;> rfl
    have same := alike .all
    rw [calls, calls] at same
    simpa only [Option.head?_toList] using congrArg List.head? same
  · intro same h
    rw [parseAndDispatch, same, parseAndDispatch]

theorem unescapeSdp_shortest_iff (pieces : List Piece) :
    unescapeSdp (body pieces) = unescapeSdp (body (shortest pieces)) ↔ ∀ p ∈ pieces, p.Frugal :=
  unescape_shortest_iff (by decide) pieces

theorem unescapeCandidate_shortest_iff (pieces : List Piece) :
    unescapeCandidate (body pieces) = unescapeCandidate (body (shortest pieces)) ↔ ∀ p ∈ pieces, p.Frugal :=
  unescape_shortest_iff rfl pieces

/-- A mid that is not found is empty, and so is the mid of no characters only. -/
theorem cut_iff (mid : StringText) :
    (if mid.before.bytes = [] then untilMark (body mid.pieces) else []) = untilMark (body (shortest mid.pieces)) ↔
      mid.CutAlike := by
  unfold StringText.CutAlike
  by_cases empty : mid.before.bytes = []
  · rw [if_pos empty, untilMark_body_iff]
    simp only [empty, true_and]
    refine ⟨.inr, fun cut => cut.elim (fun none => ?_) id⟩
    rw [none]
    trivial
  · simp only [empty, if_false, false_and, or_false]
    cases mid.pieces with
    | nil => exact ⟨fun _ => rfl, fun _ => rfl⟩
    | cons p pieces =>
      have first : untilMark (body (shortest (p :: pieces))) ≠ [] :=
        untilMark_shortest_ne_nil (minimal_shortest p.char) _
      simp [Ne.symm first]

/-- A spelling of a message makes the callback of the compact one if and only
if it is written in one of the ways that the searches and the unescape loops know. -/
theorem spelling_iff (s : Spelling) :
    (∀ h, parseAndDispatch h s.render = parseAndDispatch h s.compact.render) ↔ s.ReadAlike := by
  rw [parseAndDispatch_alike]
  cases s with
  | session kind type isType comma sdp =>
    have seen := compact_typeSeen isType (by cases kind <;> decide)
    have injective : Function.Injective kind.callback := by
      cases kind <;> exact fun a b same => by injection same
    have empty : sdp.compact.before.bytes = [] := rfl
    simp only [Spelling.compact, parseLine_session, seen, empty, and_self, if_true, Spelling.ReadAlike,
      StringText.ReadAlike, ← and_assoc, Option.ite_none_right_eq_some, Option.some.injEq, injective.eq_iff]
    exact and_congr_right fun _ => unescapeSdp_shortest_iff _
  | ice type isType midComma mid mlineComma mlineColon mlineIndex candidateComma candidate present =>
    have seen := compact_typeSeen isType (by decide)
    have empty : candidate.compact.before.bytes = [] := rfl
    have bare : mid.compact.before.bytes = [] := rfl
    have cut := cut_iff mid
    have text := unescapeCandidate_shortest_iff candidate.pieces
    simp only [Spelling.compact, parseLine_iceSpelling, seen, empty, bare, and_self, if_true, Spelling.ReadAlike,
      StringText.ReadAlike, Option.ite_none_right_eq_some, Option.some.injEq, Callback.onIce.injEq, true_and]
    rw [← cut, ← text]
    constructor
    · rintro ⟨⟨shown, near⟩, tag, same⟩
      exact ⟨shown, tag, near, same⟩
    · rintro ⟨shown, tag, near, same⟩
      exact ⟨⟨shown, near⟩, tag, same⟩

/-- One blank before the type, a tab after the comma and an escaped solidus are read alike. -/
example : (Spelling.session .answer ⟨⟨[32], by simp⟩, plainPieces "answer".toList (by decide)⟩ (by decide) ⟨[9], by simp⟩
    ⟨.none, [.short 47 (by decide)]⟩).ReadAlike := by decide

/-- The one-space form of an offer. -/
def spacedOffer : Spelling :=
  .session .offer ⟨⟨[32], by simp⟩, plainPieces "offer".toList (by decide)⟩ (by decide) ⟨[32], by simp⟩
    ⟨⟨[32], by simp⟩, plainPieces "v=0".toList (by decide)⟩

/-- Its type is recognized, its sdp is not. -/
theorem not_spelling_spacedOffer :
    spacedOffer.render = ascii "\x7b\"type\": \"offer\", \"sdp\": \"v=0\"\x7d" ∧
      spacedOffer.compact.render = ascii "\x7b\"type\":\"offer\",\"sdp\":\"v=0\"\x7d" ∧
      ¬ ∀ h, parseAndDispatch h spacedOffer.render = parseAndDispatch h spacedOffer.compact.render :=
  ⟨by decide, by decide, fun alike => absurd (alike .all) (by decide)⟩

end WebRtcDemo.Signaling
