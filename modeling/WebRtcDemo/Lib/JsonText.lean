import WebRtcDemo.Lib.QuotedText

/-! The ways in which JSON lets a string be written, and the shortest of them. -/

namespace JsonText
open ByteText

/-- The bytes that may follow a backslash, `u` apart: `"`, `\`, `/`, `b`, `f`, `n`, `r` and `t`. -/
def shortEscapes : List UInt8 := [34, 92, 47, 98, 102, 110, 114, 116]

def escapedChar (e : UInt8) : Char :=
  if e = 98 then Char.ofNat 8
  else if e = 102 then Char.ofNat 12
  else if e = 110 then Char.ofNat 10
  else if e = 114 then Char.ofNat 13
  else if e = 116 then Char.ofNat 9
  else Char.ofNat e.toNat

def hexDigit (upper : Bool) (d : Nat) : UInt8 :=
  UInt8.ofNat (if d < 10 then 48 + d else if upper then 55 + d else 87 + d)

/-- The four digits of a 16-bit unit, each in lower or in upper case. -/
def hexDigits (upper : Nat → Bool) (n : Nat) : Bytes :=
  [hexDigit (upper 0) (n / 4096 % 16), hexDigit (upper 1) (n / 256 % 16), hexDigit (upper 2) (n / 16 % 16),
    hexDigit (upper 3) (n % 16)]

/-- `\uXXXX`, twice for a character that takes a surrogate pair. -/
def unicodeEscape (upper : Nat → Bool) (c : Char) : Bytes :=
  if c.toNat < 0x10000 then 92 :: 117 :: hexDigits upper c.toNat
  else 92 :: 117 :: (hexDigits upper (0xD800 + (c.toNat - 0x10000) / 1024) ++
    92 :: 117 :: hexDigits (fun i => upper (i + 4)) (0xDC00 + (c.toNat - 0x10000) % 1024))

/-- One character as it is written in a string. -/
inductive Piece
  | plain (c : Char) (allowed : 32 ≤ c.toNat ∧ c.toNat ≠ 34 ∧ c.toNat ≠ 92)
  | short (e : UInt8) (known : e ∈ shortEscapes)
  | unicode (upper : Nat → Bool) (c : Char)

def Piece.render : Piece → Bytes
  | .plain c _ => String.utf8EncodeChar c
  | .short e _ => [92, e]
  | .unicode upper c => unicodeEscape upper c

def Piece.char : Piece → Char
  | .plain c _ => c
  | .short e _ => escapedChar e
  | .unicode _ c => c

def Piece.isPlain : Piece → Bool
  | .plain _ _ => true
  | _ => false

/-- No character of the text needs an escape. -/
def allPlain (text : List Char) : Bool := text.all fun c => decide (32 ≤ c.toNat ∧ c.toNat ≠ 34 ∧ c.toNat ≠ 92)

theorem plain_of_allPlain {text : List Char} (all : allPlain text = true) :
    ∀ c ∈ text, 32 ≤ c.toNat ∧ c.toNat ≠ 34 ∧ c.toNat ≠ 92 :=
  fun c inside => of_decide_eq_true (List.all_eq_true.mp all c inside)

/-- A text that is written as it is. -/
def plainPieces (text : List Char) (all : allPlain text = true) : List Piece := text.pmap .plain (plain_of_allPlain all)

/-- The inside of a string, between its quotation marks. -/
def body (pieces : List Piece) : Bytes := pieces.flatMap Piece.render

/-- The shortest way to write a character, with lower-case digits where it is an `\u` escape. -/
def minimal (c : Char) : Piece :=
  if c.toNat = 34 then .short 34 (by decide)
  else if c.toNat = 92 then .short 92 (by decide)
  else if c.toNat = 8 then .short 98 (by decide)
  else if c.toNat = 12 then .short 102 (by decide)
  else if c.toNat = 10 then .short 110 (by decide)
  else if c.toNat = 13 then .short 114 (by decide)
  else if c.toNat = 9 then .short 116 (by decide)
  else if allowed : 32 ≤ c.toNat ∧ c.toNat ≠ 34 ∧ c.toNat ≠ 92 then .plain c allowed
  else .unicode (fun _ => false) c

def shortest (pieces : List Piece) : List Piece := pieces.map fun p => minimal p.char

/-! Bytes of a piece. -/

/-- The bytes of an ASCII character occur in no other character. -/
theorem utf8EncodeChar_excludes {c : Char} {b : Nat} (ascii : b < 128) (other : c.toNat ≠ b) :
    UInt8.ofNat b ∉ String.utf8EncodeChar c := by
  change c.val.toNat ≠ b at other
  have apart {n : Nat} (different : b ≠ n % 256) : UInt8.ofNat b ≠ UInt8.ofNat n := by
    intro same
    have value := congrArg UInt8.toNat same
    simp only [UInt8.toNat_ofNat', Nat.reducePow] at value
    omega
  fun_cases String.utf8EncodeChar c
  all_goals simp only [List.mem_cons, List.not_mem_nil, or_false, not_or]
  · exact apart (by omega)
  · exact ⟨apart (by omega), apart (by omega)⟩
  · exact ⟨apart (by omega), apart (by omega), apart (by omega)⟩
  · exact ⟨apart (by omega), apart (by omega), apart (by omega), apart (by omega)⟩

theorem length_utf8EncodeChar_le {c : Char} (small : c.toNat < 0x10000) : (String.utf8EncodeChar c).length ≤ 3 := by
  change c.val.toNat < _ at small
  fun_cases String.utf8EncodeChar c <;> simp
  omega

theorem utf8EncodeChar_plain {c : Char} (allowed : 32 ≤ c.toNat ∧ c.toNat ≠ 34 ∧ c.toNat ≠ 92) :
    34 ∉ String.utf8EncodeChar c ∧ 92 ∉ String.utf8EncodeChar c :=
  ⟨utf8EncodeChar_excludes (by decide) allowed.2.1, utf8EncodeChar_excludes (by decide) allowed.2.2⟩

theorem hexDigit_clean (upper : Bool) {d : Nat} (digit : d < 16) : hexDigit upper d ≠ 34 ∧ hexDigit upper d ≠ 92 := by
  cases upper <;> interval_cases d <;> decide

theorem mem_hexDigits {upper : Nat → Bool} {n : Nat} {b : UInt8} (member : b ∈ hexDigits upper n) : b ≠ 34 ∧ b ≠ 92 := by
  have clean (i d : Nat) : hexDigit (upper i) (d % 16) ≠ 34 ∧ hexDigit (upper i) (d % 16) ≠ 92 :=
    hexDigit_clean _ (Nat.mod_lt _ (by decide))
  simp only [hexDigits, List.mem_cons, List.not_mem_nil, or_false] at member
  rcases member with rfl | rfl | rfl | rfl <;> exact clean _ _

theorem unicodeEscape_escaped (upper : Nat → Bool) (c : Char) : Escaped (unicodeEscape upper c) := by
  have digits (upper : Nat → Bool) (n : Nat) : Escaped (hexDigits upper n) := .of_plain fun _ member => mem_hexDigits member
  unfold unicodeEscape
  split
  · exact .pair (digits _ _)
  · exact .pair ((digits _ _).append (.pair (digits _ _)))

theorem Piece.escaped (p : Piece) : Escaped p.render := by
  cases p with
  | plain c allowed =>
    have clean := utf8EncodeChar_plain allowed
    exact .of_plain fun b member => ⟨fun same => clean.1 (same ▸ member), fun same => clean.2 (same ▸ member)⟩
  | short e known => exact .pair .nil
  | unicode upper c => exact unicodeEscape_escaped upper c

theorem body_escaped (pieces : List Piece) : Escaped (body pieces) := by
  induction pieces with
  | nil => exact .nil
  | cons p pieces ih => exact p.escaped.append ih

/-! The shortest spelling. -/

/-- What the shortest spelling of a character can be. -/
inductive Shortest (c : Char) : Piece → Prop
  | short (e : UInt8) (known : e ∈ shortEscapes) (notSlash : e ≠ 47) (value : escapedChar e = c) :
      Shortest c (.short e known)
  | plain (allowed : 32 ≤ c.toNat ∧ c.toNat ≠ 34 ∧ c.toNat ≠ 92) : Shortest c (.plain c allowed)
  | unicode (control : c.toNat < 32) : Shortest c (.unicode (fun _ => false) c)

theorem minimal_shortest (c : Char) : Shortest c (minimal c) := by
  have escaped {n : Nat} (code : c.toNat = n) {e : UInt8} (value : escapedChar e = Char.ofNat n) : escapedChar e = c := by
    rw [value, ← code, Char.ofNat_toNat]
  unfold minimal
  split_ifs with mark slash backspace formFeed lineFeed carriageReturn tab allowed
  · exact .short 34 _ (by decide) (escaped mark rfl)
  · exact .short 92 _ (by decide) (escaped slash rfl)
  · exact .short 98 _ (by decide) (escaped backspace rfl)
  · exact .short 102 _ (by decide) (escaped formFeed rfl)
  · exact .short 110 _ (by decide) (escaped lineFeed rfl)
  · exact .short 114 _ (by decide) (escaped carriageReturn rfl)
  · exact .short 116 _ (by decide) (escaped tab rfl)
  · exact .plain allowed
  · exact .unicode (by omega)

theorem Shortest.char {c : Char} {p : Piece} (shortest : Shortest c p) : p.char = c := by
  cases shortest with
  | short e known notSlash value => exact value
  | plain => rfl
  | unicode => rfl

theorem minimal_plain {c : Char} (allowed : 32 ≤ c.toNat ∧ c.toNat ≠ 34 ∧ c.toNat ≠ 92) :
    minimal c = .plain c allowed := by
  unfold minimal
  split_ifs
  all_goals
    first
    | rfl
    | omega

theorem minimal_short {e : UInt8} (known : e ∈ shortEscapes) (notSlash : e ≠ 47) :
    minimal (escapedChar e) = .short e known := by
  simp only [shortEscapes, List.mem_cons, List.not_mem_nil, or_false] at known
  rcases known with rfl | rfl | rfl | rfl | rfl | rfl | rfl | rfl
  all_goals
    first
    | rfl
    | exact absurd rfl notSlash

theorem unicodeEscape_small (upper : Nat → Bool) {c : Char} (small : c.toNat < 0x10000) :
    unicodeEscape upper c = 92 :: 117 :: hexDigits upper c.toNat := by
  rw [unicodeEscape, if_pos small]

theorem unicodeEscape_shape (upper : Nat → Bool) (c : Char) : ∃ rest, unicodeEscape upper c = 92 :: 117 :: rest := by
  unfold unicodeEscape
  split
  · exact ⟨_, rfl⟩
  · exact ⟨_, rfl⟩

theorem short_ne_u {e : UInt8} (known : e ∈ shortEscapes) : e ≠ 117 := by
  rintro rfl
  revert known
  decide

/-- An `\u` escape stands only where there is no shorter way to write the character. -/
def Piece.Frugal : Piece → Prop
  | .plain _ _ | .short _ _ => True
  | .unicode upper c => unicodeEscape upper c = (minimal c).render

instance : DecidablePred Piece.Frugal
  | .plain _ _ | .short _ _ => isTrue trivial
  | .unicode _ _ => inferInstanceAs (Decidable (_ = _))

/-! The text up to the first quotation mark, escaped or not. -/

def untilMark (s : Bytes) : Bytes := s.takeWhile (· != 34)

/-- Every character up to the first quotation mark is written in the shortest way. -/
def ShortestToMark : List Piece → Prop
  | [] => True
  | p :: pieces => p.render = (minimal p.char).render ∧ (p.char.toNat = 34 ∨ ShortestToMark pieces)

instance decidableShortestToMark : DecidablePred ShortestToMark
  | [] => isTrue trivial
  | _ :: pieces =>
    have := decidableShortestToMark pieces
    inferInstanceAs (Decidable (_ ∧ (_ ∨ _)))

theorem untilMark_append {s : Bytes} (absent : 34 ∉ s) (t : Bytes) : untilMark (s ++ t) = s ++ untilMark t := by
  refine List.takeWhile_append_of_pos fun b member => ?_
  simpa using fun same : b = 34 => absent (same ▸ member)

theorem untilMark_cons {b : UInt8} (other : b ≠ 34) (t : Bytes) : untilMark (b :: t) = b :: untilMark t := by
  simp [untilMark, other]

theorem untilMark_mark (t : Bytes) : untilMark (34 :: t) = [] := by
  simp [untilMark]

/-- After a character written in the shortest way the texts go on, unless it was the mark. -/
theorem untilMark_shortest {c : Char} {p : Piece} (shortest : Shortest c p) (s t : Bytes) :
    untilMark (p.render ++ s) = untilMark (p.render ++ t) ↔ c.toNat = 34 ∨ untilMark s = untilMark t := by
  have goesOn (absent : 34 ∉ p.render) (other : c.toNat ≠ 34) :
      untilMark (p.render ++ s) = untilMark (p.render ++ t) ↔ c.toNat = 34 ∨ untilMark s = untilMark t := by
    rw [untilMark_append absent, untilMark_append absent, List.append_cancel_left_eq]
    simp [other]
  cases shortest with
  | short e known notSlash value =>
    by_cases mark : e = 34
    · subst mark
      subst value
      simp [Piece.render, untilMark, escapedChar]
    · refine goesOn (by simp [Piece.render, Ne.symm mark]) ?_
      subst value
      simp only [shortEscapes, List.mem_cons, List.not_mem_nil, or_false] at known
      rcases known with rfl | rfl | rfl | rfl | rfl | rfl | rfl | rfl
      all_goals
        first
        | exact absurd rfl mark
        | decide
  | plain allowed => exact goesOn (utf8EncodeChar_plain allowed).1 allowed.2.1
  | unicode control =>
    refine goesOn ?_ (by omega)
    rw [Piece.render, unicodeEscape_small _ (by omega)]
    simp only [List.mem_cons, not_or]
    exact ⟨by decide, by decide, fun inside => (mem_hexDigits inside).1 rfl⟩

theorem untilMark_shortest_ne_nil {c : Char} {p : Piece} (shortest : Shortest c p) (t : Bytes) :
    untilMark (p.render ++ t) ≠ [] := by
  cases shortest with
  | short e known =>
    rw [Piece.render, List.cons_append, untilMark_cons (by decide)]
    exact List.cons_ne_nil _ _
  | plain allowed =>
    rw [Piece.render, untilMark_append (utf8EncodeChar_plain allowed).1]
    exact List.append_ne_nil_of_left_ne_nil String.utf8EncodeChar_ne_nil _
  | unicode control =>
    rw [Piece.render, unicodeEscape_small _ (by omega), List.cons_append, untilMark_cons (by decide)]
    exact List.cons_ne_nil _ _

/-- A longer way to write a character shows in the text before any mark. -/
theorem untilMark_longer {p : Piece} (longer : p.render ≠ (minimal p.char).render) (s t : Bytes) :
    untilMark (p.render ++ s) ≠ untilMark ((minimal p.char).render ++ t) := by
  cases p with
  | plain c allowed => exact absurd (by rw [Piece.char, minimal_plain allowed]) longer
  | short e known =>
    by_cases slash : e = 47
    · subst slash
      intro same
      have heads := congrArg List.head? same
      revert heads
      simp [Piece.render, Piece.char, escapedChar, minimal, untilMark, String.utf8EncodeChar]
    · exact absurd (by rw [Piece.char, minimal_short known slash]) longer
  | unicode upper c =>
    obtain ⟨digits, shape⟩ := unicodeEscape_shape upper c
    change unicodeEscape upper c ≠ (minimal c).render at longer
    change untilMark (unicodeEscape upper c ++ s) ≠ untilMark ((minimal c).render ++ t)
    have opening : untilMark (unicodeEscape upper c ++ s) = 92 :: 117 :: untilMark (digits ++ s) := by
      rw [shape, List.cons_append, List.cons_append, untilMark_cons (by decide), untilMark_cons (by decide)]
    have least := minimal_shortest c
    generalize minimal c = m at longer least ⊢
    cases least with
    | short e known _ _ =>
      rw [opening, Piece.render, List.cons_append, untilMark_cons (by decide)]
      by_cases mark : e = 34
      · subst mark
        simp [untilMark]
      · rw [List.cons_append, untilMark_cons mark]
        simp [Ne.symm (short_ne_u known)]
    | plain allowed =>
      have clean := utf8EncodeChar_plain allowed
      rw [opening, Piece.render, untilMark_append clean.1]
      cases bytes : String.utf8EncodeChar c with
      | nil => exact absurd bytes String.utf8EncodeChar_ne_nil
      | cons b rest =>
        have other : b ≠ 92 := by
          rintro rfl
          exact clean.2 (by rw [bytes]; exact List.mem_cons_self)
        simp [Ne.symm other]
    | unicode control =>
      have small : c.toNat < 0x10000 := by omega
      have unmarked (upper : Nat → Bool) : 34 ∉ hexDigits upper c.toNat := fun inside => (mem_hexDigits inside).1 rfl
      simp only [Piece.render, unicodeEscape_small _ small] at longer ⊢
      simp only [List.cons_append]
      rw [untilMark_cons (by decide), untilMark_cons (by decide), untilMark_append (unmarked _),
        untilMark_cons (by decide), untilMark_cons (by decide), untilMark_append (unmarked _)]
      intro same
      simp only [List.cons.injEq, true_and] at same
      exact longer (by rw [List.append_inj_left same rfl])

theorem untilMark_body_iff (pieces : List Piece) :
    untilMark (body pieces) = untilMark (body (shortest pieces)) ↔ ShortestToMark pieces := by
  induction pieces with
  | nil => simp [shortest, ShortestToMark]
  | cons p pieces ih =>
    simp only [body, shortest, List.map_cons, List.flatMap_cons, ShortestToMark]
    by_cases least : p.render = (minimal p.char).render
    · rw [least, untilMark_shortest (minimal_shortest p.char), ← ih]
      simp [body, shortest]
    · simp only [least, false_and, iff_false]
      exact untilMark_longer least _ _

end JsonText
