import WebRtcDemo.Lib.KeySearch
import Mathlib.Data.Nat.Digits.Lemmas

/-! Compact flat JSON objects: their texts, a parser for them, and what a
search for a quoted key finds in such a text. -/

namespace FlatJson
open ByteText

/-- The bytes that may follow a backslash: `"`, `\`, `/`, `n` and `r`. -/
def escapes : List UInt8 := [34, 92, 47, 110, 114]

/-- What an escape stands for. -/
def escapeValue (e : UInt8) : Option UInt8 :=
  if e = 34 ∨ e = 92 ∨ e = 47 then some e
  else if e = 110 then some 10
  else if e = 114 then some 13
  else none

/-- A string literal is written from these pieces. Any byte but the quotation
mark and the backslash may stand for itself. -/
inductive Piece
  | plain (c : UInt8) (clean : c ≠ 34 ∧ c ≠ 92)
  | escape (e : UInt8) (known : e ∈ escapes)
  deriving DecidableEq

def Piece.render : Piece → Bytes
  | .plain c _ => [c]
  | .escape e _ => [92, e]

def Piece.value : Piece → UInt8
  | .plain c _ => c
  | .escape e _ => (escapeValue e).getD e

/-- A value as it is written. -/
inductive Literal
  | str (pieces : List Piece)
  | int (negative : Bool) (magnitude : Nat)
  deriving DecidableEq

/-- The value that is meant. -/
inductive Value
  | str (text : Bytes)
  | int (z : Int)
  deriving DecidableEq, Repr

def Literal.render : Literal → Bytes
  | .str pieces => 34 :: (pieces.flatMap Piece.render ++ [34])
  | .int negative magnitude => numeral negative magnitude

def Literal.value : Literal → Value
  | .str pieces => .str (pieces.map Piece.value)
  | .int negative magnitude => .int (numeralValue negative magnitude)

/-- The escapes a literal uses. -/
def Literal.escapesUsed : Literal → List UInt8
  | .str pieces => pieces.filterMap fun
    | .plain _ _ => none
    | .escape e _ => some e
  | .int _ _ => []

structure Member where
  key : Bytes
  clean : ∀ c ∈ key, c ≠ 34 ∧ c ≠ 92
  literal : Literal

def Member.render (m : Member) : Bytes := 34 :: (m.key ++ (34 :: 58 :: m.literal.render))

def Member.value (m : Member) : Bytes × Value := (m.key, m.literal.value)

/-- What stands after a member: the other members and the closing brace. -/
def closing : List Member → Bytes
  | [] => [125]
  | m :: ms => 44 :: (m.render ++ closing ms)

/-- The members of an object, in the order in which they are written. -/
structure Object where
  members : List Member
  distinct : (members.map (·.key)).Nodup

def Object.render (o : Object) : Bytes :=
  match o.members with
  | [] => [123, 125]
  | m :: ms => 123 :: (m.render ++ closing ms)

def Object.value (o : Object) : List (Bytes × Value) := o.members.map Member.value

/-! The parser reads a text from left to right. -/

/-- The rest of a string literal after its opening mark. -/
def parseString : Bytes → Option (Bytes × Bytes)
  | [] => none
  | [c] => if c = 34 then some ([], []) else none
  | c :: d :: rest =>
    if c = 34 then some ([], d :: rest)
    else if c = 92 then
      match escapeValue d, parseString rest with
      | some value, some (text, rest) => some (value :: text, rest)
      | _, _ => none
    else (parseString (d :: rest)).map fun (text, rest) => (c :: text, rest)

/-- Digits without a superfluous zero. -/
def parseNat (s : Bytes) : Option (Nat × Bytes) :=
  let digits := s.takeWhile isDigit
  if digits = [] ∨ (digits.head? = some 48 ∧ digits ≠ [48]) then none
  else some (digitsValue s, s.dropWhile isDigit)

def parseValue : Bytes → Option (Value × Bytes)
  | 34 :: s => (parseString s).map fun (text, rest) => (.str text, rest)
  | 45 :: s => (parseNat s).map fun (n, rest) => (.int (-n), rest)
  | s => (parseNat s).map fun (n, rest) => (.int n, rest)

/-- Members up to the closing brace, which ends the text. The fuel bounds their number. -/
def parseMembers : Nat → Bytes → Option (List (Bytes × Value))
  | fuel + 1, 34 :: s =>
    match parseString s with
    | some (key, 58 :: s) =>
      match parseValue s with
      | some (value, [125]) => some [(key, value)]
      | some (value, 44 :: s) => (parseMembers fuel s).map ((key, value) :: ·)
      | _ => none
    | _ => none
  | _, _ => none

def parse : Bytes → Option (List (Bytes × Value))
  | 123 :: s => if s = [125] then some [] else parseMembers s.length s
  | _ => none
/-! The parser accepts every text of an object and gives the meant values back. -/

theorem parseString_quote (rest : Bytes) : parseString (34 :: rest) = some ([], rest) := by
  cases rest <;> simp [parseString]

theorem parseString_plain {c : UInt8} (clean : c ≠ 34 ∧ c ≠ 92) {s text rest : Bytes}
    (later : parseString s = some (text, rest)) : parseString (c :: s) = some (c :: text, rest) := by
  cases s with
  | nil => simp [parseString] at later
  | cons d s => simp [parseString, clean.1, clean.2, later]

theorem Piece.escape_value {e : UInt8} (known : e ∈ escapes) :
    escapeValue e = some (Piece.escape e known).value := by
  have all : ∀ e ∈ escapes, escapeValue e = some ((escapeValue e).getD e) := by simp [escapes, escapeValue]
  exact all e known

theorem parseString_pieces (pieces : List Piece) (rest : Bytes) :
    parseString (pieces.flatMap Piece.render ++ 34 :: rest) = some (pieces.map Piece.value, rest) := by
  induction pieces with
  | nil => exact parseString_quote rest
  | cons p pieces ih =>
    rw [List.flatMap_cons, List.append_assoc]
    cases p with
    | plain c clean => exact parseString_plain clean ih
    | escape e known =>
      simp [Piece.render, parseString, ih, Piece.escape_value known]

theorem parseString_key {key : Bytes} (clean : ∀ c ∈ key, c ≠ 34 ∧ c ≠ 92) (rest : Bytes) :
    parseString (key ++ 34 :: rest) = some (key, rest) := by
  induction key with
  | nil => exact parseString_quote rest
  | cons c key ih =>
    exact parseString_plain (clean c (by simp)) (ih fun d inside => clean d (List.mem_cons_of_mem _ inside))

theorem decimalNat_head {n : Nat} (zero : (decimalNat n).head? = some 48) : decimalNat n = [48] := by
  unfold decimalNat at zero ⊢
  split
  · rfl
  · rename_i positive
    rw [if_neg positive] at zero
    have last := Nat.getLast_digit_ne_zero 10 positive
    have small := Nat.digits_lt_base (by norm_num : 1 < 10)
      (List.getLast_mem (Nat.digits_ne_nil_iff_ne_zero.mpr positive))
    rw [List.head?_map, List.head?_reverse, List.getLast?_eq_getLast_of_ne_nil
      (Nat.digits_ne_nil_iff_ne_zero.mpr positive), Option.map_some, Option.some.injEq] at zero
    have value := congrArg UInt8.toNat zero
    simp at value
    omega

theorem parseNat_decimalNat (n : Nat) {d : UInt8} (stop : isDigit d = false) (rest : Bytes) :
    parseNat (decimalNat n ++ d :: rest) = some (n, d :: rest) := by
  have digits := takeWhile_digits (decimalNat_digits n) stop rest
  have after : (decimalNat n ++ d :: rest).dropWhile isDigit = d :: rest := by
    have whole := List.takeWhile_append_dropWhile (p := isDigit) (l := decimalNat n ++ d :: rest)
    rw [digits] at whole
    exact List.append_cancel_left whole
  have accepted : ¬(decimalNat n = [] ∨ (decimalNat n).head? = some 48 ∧ decimalNat n ≠ [48]) := by
    rintro (empty | ⟨zero, more⟩)
    · exact decimalNat_ne_nil n empty
    · exact more (decimalNat_head zero)
  simp only [parseNat, digits, after, if_neg accepted, digitsValue_decimalNat n stop]

theorem parseValue_digits {s : Bytes} (notQuote : s.head? ≠ some 34) (notMinus : s.head? ≠ some 45) :
    parseValue s = (parseNat s).map fun (n, rest) => (.int n, rest) := by
  unfold parseValue
  split
  · exact absurd rfl notQuote
  · exact absurd rfl notMinus
  · rfl

theorem parseValue_literal (l : Literal) {d : UInt8} (stop : isDigit d = false) (rest : Bytes) :
    parseValue (l.render ++ d :: rest) = some (l.value, d :: rest) := by
  cases l with
  | str pieces =>
    have text := parseString_pieces pieces (d :: rest)
    simp only [Literal.render, List.cons_append, List.append_assoc, List.nil_append, parseValue, text,
      Option.map_some, Literal.value]
  | int negative magnitude =>
    have number := parseNat_decimalNat magnitude stop rest
    cases negative with
    | true =>
      simp only [Literal.render, numeral, if_true, List.cons_append, parseValue, number, Option.map_some,
        Literal.value, numeralValue]
    | false =>
      have first : ∀ c, c < 48 → (decimalNat magnitude ++ d :: rest).head? ≠ some c := by
        intro c below same
        rw [List.head?_append_of_ne_nil _ (decimalNat_ne_nil magnitude)] at same
        have bounds := decimalNat_digits magnitude c (List.mem_of_mem_head? same)
        exact absurd bounds.1 (UInt8.not_le.mpr below)
      simp only [Literal.render, numeral, Bool.false_eq_true, if_false, Literal.value, numeralValue]
      rw [parseValue_digits (first 34 (by decide)) (first 45 (by decide)), number, Option.map_some]

/-- A member is followed by a comma or by the closing brace. -/
theorem closing_shape (ms : List Member) : ∃ d rest, closing ms = d :: rest ∧ (d = 44 ∨ d = 125) := by
  cases ms with
  | nil => exact ⟨125, [], rfl, Or.inr rfl⟩
  | cons m ms => exact ⟨44, m.render ++ closing ms, rfl, Or.inl rfl⟩

theorem parseMembers_render (m : Member) (ms : List Member) {fuel : Nat} (enough : ms.length < fuel) :
    parseMembers fuel (m.render ++ closing ms) = some ((m :: ms).map Member.value) := by
  induction ms generalizing m fuel with
  | nil =>
    obtain ⟨fuel, rfl⟩ := Nat.exists_eq_succ_of_ne_zero (Nat.ne_of_gt enough)
    have key := parseString_key m.clean (58 :: (m.literal.render ++ [125]))
    have value := parseValue_literal m.literal (d := 125) (by decide) []
    simp [Member.render, closing, parseMembers, key, value, Member.value]
  | cons next ms ih =>
    obtain ⟨fuel, rfl⟩ := Nat.exists_eq_succ_of_ne_zero (Nat.ne_of_gt (Nat.zero_lt_of_lt enough))
    have key := parseString_key m.clean (58 :: (m.literal.render ++ 44 :: (next.render ++ closing ms)))
    have value := parseValue_literal m.literal (d := 44) (by decide) (next.render ++ closing ms)
    have shorter : ms.length < fuel := by simpa using enough
    have later := ih next shorter
    simp only [Member.render, List.cons_append, List.append_assoc] at key value later ⊢
    simp only [closing, parseMembers, key, value, later, Member.render, List.cons_append, List.append_assoc]
    rfl

theorem length_closing (ms : List Member) : ms.length < (closing ms).length := by
  induction ms with
  | nil => decide
  | cons m ms ih =>
    simp only [closing, List.length_cons, List.length_append]
    omega

theorem parse_render (o : Object) : parse o.render = some o.value := by
  obtain ⟨ms, distinct⟩ := o
  cases ms with
  | nil => rfl
  | cons m ms =>
    have size := length_closing ms
    have enough : ms.length < (m.render ++ closing ms).length := by
      simp only [List.length_append]
      omega
    have members := parseMembers_render m ms enough
    have more : m.render ++ closing ms ≠ [125] := by simp [Member.render]
    simp only [Object.render, Object.value, parse, if_neg more, members]

/-! A search for a key in the text of an object. -/

theorem Piece.escaped (pieces : List Piece) : Escaped (pieces.flatMap Piece.render) := by
  induction pieces with
  | nil => exact .nil
  | cons p pieces ih =>
    cases p with
    | plain c clean => exact .plain clean.1 clean.2 ih
    | escape e known => exact .pair ih

/-- A value is passed over by the search for a key. -/
theorem passes_literal {key : Bytes} (search : SearchKey key) (l : Literal) {d : UInt8}
    (separator : d = 44 ∨ d = 125) (value rest : Bytes) :
    Passes (keyPattern key value) l.render (d :: rest) := by
  cases l with
  | str pieces => exact search.passes_quoted (Piece.escaped pieces) separator value rest
  | int negative magnitude => exact .of_head (numeral_excludes (by decide) _ _) _

/-- The text that follows the name and the colon of a member. -/
def valueText (key : Bytes) : List Member → Option Bytes
  | [] => none
  | m :: ms => if key = m.key then some (m.literal.render ++ closing ms) else valueText key ms

/-- A member of a compact object has nothing before its name. -/
def Member.field (m : Member) : Field where
  lead := []
  unmarked := List.not_mem_nil
  key := m.key
  clean := m.clean
  text := m.literal.render
  passes _ search _ separator value rest := passes_literal search m.literal separator value rest

theorem closing_eq_fieldsEnd (ms : List Member) : closing ms = fieldsEnd (ms.map Member.field) := by
  induction ms with
  | nil => rfl
  | cons m ms ih =>
    rw [closing, ih]
    rfl

theorem Object.render_eq_fieldsText (o : Object) : o.render = fieldsText (o.members.map Member.field) := by
  obtain ⟨ms, distinct⟩ := o
  cases ms with
  | nil => rfl
  | cons m ms =>
    simp only [Object.render, closing_eq_fieldsEnd]
    rfl

theorem valueText_eq_fieldText (key : Bytes) (ms : List Member) :
    valueText key ms = fieldText key (ms.map Member.field) := by
  induction ms with
  | nil => rfl
  | cons m ms ih =>
    rw [valueText, ih, closing_eq_fieldsEnd]
    rfl

/-- In the text of an object a pattern is found at the member with that name
and nowhere else. -/
theorem Object.after_render {key : Bytes} (search : SearchKey key) (value : Bytes) (o : Object) :
    after (keyPattern key value) o.render = (valueText key o.members).bind (beyond value) := by
  have distinct : ((o.members.map Member.field).map (·.key)).Nodup := by
    rw [List.map_map]
    exact o.distinct
  rw [o.render_eq_fieldsText, valueText_eq_fieldText, after_fieldsText search value distinct]

/-- A member is absent for the search exactly when it is absent for the
parser; otherwise both see the same literal. -/
theorem valueText_cases (key : Bytes) (ms : List Member) :
    (valueText key ms = none ∧ (ms.map Member.value).lookup key = none) ∨
      ∃ m ∈ ms, ∃ d rest, m.key = key ∧ (d = 44 ∨ d = 125) ∧
        valueText key ms = some (m.literal.render ++ d :: rest) ∧
        (ms.map Member.value).lookup key = some m.literal.value := by
  induction ms with
  | nil => exact Or.inl ⟨rfl, rfl⟩
  | cons m ms ih =>
    by_cases named : key = m.key
    · obtain ⟨d, rest, shape, separator⟩ := closing_shape ms
      refine Or.inr ⟨m, by simp, d, rest, named.symm, separator, ?_, ?_⟩
      · rw [valueText, if_pos named, shape]
      · simp [Member.value, named]
    · have other : (key == m.key) = false := beq_false_of_ne named
      rw [valueText, if_neg named]
      rcases ih with ⟨noText, noValue⟩ | ⟨found, inside, d, rest, name, separator, text, value⟩
      · exact Or.inl ⟨noText, by simp [Member.value, List.lookup_cons, other, noValue]⟩
      · exact Or.inr ⟨found, List.mem_cons_of_mem _ inside, d, rest, name, separator, text,
          by simp [Member.value, List.lookup_cons, other, value]⟩

/-! How a value begins. -/

/-- A numeral begins with neither a mark nor a blank. -/
theorem numeral_not_isPrefixOf {p : UInt8} (below : p < 45) (pat : Bytes) (negative : Bool) (magnitude : Nat)
    (rest : Bytes) : (p :: pat).isPrefixOf (numeral negative magnitude ++ rest) = false := by
  cases shape : numeral negative magnitude with
  | nil => exact absurd shape (numeral_ne_nil _ _)
  | cons c tail =>
    refine not_isPrefixOf_of_head ?_ _ _
    rintro rfl
    exact numeral_excludes below negative magnitude (by rw [shape]; exact List.mem_cons_self)

theorem beyond_mark (l : Literal) (rest : Bytes) :
    beyond [34] (l.render ++ rest) =
      match l with
      | .str pieces => some (pieces.flatMap Piece.render ++ 34 :: rest)
      | .int _ _ => none := by
  cases l with
  | str pieces => simp [beyond, Literal.render]
  | int negative magnitude =>
    rw [beyond, Literal.render, if_neg (by rw [numeral_not_isPrefixOf (by decide)]; decide)]

theorem beyond_blank (l : Literal) (pat rest : Bytes) : beyond (32 :: pat) (l.render ++ rest) = none := by
  cases l with
  | str pieces =>
    have different := not_isPrefixOf_of_head (by decide : (32 : UInt8) ≠ 34) pat
      (pieces.flatMap Piece.render ++ [34] ++ rest)
    rw [beyond, Literal.render, List.cons_append, if_neg (by rw [different]; decide)]
  | int negative magnitude =>
    rw [beyond, Literal.render, if_neg (by rw [numeral_not_isPrefixOf (by decide)]; decide)]

/-- A word no byte of which can be written with a backslash. -/
def Word (w : Bytes) : Prop := ∀ c ∈ w, c ∉ ([34, 92, 47, 10, 13] : Bytes)

theorem Word.of_all {w : Bytes} (all : w.all fun c => !([34, 92, 47, 10, 13] : Bytes).contains c) : Word w := by
  intro c inside
  simpa using List.all_eq_true.mp all c inside

/-- Such a word is written in one way only. -/
theorem isPrefixOf_pieces {w : Bytes} (word : Word w) (pieces : List Piece) (rest : Bytes) :
    (w ++ [34]).isPrefixOf (pieces.flatMap Piece.render ++ 34 :: rest) =
      decide (pieces.map Piece.value = w) := by
  induction w generalizing pieces with
  | nil =>
    cases pieces with
    | nil => simp
    | cons p pieces =>
      cases p with
      | plain c clean =>
        have different := not_isPrefixOf_of_head (Ne.symm clean.1) [] (pieces.flatMap Piece.render ++ 34 :: rest)
        simpa [Piece.render] using different
      | escape e known =>
        have different := not_isPrefixOf_of_head (by decide : (34 : UInt8) ≠ 92) []
          (e :: (pieces.flatMap Piece.render ++ 34 :: rest))
        simpa [Piece.render] using different
  | cons c w ih =>
    have here := word c (by simp)
    have tail := ih fun d inside => word d (List.mem_cons_of_mem _ inside)
    cases pieces with
    | nil =>
      have different := not_isPrefixOf_of_head (p := c) (c := 34) (by rintro rfl; simp at here) (w ++ [34]) rest
      simpa using different
    | cons p pieces =>
      cases p with
      | plain b clean =>
        have first : (c == b) = decide (b = c) := by
          rw [Bool.eq_iff_iff, beq_iff_eq, decide_eq_true_iff, eq_comm]
        simp only [List.flatMap_cons, Piece.render, List.nil_append, List.cons_append,
          List.isPrefixOf_cons_cons, tail, List.map_cons, Piece.value, List.cons.injEq, Bool.decide_and, first]
      | escape e known =>
        have different := not_isPrefixOf_of_head (p := c) (c := 92) (by rintro rfl; simp at here) (w ++ [34])
          (e :: (pieces.flatMap Piece.render ++ 34 :: rest))
        have values : ∀ e ∈ escapes, (escapeValue e).getD e ∈ ([34, 92, 47, 10, 13] : Bytes) := by
          simp [escapes, escapeValue]
        have other : (Piece.escape e known).value ≠ c := fun same => here (same ▸ values e known)
        simpa [Piece.render, other] using different

theorem beyond_word {w : Bytes} (word : Word w) (l : Literal) (rest : Bytes) :
    (beyond (34 :: (w ++ [34])) (l.render ++ rest)).isSome = decide (l.value = .str w) := by
  cases l with
  | str pieces =>
    have text := isPrefixOf_pieces word pieces rest
    simp only [beyond, Literal.render, List.cons_append, List.append_assoc, List.nil_append,
      List.isPrefixOf_cons_cons, beq_self_eq_true, Bool.true_and, text, Literal.value, Value.str.injEq]
    by_cases same : pieces.map Piece.value = w <;> simp [same]
  | int negative magnitude =>
    rw [beyond, Literal.render, if_neg (by rw [numeral_not_isPrefixOf (by decide)]; decide)]
    simp [Literal.value]

end FlatJson
