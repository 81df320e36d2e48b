import WebRtcDemo.Lib.QuotedText

/-! The search for a quoted key in the text of a flat object, whatever the form
of its values and the blanks between its members. -/

namespace FlatJson
open ByteText

/-- A key to search for. It does not begin with one of the bytes that stand
after a quotation mark that ends a name or a value. -/
structure SearchKey (key : Bytes) : Prop extends CleanKey key where
  apart : ∀ d ∈ ([44, 58, 125] : Bytes), key.head? ≠ some d

/-- A search key that is a literal of the source. -/
theorem searchKey {key : Bytes} (nonempty : key ≠ []) (clean : key.all fun c => c != 34 && c != 92)
    (apart : ([44, 58, 125] : Bytes).all fun d => key.head? != some d) : SearchKey key where
  nonempty := nonempty
  clean c inside := by simpa using List.all_eq_true.mp clean c inside
  apart d mark := by simpa using List.all_eq_true.mp apart d mark

/-- A quoted value, with a separator after it, is passed over by the search for a key. -/
theorem SearchKey.passes_quoted {key body : Bytes} (search : SearchKey key) (escaped : Escaped body) {d : UInt8}
    (separator : d = 44 ∨ d = 125) (value rest : Bytes) :
    Passes (keyPattern key value) (34 :: (body ++ [34])) (d :: rest) := by
  have notColon : d ≠ 58 := by rcases separator with rfl | rfl <;> decide
  have apart : key.head? ≠ some d := search.apart d (by rcases separator with rfl | rfl <;> simp)
  exact .of_quoted escaped search.toCleanKey notColon apart value rest

/-- A member as it is written: what stands before its name, and the text of its
value, which the search for a key passes over. -/
structure Field where
  lead : Bytes
  unmarked : 34 ∉ lead
  key : Bytes
  clean : ∀ c ∈ key, c ≠ 34 ∧ c ≠ 92
  text : Bytes
  passes : ∀ key, SearchKey key → ∀ d, d = 44 ∨ d = 125 → ∀ value rest, Passes (keyPattern key value) text (d :: rest)

def Field.render (f : Field) : Bytes := 34 :: (f.key ++ (34 :: 58 :: f.text))

/-- What stands after a member: the other members and the closing brace. -/
def fieldsEnd : List Field → Bytes
  | [] => [125]
  | f :: fs => 44 :: (f.lead ++ (f.render ++ fieldsEnd fs))

def fieldsText : List Field → Bytes
  | [] => [123, 125]
  | f :: fs => 123 :: (f.lead ++ (f.render ++ fieldsEnd fs))

/-- The text that follows the name and the colon of a member. -/
def fieldText (key : Bytes) : List Field → Option Bytes
  | [] => none
  | f :: fs => if key = f.key then some (f.text ++ fieldsEnd fs) else fieldText key fs

/-- What a text continues with after a given beginning. -/
def beyond (beginning s : Bytes) : Option Bytes :=
  if beginning.isPrefixOf s then some (s.drop beginning.length) else none

/-- A member is followed by a comma or by the closing brace. -/
theorem fieldsEnd_shape (fs : List Field) : ∃ d rest, fieldsEnd fs = d :: rest ∧ (d = 44 ∨ d = 125) := by
  cases fs with
  | nil => exact ⟨125, [], rfl, Or.inr rfl⟩
  | cons f fs => exact ⟨44, f.lead ++ (f.render ++ fieldsEnd fs), rfl, Or.inl rfl⟩

/-- Two keys that are followed by their closing marks are told apart. -/
theorem isPrefixOf_key {key other : Bytes} (clean : ∀ c ∈ key, c ≠ 34 ∧ c ≠ 92)
    (otherClean : ∀ c ∈ other, c ≠ 34 ∧ c ≠ 92) (pat rest : Bytes) :
    (key ++ 34 :: pat).isPrefixOf (other ++ 34 :: rest) = (decide (key = other) && pat.isPrefixOf rest) := by
  induction key generalizing other with
  | nil =>
    cases other with
    | nil => simp
    | cons c other =>
      have different := not_isPrefixOf_of_head (Ne.symm (otherClean c (by simp)).1) pat (other ++ 34 :: rest)
      simpa using different
  | cons k key ih =>
    cases other with
    | nil =>
      have different := not_isPrefixOf_of_head (clean k (by simp)).1 (key ++ 34 :: pat) rest
      simpa using different
    | cons c other =>
      have tail := ih (fun d inside => clean d (List.mem_cons_of_mem _ inside))
        (fun d inside => otherClean d (List.mem_cons_of_mem _ inside))
      simp only [List.cons_append, List.isPrefixOf_cons_cons, tail, List.cons.injEq, Bool.decide_and,
        Bool.and_assoc]
      rfl

/-- A name's opening mark starts the pattern only if it is the name searched for. -/
theorem isPrefixOf_field {key : Bytes} (search : SearchKey key) (f : Field) (value rest : Bytes) :
    (keyPattern key value).isPrefixOf (f.render ++ rest) =
      (decide (key = f.key) && value.isPrefixOf (f.text ++ rest)) := by
  have names := isPrefixOf_key search.clean f.clean (58 :: value) (58 :: (f.text ++ rest))
  simp only [keyPattern, Field.render, List.cons_append, List.append_assoc, List.isPrefixOf_cons_cons,
    beq_self_eq_true, Bool.true_and] at names ⊢
  exact names

/-- Behind its opening mark no pattern starts inside a member. -/
theorem passes_field {key : Bytes} (search : SearchKey key) (f : Field) {d : UInt8} (separator : d = 44 ∨ d = 125)
    (value rest : Bytes) :
    Passes (keyPattern key value) (f.key ++ ([34] ++ ([58] ++ f.text))) (d :: rest) := by
  have name : Passes (keyPattern key value) f.key ([34] ++ ([58] ++ f.text) ++ d :: rest) :=
    .of_head (fun inside => (f.clean _ inside).1 rfl) _
  have mark : Passes (keyPattern key value) [34] ([58] ++ f.text ++ d :: rest) := by
    refine .of_not_isPrefixOf ?_
    cases key with
    | nil => exact absurd rfl search.nonempty
    | cons k key =>
      have different : k ≠ 58 := fun same => search.apart 58 (by simp) (by simp [same])
      have second := not_isPrefixOf_of_head different (key ++ 34 :: 58 :: value) (f.text ++ d :: rest)
      simpa [keyPattern] using second
  have colon : Passes (keyPattern key value) [58] (f.text ++ d :: rest) := .of_head (by decide) _
  exact name.append (mark.append (colon.append (f.passes key search d separator value rest)))

theorem fieldText_eq_none {key : Bytes} {fs : List Field} (absent : key ∉ fs.map (·.key)) :
    fieldText key fs = none := by
  induction fs with
  | nil => rfl
  | cons f fs ih =>
    simp only [List.map_cons, List.mem_cons, not_or] at absent
    rw [fieldText, if_neg absent.1, ih absent.2]

/-- The search sees a member only through its own name. -/
theorem after_field {key : Bytes} (search : SearchKey key) (value : Bytes) {f : Field} {fs : List Field}
    (fresh : f.key ∉ fs.map (·.key))
    (later : after (keyPattern key value) (fieldsEnd fs) = (fieldText key fs).bind (beyond value)) :
    after (keyPattern key value) (f.lead ++ (f.render ++ fieldsEnd fs)) =
      (fieldText key (f :: fs)).bind (beyond value) := by
  have opening := isPrefixOf_field search f value (fieldsEnd fs)
  obtain ⟨d, rest, shape, separator⟩ := fieldsEnd_shape fs
  have inner := passes_field search f separator value rest
  rw [← shape] at inner
  have skip (no : (keyPattern key value).isPrefixOf (f.render ++ fieldsEnd fs) = false) :
      after (keyPattern key value) (f.render ++ fieldsEnd fs) = after (keyPattern key value) (fieldsEnd fs) := by
    have first : Passes (keyPattern key value) [34] (f.key ++ ([34] ++ ([58] ++ f.text)) ++ fieldsEnd fs) :=
      .of_not_isPrefixOf (by simpa [Field.render] using no)
    have whole := (first.append inner).after_eq
    simpa [Field.render] using whole
  have lead : Passes (keyPattern key value) f.lead (f.render ++ fieldsEnd fs) := .of_head f.unmarked _
  rw [lead.after_eq]
  by_cases named : key = f.key
  · rw [fieldText, if_pos named, Option.bind_some, beyond]
    cases found : value.isPrefixOf (f.text ++ fieldsEnd fs) with
    | false =>
      rw [skip (by rw [opening, found, Bool.and_false]), later, fieldText_eq_none (named ▸ fresh)]
      rfl
    | true =>
      obtain ⟨tail, split⟩ := List.isPrefixOf_iff_prefix.mp found
      have text : f.render ++ fieldsEnd fs = keyPattern key value ++ tail := by
        simp only [Field.render, List.cons_append, List.append_assoc, ← split, keyPattern, named]
      have more : (f.text ++ fieldsEnd fs).drop value.length = tail := by
        rw [← split, List.drop_left]
      rw [text, after_self (by simp [keyPattern]), if_pos rfl, more]
  · rw [fieldText, if_neg named, skip (by rw [opening, decide_eq_false named, Bool.false_and]), later]

theorem after_fieldsEnd {key : Bytes} (search : SearchKey key) (value : Bytes) {fs : List Field}
    (distinct : (fs.map (·.key)).Nodup) :
    after (keyPattern key value) (fieldsEnd fs) = (fieldText key fs).bind (beyond value) := by
  induction fs with
  | nil => simp [fieldsEnd, fieldText, after, find, keyPattern]
  | cons f fs ih =>
    rw [List.map_cons, List.nodup_cons] at distinct
    have comma : Passes (keyPattern key value) [44] (f.lead ++ (f.render ++ fieldsEnd fs)) := .of_head (by decide) _
    rw [fieldsEnd, ← List.singleton_append, comma.after_eq]
    exact after_field search value distinct.1 (ih distinct.2)

/-- In the text of an object a pattern is found at the member with that name
and nowhere else. -/
theorem after_fieldsText {key : Bytes} (search : SearchKey key) (value : Bytes) {fs : List Field}
    (distinct : (fs.map (·.key)).Nodup) :
    after (keyPattern key value) (fieldsText fs) = (fieldText key fs).bind (beyond value) := by
  cases fs with
  | nil => simp [fieldsText, fieldText, after, find, keyPattern]
  | cons f fs =>
    obtain ⟨fresh, others⟩ := List.nodup_cons.mp distinct
    have brace : Passes (keyPattern key value) [123] (f.lead ++ (f.render ++ fieldsEnd fs)) := .of_head (by decide) _
    exact brace.after_eq.trans (after_field search value fresh (after_fieldsEnd search value others))

end FlatJson
