import WebRtcDemo.Lib.ByteText

namespace ByteText

/-- The inside of a quoted string: every quotation mark and every backslash
is the second byte of a backslash pair. -/
inductive Escaped : Bytes → Prop
  | nil : Escaped []
  | plain {c s} : c ≠ 34 → c ≠ 92 → Escaped s → Escaped (c :: s)
  | pair {c s} : Escaped s → Escaped (92 :: c :: s)

theorem Escaped.append {s t : Bytes} (first : Escaped s) (second : Escaped t) : Escaped (s ++ t) := by
  induction first with
  | nil => exact second
  | plain notQuote notSlash _ ih => exact .plain notQuote notSlash ih
  | pair _ ih => exact .pair ih

theorem Escaped.of_plain {s : Bytes} (clean : ∀ c ∈ s, c ≠ 34 ∧ c ≠ 92) : Escaped s := by
  induction s with
  | nil => exact .nil
  | cons c s ih =>
    have here := clean c (by simp)
    exact .plain here.1 here.2 (ih fun d inside => clean d (List.mem_cons_of_mem _ inside))

/-- A search pattern for a member name: the quoted key, a colon, and possibly
the beginning of the value. -/
def keyPattern (key value : Bytes) : Bytes := 34 :: (key ++ 34 :: 58 :: value)

/-- A clash with the key alone is a clash, whatever value is asked for. -/
theorem clash_keyPattern {key s : Bytes} (apart : clash (keyPattern key []) s = true) (value : Bytes) :
    clash (keyPattern key value) s = true := by
  have extend : ∀ pat s : Bytes, clash pat s = true → clash (pat ++ value) s = true := by
    intro pat
    induction pat with
    | nil => simp [clash]
    | cons p pat ih =>
      intro s
      cases s with
      | nil => simp [clash]
      | cons c s =>
        simp only [List.cons_append, clash, Bool.or_eq_true]
        exact Or.imp_right (ih s)
  simpa [keyPattern] using extend _ s apart

/-- A member name as it may be searched for: not empty, and without the two
bytes that need an escape. -/
structure CleanKey (key : Bytes) : Prop where
  nonempty : key ≠ []
  clean : ∀ c ∈ key, c ≠ 34 ∧ c ≠ 92

/-- After an opening quotation mark a key cannot be completed from inside an
escaped body: the next unescaped mark closes the body, and no colon follows it. -/
theorem Escaped.key_unfinished {body key : Bytes} (escaped : Escaped body)
    (clean : ∀ c ∈ key, c ≠ 34 ∧ c ≠ 92) {d : UInt8} (notColon : d ≠ 58) (value rest : Bytes) :
    (key ++ 34 :: 58 :: value).isPrefixOf (body ++ 34 :: d :: rest) = false := by
  induction escaped generalizing key with
  | nil =>
    cases key with
    | nil =>
      simp only [List.nil_append, List.isPrefixOf_cons_cons, beq_self_eq_true, Bool.true_and,
        beq_false_of_ne (Ne.symm notColon), Bool.false_and]
    | cons k key => exact not_isPrefixOf_of_head (clean k (by simp)).1 _ _
  | @plain c s notQuote _ _ ih =>
    cases key with
    | nil => exact not_isPrefixOf_of_head (Ne.symm notQuote) _ _
    | cons k key =>
      have tail := @ih key fun x inside => clean x (List.mem_cons_of_mem _ inside)
      simp only [List.cons_append, List.isPrefixOf_cons_cons, tail, Bool.and_false]
  | @pair c s _ ih =>
    cases key with
    | nil => exact not_isPrefixOf_of_head (by decide) _ _
    | cons k key => exact not_isPrefixOf_of_head (clean k (by simp)).2 _ _

/-- No key pattern starts inside an escaped body. -/
theorem Escaped.passes_body {body key : Bytes} (escaped : Escaped body) (clean : CleanKey key)
    {d : UInt8} (notColon : d ≠ 58) (value rest : Bytes) :
    Passes (keyPattern key value) body (34 :: d :: rest) := by
  induction escaped with
  | nil => exact .nil _ _
  | @plain c s notQuote _ _ ih =>
    have step := not_isPrefixOf_of_head (Ne.symm notQuote) (key ++ 34 :: 58 :: value) (s ++ 34 :: d :: rest)
    unfold Passes keyPattern at ih ⊢
    simp only [List.cons_append, find, step, Bool.false_eq_true, if_false, ih, Option.map_map]
    rfl
  | @pair c s inner ih =>
    have stop := inner.key_unfinished clean.clean notColon value rest
    unfold Passes keyPattern at ih ⊢
    simp only [List.cons_append, find, List.isPrefixOf_cons_cons, stop, Bool.and_false,
      Bool.false_eq_true, if_false, ih, Option.map_map,
      show ((34 : UInt8) == 92) = false by decide, Bool.false_and]
    rfl

/-- A quoted string that is a value, one with no colon after it, is passed
over as a whole by the search for a key. -/
theorem Passes.of_quoted {body key : Bytes} (escaped : Escaped body) (clean : CleanKey key)
    {d : UInt8} (notColon : d ≠ 58) (apart : key.head? ≠ some d) (value rest : Bytes) :
    Passes (keyPattern key value) (34 :: (body ++ [34])) (d :: rest) := by
  have opening := escaped.key_unfinished clean.clean notColon value rest
  have inside := escaped.passes_body clean notColon value rest
  have closing : (keyPattern key value).isPrefixOf (34 :: d :: rest) = false := by
    cases key with
    | nil => exact absurd rfl clean.nonempty
    | cons k key =>
      have different : k ≠ d := fun same => apart (by simp [same])
      have second := not_isPrefixOf_of_head different (key ++ 34 :: 58 :: value) rest
      simp only [keyPattern, List.cons_append, List.isPrefixOf_cons_cons] at second ⊢
      rw [second, Bool.and_false]
  have skip : find (keyPattern key value) (34 :: (body ++ 34 :: d :: rest)) =
      (find (keyPattern key value) (body ++ 34 :: d :: rest)).map (· + 1) := by
    unfold keyPattern at opening ⊢
    simp only [find, List.isPrefixOf_cons_cons, opening, Bool.and_false, Bool.false_eq_true, if_false]
  unfold Passes at inside ⊢
  rw [List.cons_append, List.append_assoc, List.singleton_append, skip, inside, find, closing]
  simp only [Bool.false_eq_true, if_false, Option.map_map, List.length_cons, List.length_append,
    List.length_nil]
  congr 1
  funext p
  simp only [Function.comp_apply]
  omega

end ByteText
