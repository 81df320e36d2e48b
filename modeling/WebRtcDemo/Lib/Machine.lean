import Mathlib.Tactic

universe u v w

/-- A reactive component. An event either cannot happen now, or it leads to
one next state and to the outputs made on the way. The environment's choices
are part of the event. -/
structure Machine (σ : Type u) (ε : Type v) (ο : Type w) where
  init : σ
  step : σ → ε → Option (σ × List ο)

namespace Machine

variable {σ : Type u} {ε : Type v} {ο : Type w} (M : Machine σ ε ο)

/-- Execution of a list of events, with the outputs in the order they were made. -/
def exec : σ → List ε → Option (σ × List ο)
  | s, [] => some (s, [])
  | s, e :: es =>
    match M.step s e with
    | none => none
    | some (t, out) =>
      match exec t es with
      | none => none
      | some (u, rest) => some (u, out ++ rest)

/-- Every step of the execution is taken in a state that meets the condition. -/
def Meets (ok : σ → ε → Prop) : σ → List ε → Prop
  | _, [] => True
  | s, e :: es =>
    ok s e ∧
      match M.step s e with
      | none => True
      | some (t, _) => Meets ok t es

/-- Every state of the execution, the first one included, has the property. -/
def Along (P : σ → Prop) : σ → List ε → Prop
  | s, [] => P s
  | s, e :: es =>
    P s ∧
      match M.step s e with
      | none => True
      | some (t, _) => Along P t es

instance decidableMeets (ok : σ → ε → Prop) [∀ s e, Decidable (ok s e)] :
    ∀ s es, Decidable (M.Meets ok s es)
  | _, [] => isTrue trivial
  | s, e :: es =>
    match atStep : M.step s e with
    | none => decidable_of_iff (ok s e) (by simp [Meets, atStep])
    | some (t, _) =>
      have := decidableMeets ok t es
      decidable_of_iff (ok s e ∧ M.Meets ok t es) (by simp [Meets, atStep])

/-- Runs from the start state all of whose steps meet the condition, with
everything that was output so far. -/
inductive Reach (ok : σ → ε → Prop) : σ → List ο → Prop
  | start : Reach ok M.init []
  | next {s t e log out} : Reach ok s log → ok s e → M.step s e = some (t, out) →
      Reach ok t (log ++ out)

/-- The condition that every step meets. -/
abbrev Always : σ → ε → Prop := fun _ _ => True

variable {M}

/-- What holds at the start and is kept by every admitted step holds in every
state reached, together with the outputs made so far. -/
theorem Reach.invariant {ok : σ → ε → Prop} {P : σ → List ο → Prop}
    (initial : P M.init [])
    (preserved : ∀ s log e t out, P s log → ok s e → M.step s e = some (t, out) → P t (log ++ out))
    {s : σ} {log : List ο} (reach : M.Reach ok s log) : P s log := by
  induction reach with
  | start => exact initial
  | next _ admitted run ih => exact preserved _ _ _ _ _ ih admitted run

theorem exec_cons {s t : σ} {e : ε} {es : List ε} {log : List ο}
    (run : M.exec s (e :: es) = some (t, log)) :
    ∃ middle out rest, M.step s e = some (middle, out) ∧ M.exec middle es = some (t, rest) ∧
      log = out ++ rest := by
  unfold exec at run
  split at run
  · cases run
  · rename_i middle out first
    split at run
    · cases run
    · rename_i last rest later
      cases run
      exact ⟨middle, out, rest, first, later, rfl⟩

theorem exec_snoc {s w t : σ} {e : ε} {es : List ε} {log out : List ο}
    (run : M.exec s es = some (w, log)) (last : M.step w e = some (t, out)) :
    M.exec s (es ++ [e]) = some (t, log ++ out) := by
  induction es generalizing s log with
  | nil =>
    cases run
    simp [exec, last]
  | cons first es ih =>
    obtain ⟨middle, made, rest, start, later, rfl⟩ := exec_cons run
    rw [List.cons_append, exec, start]
    simp only [ih later, List.append_assoc]

theorem Meets.cons {ok : σ → ε → Prop} {s t : σ} {e : ε} {es : List ε} {out : List ο}
    (run : M.step s e = some (t, out)) :
    M.Meets ok s (e :: es) ↔ ok s e ∧ M.Meets ok t es := by
  simp only [Meets, run]

theorem Along.cons {P : σ → Prop} {s t : σ} {e : ε} {es : List ε} {out : List ο}
    (run : M.step s e = some (t, out)) :
    M.Along P s (e :: es) ↔ P s ∧ M.Along P t es := by
  simp only [Along, run]

theorem Along.first {P : σ → Prop} {s : σ} {es : List ε} (along : M.Along P s es) : P s := by
  cases es with
  | nil => exact along
  | cons => exact along.1

theorem Along.last {P : σ → Prop} {s t : σ} {es : List ε} {log : List ο} (along : M.Along P s es)
    (run : M.exec s es = some (t, log)) : P t := by
  induction es generalizing s log with
  | nil =>
    cases run
    exact along
  | cons e es ih =>
    obtain ⟨middle, out, rest, first, later, rfl⟩ := exec_cons run
    exact ih ((Along.cons first).mp along).2 later

/-- Executions continue runs: this is how a concrete list of events becomes a
run of the relation. -/
theorem Reach.exec {ok : σ → ε → Prop} {s t : σ} {before after : List ο} {es : List ε}
    (reach : M.Reach ok s before) (admitted : M.Meets ok s es)
    (run : M.exec s es = some (t, after)) : M.Reach ok t (before ++ after) := by
  induction es generalizing s before after with
  | nil =>
    cases run
    rw [List.append_nil]
    exact reach
  | cons e es ih =>
    obtain ⟨middle, out, rest, first, later, rfl⟩ := exec_cons run
    obtain ⟨here, there⟩ := (Meets.cons first).mp admitted
    rw [← List.append_assoc]
    exact ih (.next reach here first) there later

theorem Reach.ofExec (ok : σ → ε → Prop) (es : List ε) {t : σ} {log : List ο}
    (run : M.exec M.init es = some (t, log)) (admitted : M.Meets ok M.init es) :
    M.Reach ok t log :=
  Reach.start.exec admitted run

theorem meets_always (s : σ) (es : List ε) : M.Meets Always s es := by
  induction es generalizing s with
  | nil => trivial
  | cons e es ih =>
    refine ⟨trivial, ?_⟩
    split
    · trivial
    · exact ih _

/-- A condition on the events alone. -/
theorem meets_of_forall {ok : σ → ε → Prop} (s : σ) {es : List ε} (all : ∀ e ∈ es, ∀ s, ok s e) : M.Meets ok s es := by
  induction es generalizing s with
  | nil => trivial
  | cons e es ih =>
    obtain ⟨first, rest⟩ := List.forall_mem_cons.mp all
    refine ⟨first s, ?_⟩
    split
    · trivial
    · exact ih _ rest

/-- What is kept by the steps taken in states with property `Q` holds at the
end of an execution through such states. -/
theorem Along.invariant {Q : σ → Prop} {P : σ → List ο → Prop}
    (preserved : ∀ s log e t out, P s log → Q s → M.step s e = some (t, out) → P t (log ++ out))
    {s t : σ} {before after : List ο} {es : List ε} (held : P s before) (along : M.Along Q s es)
    (run : M.exec s es = some (t, after)) : P t (before ++ after) := by
  induction es generalizing s before after with
  | nil =>
    cases run
    rw [List.append_nil]
    exact held
  | cons e es ih =>
    obtain ⟨middle, out, rest, first, later, rfl⟩ := exec_cons run
    obtain ⟨here, there⟩ := (Along.cons first).mp along
    rw [← List.append_assoc]
    exact ih (preserved _ _ _ _ _ held here first) there later

theorem along_true (s : σ) (es : List ε) : M.Along (fun _ => True) s es := by
  induction es generalizing s with
  | nil => trivial
  | cons e es ih =>
    refine ⟨trivial, ?_⟩
    split
    · trivial
    · exact ih _

/-- An invariant that is kept exactly by the steps that meet a condition: what
it gives for the states and what the condition gives for the steps hold all
along an execution exactly when all its steps meet the condition. -/
theorem along_and_meets_iff {I P : σ → Prop} {ok Q : σ → ε → Prop}
    (gives : ∀ s, I s → P s)
    (kept : ∀ s e t out, I s → ok s e → M.step s e = some (t, out) → I t)
    (means : ∀ s e, I s → ok s e → Q s e)
    (needed : ∀ s e t out, I s → M.step s e = some (t, out) → P t → Q s e → ok s e)
    (blocked : ∀ s e, I s → M.step s e = none → Q s e → ok s e)
    {s : σ} (held : I s) (es : List ε) : M.Along P s es ∧ M.Meets Q s es ↔ M.Meets ok s es := by
  induction es generalizing s with
  | nil => exact ⟨fun _ => trivial, fun _ => ⟨gives s held, trivial⟩⟩
  | cons e es ih =>
    cases run : M.step s e with
    | none =>
      simp only [Along, Meets, run, and_true]
      exact ⟨fun both => blocked s e held run both.2, fun admitted => ⟨gives s held, means s e held admitted⟩⟩
    | some next =>
      obtain ⟨t, out⟩ := next
      rw [Along.cons run, Meets.cons run, Meets.cons run]
      constructor
      · rintro ⟨⟨_, later⟩, here, there⟩
        have admitted := needed s e t out held run later.first here
        exact ⟨admitted, (ih (kept s e t out held admitted run)).mp ⟨later, there⟩⟩
      · rintro ⟨admitted, rest⟩
        obtain ⟨later, there⟩ := (ih (kept s e t out held admitted run)).mpr rest
        exact ⟨⟨gives s held, later⟩, means s e held admitted, there⟩

/-- The same for states only. -/
theorem along_iff_meets {I P : σ → Prop} {ok : σ → ε → Prop}
    (gives : ∀ s, I s → P s)
    (kept : ∀ s e t out, I s → ok s e → M.step s e = some (t, out) → I t)
    (needed : ∀ s e t out, I s → M.step s e = some (t, out) → P t → ok s e)
    (blocked : ∀ s e, I s → M.step s e = none → ok s e)
    {s : σ} (held : I s) (es : List ε) : M.Along P s es ↔ M.Meets ok s es := by
  have both := along_and_meets_iff gives kept (fun _ _ _ _ => trivial) (fun s e t out held run here _ =>
    needed s e t out held run here) (fun s e held run _ => blocked s e held run) held es
  rwa [and_iff_left (meets_always s es)] at both

/-- An invariant of the steps that meet a condition brings whatever it gives
for each step. -/
theorem Meets.of_invariant {I : σ → Prop} {ok R : σ → ε → Prop}
    (gives : ∀ s e, I s → R s e)
    (kept : ∀ s e t out, I s → ok s e → M.step s e = some (t, out) → I t)
    {s : σ} (held : I s) {es : List ε} (admitted : M.Meets ok s es) : M.Meets R s es := by
  induction es generalizing s with
  | nil => trivial
  | cons e es ih =>
    cases run : M.step s e with
    | none =>
      simp only [Meets, run, and_true]
      exact gives s e held
    | some next =>
      obtain ⟨t, out⟩ := next
      obtain ⟨here, there⟩ := (Meets.cons run).mp admitted
      exact (Meets.cons run).mpr ⟨gives s e held, ih (kept s e t out held here run) there⟩

/-- Conditions that are the same where an invariant holds are met by the same
executions. -/
theorem meets_congr {I : σ → Prop} {P Q : σ → ε → Prop}
    (kept : ∀ s e t out, I s → M.step s e = some (t, out) → I t)
    (same : ∀ s e, I s → (P s e ↔ Q s e))
    {s : σ} (held : I s) (es : List ε) : M.Meets P s es ↔ M.Meets Q s es := by
  induction es generalizing s with
  | nil => exact Iff.rfl
  | cons e es ih =>
    cases run : M.step s e with
    | none =>
      simp only [Meets, run, and_true]
      exact same s e held
    | some next =>
      obtain ⟨t, out⟩ := next
      rw [Meets.cons run, Meets.cons run, same s e held, ih (kept s e t out held run)]

/-! What a history must look like: each entry is admitted by the entries before it. -/

/-- Continuing `past`, every entry is admitted by all that precede it. -/
def Throughout (admits : List ο → ο → Prop) : List ο → List ο → Prop
  | _, [] => True
  | past, a :: rest => admits past a ∧ Throughout admits (past ++ [a]) rest

instance decidableThroughout (admits : List ο → ο → Prop) [∀ past a, Decidable (admits past a)] :
    ∀ past log, Decidable (Throughout admits past log)
  | _, [] => isTrue trivial
  | past, a :: rest =>
    have := decidableThroughout admits (past ++ [a]) rest
    inferInstanceAs (Decidable (admits past a ∧ Throughout admits (past ++ [a]) rest))

theorem throughout_append {admits : List ο → ο → Prop} {past xs ys : List ο} :
    Throughout admits past (xs ++ ys) ↔ Throughout admits past xs ∧ Throughout admits (past ++ xs) ys := by
  induction xs generalizing past with
  | nil => simp [Throughout]
  | cons a xs ih =>
    simp only [List.cons_append, Throughout]
    rw [ih, List.append_assoc, List.singleton_append, and_assoc]

theorem throughout_congr {P Q : List ο → ο → Prop} (same : ∀ past a, P past a ↔ Q past a) {past log : List ο} :
    Throughout P past log ↔ Throughout Q past log := by
  rw [show P = Q from funext fun past => funext fun a => propext (same past a)]

/-- Entries that are always admitted can be added to any history. -/
theorem throughout_of_forall {admits : List ο → ο → Prop} {past log : List ο}
    (free : ∀ a ∈ log, ∀ before, admits before a) : Throughout admits past log := by
  induction log generalizing past with
  | nil => trivial
  | cons a log ih =>
    exact ⟨free a List.mem_cons_self past, ih fun b member => free b (List.mem_cons_of_mem _ member)⟩

/-- The history has a mark before which the property held. -/
def Past (mark : ο) (P : List ο → Prop) (log : List ο) : Prop := ∃ before after, log = before ++ mark :: after ∧ P before

theorem past_append {mark : ο} {P : List ο → Prop} {log out : List ο} :
    Past mark P (log ++ out) ↔ Past mark P log ∨ Past mark (fun before => P (log ++ before)) out := by
  constructor
  · rintro ⟨before, after, split, held⟩
    rcases List.append_eq_append_iff.mp split with ⟨more, rfl, rfl⟩ | ⟨more, rfl, marked⟩
    · exact .inr ⟨more, after, rfl, held⟩
    · cases more with
      | nil => exact .inr ⟨[], after, marked.symm, by simpa using held⟩
      | cons first more =>
        obtain ⟨rfl, rfl⟩ := List.cons.inj marked
        exact .inl ⟨before, more, rfl, held⟩
  · rintro (⟨before, after, rfl, held⟩ | ⟨before, after, rfl, held⟩)
    · exact ⟨before, after ++ out, by simp, held⟩
    · exact ⟨log ++ before, after, by simp, held⟩

theorem past_snoc {mark last : ο} {P : List ο → Prop} {log : List ο} :
    Past mark P (log ++ [last]) ↔ Past mark P log ∨ last = mark ∧ P log := by
  rw [past_append]
  refine or_congr_right ⟨?_, ?_⟩
  · rintro ⟨before, after, split, held⟩
    cases before with
    | nil =>
      obtain ⟨rfl, _⟩ := List.cons.inj split
      exact ⟨rfl, by simpa using held⟩
    | cons first before => simp at split
  · rintro ⟨rfl, held⟩
    exact ⟨[], [], rfl, by simpa using held⟩

theorem past_append_of_not_mem {mark : ο} {P : List ο → Prop} {log out : List ο} (absent : mark ∉ out) :
    Past mark P (log ++ out) ↔ Past mark P log := by
  rw [past_append]
  refine or_iff_left ?_
  rintro ⟨before, after, rfl, _⟩
  exact absent (by simp)

/-- Since the last mark, while nothing ended it, the state has one property
and every entry has another. -/
def Since (mark : ο) (ends : ο → Prop) (Q : σ → Prop) (E : ο → Prop) (s : σ) (log : List ο) : Prop :=
  ∀ before after, log = before ++ mark :: after → (∀ a ∈ after, ¬ends a) → Q s ∧ ∀ a ∈ after, E a

theorem Since.start {mark : ο} {ends : ο → Prop} {Q : σ → Prop} {E : ο → Prop} (s : σ) :
    Since mark ends Q E s [] := by
  intro before after split
  simp at split

/-- A step that keeps the properties while they are due, and brings the state
property with its mark, if it makes one. -/
theorem Since.append {mark : ο} {ends : ο → Prop} {Q : σ → Prop} {E : ο → Prop} {s t : σ} {log out : List ο}
    (since : Since mark ends Q E s log)
    (enters : Since mark ends Q E t out)
    (stays : Q s → (∀ a ∈ out, ¬ends a) → Q t ∧ ∀ a ∈ out, E a) :
    Since mark ends Q E t (log ++ out) := by
  intro before after split going
  rcases List.append_eq_append_iff.mp split with ⟨more, _, inOut⟩ | ⟨more, rfl, inLog⟩
  · exact enters more after inOut going
  · cases more with
    | nil => exact enters [] after inLog.symm going
    | cons first rest =>
      obtain ⟨rfl, rfl⟩ : mark = first ∧ after = rest ++ out := List.cons.inj inLog
      obtain ⟨old, new⟩ := List.forall_mem_append.mp going
      obtain ⟨held, entries⟩ := since before rest rfl old
      obtain ⟨still, added⟩ := stays held new
      exact ⟨still, List.forall_mem_append.mpr ⟨entries, added⟩⟩

/-- Outputs without the mark bring nothing. -/
theorem Since.of_not_mem {mark : ο} {ends : ο → Prop} {Q : σ → Prop} {E : ο → Prop} {s : σ} {out : List ο}
    (absent : mark ∉ out) : Since mark ends Q E s out := by
  rintro before after rfl
  simp at absent

/-- The mark alone brings the state property. -/
theorem Since.of_mark {mark : ο} {ends : ο → Prop} {Q : σ → Prop} {E : ο → Prop} {s : σ} (held : Q s) :
    Since mark ends Q E s [mark] := by
  intro before after split _
  cases before with
  | nil =>
    obtain ⟨_, rfl⟩ := List.cons.inj split
    exact ⟨held, by simp⟩
  | cons first before => simp at split

end Machine
