import WebRtcDemo.Lib.Machine

universe u v w

namespace Machine

variable {σ : Type u} {ε : Type v} {ο : Type w} (M : Machine σ ε ο)

/-- As long as only these events happen, one of them can happen until a state
with the property is reached, and however they happen such a state is reached. -/
inductive Inevitable (may : ε → Prop) (P : σ → Prop) : σ → Prop
  | now {s} : P s → Inevitable may P s
  | later {s} : (∃ e t out, may e ∧ M.step s e = some (t, out)) →
      (∀ e t out, may e → M.step s e = some (t, out) → Inevitable may P t) → Inevitable may P s

variable {M} {may : ε → Prop} {I P : σ → Prop}

/-- A rank that every step lowers, together with an invariant under which some
step is possible, leads to the property. -/
theorem Inevitable.of_rank {β : Type*} [LT β] [WellFoundedLT β] (rank : σ → β)
    (possible : ∀ s, I s → ¬P s → ∃ e t out, may e ∧ M.step s e = some (t, out))
    (lowers : ∀ s e t out, I s → ¬P s → may e → M.step s e = some (t, out) → I t ∧ rank t < rank s)
    {s : σ} (held : I s) : M.Inevitable may P s := by
  induction h : rank s using WellFoundedLT.induction generalizing s with
  | ind b ih =>
    by_cases reached : P s
    · exact .now reached
    · refine .later (possible s held reached) fun e t out allowed run => ?_
      obtain ⟨still, lower⟩ := lowers s e t out held reached allowed run
      exact ih (rank t) (h ▸ lower) still rfl

end Machine
