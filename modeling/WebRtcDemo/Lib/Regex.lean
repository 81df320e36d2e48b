import Mathlib.Data.List.Infix
import WebRtcDemo.Lib.Decimals

/-- Regular expressions with named groups. A repetition is of one character
class, as many as possible or as few as possible first. -/
inductive Regex where
  | text (literal : Text)
  | one (cls : Char → Bool)
  | greedy (cls : Char → Bool)
  | lazily (cls : Char → Bool)
  | seq (first second : Regex)
  | alt (first second : Regex)
  | group (name : String) (inner : Regex)

/-- What the groups of a match hold. -/
abbrev Captures := List (String × Text)

def Captures.group (captures : Captures) (name : String) : Text := (captures.lookup name).getD []

@[simp]
theorem Captures.group_self (name : String) (held : Text) (captures : Captures) :
    Captures.group ((name, held) :: captures) name = held := by
  simp [Captures.group]

@[simp]
theorem Captures.group_other {name other : String} (different : name ≠ other) (held : Text) (captures : Captures) :
    Captures.group ((other, held) :: captures) name = captures.group name := by
  rw [Captures.group, List.lookup_cons, beq_false_of_ne different, Captures.group]

namespace Regex

/-- What is left after a repetition, the longest repetition first. -/
def greedyRests (cls : Char → Bool) : Text → List Text
  | [] => [[]]
  | c :: s => if cls c then greedyRests cls s ++ [c :: s] else [c :: s]

/-- What is left after a repetition, the shortest repetition first. -/
def lazyRests (cls : Char → Bool) : Text → List Text
  | [] => [[]]
  | c :: s => (c :: s) :: if cls c then lazyRests cls s else []

/-- All ways an expression matches at the start of a text, in the order in
which backtracking tries them: the groups and what is left. -/
def run : Regex → Text → List (Captures × Text)
  | text literal, s => if literal.isPrefixOf s then [([], s.drop literal.length)] else []
  | one _, [] => []
  | one cls, c :: s => if cls c then [([], s)] else []
  | greedy cls, s => (greedyRests cls s).map ([], ·)
  | lazily cls, s => (lazyRests cls s).map ([], ·)
  | seq first second, s => (run first s).flatMap fun m => (run second m.2).map fun n => (m.1 ++ n.1, n.2)
  | alt first second, s => run first s ++ run second s
  | group name inner, s => (run inner s).map fun m => ((name, s.take (s.length - m.2.length)) :: m.1, m.2)

theorem run_text_eq (literal s : Text) :
    run (text literal) s = if literal.isPrefixOf s then [([], s.drop literal.length)] else [] := rfl

theorem run_one_cons (cls : Char → Bool) (c : Char) (s : Text) :
    run (one cls) (c :: s) = if cls c then [([], s)] else [] := rfl

theorem run_greedy (cls : Char → Bool) (s : Text) : run (greedy cls) s = (greedyRests cls s).map ([], ·) := rfl

theorem run_lazily (cls : Char → Bool) (s : Text) : run (lazily cls) s = (lazyRests cls s).map ([], ·) := rfl

theorem run_seq (first second : Regex) (s : Text) :
    run (seq first second) s = (run first s).flatMap fun m => (run second m.2).map fun n => (m.1 ++ n.1, n.2) := rfl

theorem run_alt (first second : Regex) (s : Text) : run (alt first second) s = run first s ++ run second s := rfl

theorem run_group (name : String) (inner : Regex) (s : Text) :
    run (group name inner) s =
      (run inner s).map fun m => ((name, s.take (s.length - m.2.length)) :: m.1, m.2) := rfl

theorem greedyRests_cons (cls : Char → Bool) (c : Char) (s : Text) :
    greedyRests cls (c :: s) = if cls c then greedyRests cls s ++ [c :: s] else [c :: s] := rfl

theorem lazyRests_cons (cls : Char → Bool) (c : Char) (s : Text) :
    lazyRests cls (c :: s) = (c :: s) :: if cls c then lazyRests cls s else [] := rfl

/-- The groups of the first match at the first place that has one. -/
def search (r : Regex) : Text → Option Captures
  | [] => (run r []).head?.map Prod.fst
  | c :: s => ((run r (c :: s)).head?.map Prod.fst).or (search r s)

theorem search_cons (r : Regex) (c : Char) (s : Text) :
    search r (c :: s) = ((run r (c :: s)).head?.map Prod.fst).or (search r s) := rfl

theorem search_nil (r : Regex) : search r [] = (run r []).head?.map Prod.fst := rfl

/-- The expression or nothing, the expression first. -/
def optional (r : Regex) : Regex := alt r (text [])

/-- At least one character of a class. -/
def oneOrMore (cls : Char → Bool) : Regex := seq (one cls) (greedy cls)

/-- Expressions one after another. -/
def chain : List Regex → Regex
  | [] => text []
  | r :: rs => seq r (chain rs)

/-- Backtracking stops with this match. -/
def Finds (r : Regex) (s : Text) (captures : Captures) (rest : Text) : Prop :=
  (run r s).head? = some (captures, rest)

def Fails (r : Regex) (s : Text) : Prop := run r s = []

/-- A text does not start with a character of the class. -/
def Stops (cls : Char → Bool) (s : Text) : Prop := ∀ c ∈ s.head?, cls c = false

theorem run_text (literal s : Text) : run (text literal) (literal ++ s) = [([], s)] := by
  rw [run_text_eq, if_pos (List.isPrefixOf_iff_prefix.mpr (List.prefix_append literal s)), List.drop_left]

theorem finds_text (literal s : Text) : Finds (text literal) (literal ++ s) [] s := by
  rw [Finds, run_text]
  rfl

theorem fails_text {literal s : Text} (apart : ¬ literal <+: s) : Fails (text literal) s := by
  rw [Fails, run_text_eq, if_neg (mt List.isPrefixOf_iff_prefix.mp apart)]

theorem finds_seq {first second : Regex} {s mid rest : Text} {before after : Captures}
    (here : Finds first s before mid) (there : Finds second mid after rest) :
    Finds (seq first second) s (before ++ after) rest := by
  obtain ⟨others, listed⟩ := List.head?_eq_some_iff.mp here
  obtain ⟨more, followed⟩ := List.head?_eq_some_iff.mp there
  rw [Finds, run_seq, listed, List.flatMap_cons, followed]
  rfl

theorem chain_skip {r : Regex} {rs : List Regex} {s mid rest : Text} {captures : Captures}
    (here : Finds r s [] mid) (there : Finds (chain rs) mid captures rest) :
    Finds (chain (r :: rs)) s captures rest :=
  finds_seq here there

theorem chain_take {r : Regex} {rs : List Regex} {s mid rest : Text} {held : String × Text} {captures : Captures}
    (here : Finds r s [held] mid) (there : Finds (chain rs) mid captures rest) :
    Finds (chain (r :: rs)) s (held :: captures) rest :=
  finds_seq here there

theorem finds_chain_nil (s : Text) : Finds (chain []) s [] s := finds_text [] s

theorem fails_seq {first second : Regex} {s : Text} (none : ∀ m ∈ run first s, Fails second m.2) :
    Fails (seq first second) s := by
  refine List.flatMap_eq_nil_iff.mpr fun m member => ?_
  rw [none m member, List.map_nil]

theorem fails_seq_text {literal s : Text} (apart : ¬ literal <+: s) (second : Regex) :
    Fails (seq (text literal) second) s :=
  fails_seq fun _ member => absurd (fails_text apart ▸ member) List.not_mem_nil

theorem finds_alt_left {first second : Regex} {s rest : Text} {captures : Captures}
    (here : Finds first s captures rest) : Finds (alt first second) s captures rest := by
  obtain ⟨others, listed⟩ := List.head?_eq_some_iff.mp here
  rw [Finds, run_alt, listed]
  rfl

theorem finds_alt_right {first second : Regex} {s rest : Text} {captures : Captures} (failed : Fails first s)
    (there : Finds second s captures rest) : Finds (alt first second) s captures rest := by
  rw [Finds, run_alt, failed, List.nil_append]
  exact there

theorem finds_optional_absent {r : Regex} {s : Text} (failed : Fails r s) : Finds (optional r) s [] s :=
  finds_alt_right failed (finds_text [] s)

theorem finds_group {r : Regex} {held rest : Text} {captures : Captures} (name : String)
    (here : Finds r (held ++ rest) captures rest) :
    Finds (group name r) (held ++ rest) ((name, held) :: captures) rest := by
  obtain ⟨others, listed⟩ := List.head?_eq_some_iff.mp here
  rw [Finds, run_group, listed, List.map_cons, List.head?_cons]
  simp

theorem greedyRests_stops {cls : Char → Bool} {s : Text} (stops : Stops cls s) : greedyRests cls s = [s] := by
  cases s with
  | nil => rfl
  | cons c s => simp [greedyRests_cons, stops c rfl]

/-- A greedy repetition first takes the whole run of its class. -/
theorem finds_greedy {cls : Char → Bool} {taken s : Text} (all : ∀ c ∈ taken, cls c = true) (stops : Stops cls s) :
    Finds (greedy cls) (taken ++ s) [] s := by
  have first : (greedyRests cls (taken ++ s)).head? = some s := by
    induction taken with
    | nil => rw [List.nil_append, greedyRests_stops stops, List.head?_cons]
    | cons c taken ih =>
      rw [List.cons_append, greedyRests_cons, if_pos (all c (List.mem_cons_self ..)), List.head?_append,
        ih fun d member => all d (List.mem_cons_of_mem c member)]
      rfl
  rw [Finds, run_greedy, List.head?_map, first]
  rfl

theorem finds_oneOrMore {cls : Char → Bool} {taken s : Text} (nonempty : taken ≠ []) (all : ∀ c ∈ taken, cls c = true)
    (stops : Stops cls s) : Finds (oneOrMore cls) (taken ++ s) [] s := by
  cases taken with
  | nil => exact absurd rfl nonempty
  | cons c taken =>
    have here : Finds (one cls) (c :: (taken ++ s)) [] (taken ++ s) := by
      rw [Finds, run_one_cons, if_pos (all c (List.mem_cons_self ..))]
      rfl
    exact finds_seq here (finds_greedy (fun d member => all d (List.mem_cons_of_mem c member)) stops)

/-- No match starts inside the first text. -/
def Barren (r : Regex) : Text → Text → Prop
  | [], _ => True
  | c :: first, rest => Fails r (c :: (first ++ rest)) ∧ Barren r first rest

theorem Barren.append {r : Regex} {first second rest : Text} (here : Barren r first (second ++ rest))
    (there : Barren r second rest) : Barren r (first ++ second) rest := by
  induction first with
  | nil => exact there
  | cons c first ih =>
    obtain ⟨failed, later⟩ := here
    rw [← List.append_assoc] at failed
    exact ⟨failed, ih later⟩

/-- A literal does not start where its first character is missing. -/
theorem Barren.of_absent {c : Char} {first : Text} (absent : c ∉ first) (literal : Text) (r : Regex) (rest : Text) :
    Barren (seq (text (c :: literal)) r) first rest := by
  induction first with
  | nil => trivial
  | cons d first ih =>
    rw [List.mem_cons, not_or] at absent
    refine ⟨fails_seq_text (fun start => ?_) r, ih absent.2⟩
    exact absent.1 (List.cons_prefix_cons.mp start).1

/-- A literal whose first character is not repeated in it does not start in a
text that is free of it, when that character comes next. -/
theorem Barren.of_free {c : Char} {literal first : Text} (once : c ∉ literal) (free : ¬ (c :: literal) <:+: first)
    (r : Regex) (rest : Text) : Barren (seq (text (c :: literal)) r) first (c :: rest) := by
  induction first with
  | nil => trivial
  | cons d first ih =>
    refine ⟨fails_seq_text (fun start => ?_) r, ih fun part => free (part.trans (List.suffix_cons d first).isInfix)⟩
    have head : (d :: first) <+: d :: (first ++ c :: rest) := List.prefix_append (d :: first) (c :: rest)
    rcases List.prefix_or_prefix_of_prefix start head with inside | ⟨cut, joined⟩
    · exact free inside.isInfix
    · -- the literal reaches into the rest, so its first character stands in it twice
      rw [← joined, ← List.cons_append] at start
      have next := (List.prefix_append_right_inj (d :: first)).mp start
      cases cut with
      | nil => exact free (List.append_nil (d :: first) ▸ joined ▸ List.infix_rfl)
      | cons e cut =>
        obtain ⟨rfl, -⟩ := List.cons_prefix_cons.mp next
        have tail : literal = first ++ e :: cut := (List.cons.inj joined).2.symm
        exact once (tail ▸ List.mem_append_right first (List.mem_cons_self ..))

/-- Backtracking into a greedy repetition does not help when nothing matches
after any part of it. -/
theorem fails_greedy {cls : Char → Bool} {r : Regex} {taken s : Text} (all : ∀ c ∈ taken, cls c = true)
    (stops : Stops cls s) (barren : Barren r taken s) (failed : Fails r s) :
    Fails (seq (greedy cls) r) (taken ++ s) := by
  have unfolded : ∀ t : Text, run (seq (greedy cls) r) t = (greedyRests cls t).flatMap (run r) := by
    intro t
    simp [run_seq, run_greedy, List.flatMap_map]
  rw [Fails, unfolded]
  induction taken with
  | nil =>
    rw [List.nil_append, greedyRests_stops stops, List.flatMap_singleton]
    exact failed
  | cons c taken ih =>
    obtain ⟨here, later⟩ := barren
    rw [List.cons_append, greedyRests_cons, if_pos (all c (List.mem_cons_self ..)), List.flatMap_append,
      List.flatMap_singleton, here, List.append_nil]
    exact ih (fun d member => all d (List.mem_cons_of_mem c member)) later

/-- A lazy repetition stretches to the first place where what follows it matches. -/
theorem finds_lazily {cls : Char → Bool} {r : Regex} {skipped s rest : Text} {captures : Captures}
    (all : ∀ c ∈ skipped, cls c = true) (barren : Barren r skipped s) (there : Finds r s captures rest) :
    Finds (seq (lazily cls) r) (skipped ++ s) captures rest := by
  have unfolded : ∀ t : Text, run (seq (lazily cls) r) t = (lazyRests cls t).flatMap (run r) := by
    intro t
    simp [run_seq, run_lazily, List.flatMap_map]
  rw [Finds, unfolded]
  induction skipped with
  | nil =>
    obtain ⟨others, listed⟩ := List.head?_eq_some_iff.mp there
    have first : ∃ more, lazyRests cls s = s :: more := by
      cases s with
      | nil => exact ⟨[], rfl⟩
      | cons c s => exact ⟨_, rfl⟩
    obtain ⟨more, rests⟩ := first
    rw [List.nil_append, rests, List.flatMap_cons, listed]
    rfl
  | cons c skipped ih =>
    obtain ⟨failed, later⟩ := barren
    rw [List.cons_append, lazyRests_cons, if_pos (all c (List.mem_cons_self ..)), List.flatMap_cons, failed,
      List.nil_append]
    exact ih (fun d member => all d (List.mem_cons_of_mem c member)) later

theorem search_of_finds {r : Regex} {s rest : Text} {captures : Captures} (here : Finds r s captures rest) :
    search r s = some captures := by
  cases s with
  | nil => rw [search_nil, here, Option.map_some]
  | cons c s => rw [search_cons, here, Option.map_some, Option.some_or]

theorem search_barren {r : Regex} {first rest : Text} (barren : Barren r first rest) :
    search r (first ++ rest) = search r rest := by
  induction first with
  | nil => rfl
  | cons c first ih =>
    obtain ⟨failed, later⟩ := barren
    rw [List.cons_append, search_cons, failed, List.head?_nil, Option.map_none, Option.none_or]
    exact ih later

theorem search_eq_none {r : Regex} {s : Text} (barren : Barren r s []) (empty : Fails r []) : search r s = none := by
  have skipped := search_barren barren
  rw [List.append_nil] at skipped
  rw [skipped, search_nil, empty]
  rfl

end Regex
