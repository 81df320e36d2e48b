import Mathlib.Data.List.AList
import Mathlib.Tactic

/-! Tables of bounded size whose entries are taken out once. A record into a
full table clears it first. -/

universe u v

namespace TakeOnce

variable {κ : Type u} {α : Type v}

abbrev Table (κ : Type u) (α : Type v) : Type (max u v) := AList fun _ : κ => α

def size (table : Table κ α) : Nat := table.keys.length

@[simp] theorem size_empty : size (∅ : Table κ α) = 0 := rfl

variable [DecidableEq κ]

def record (room : Nat) (table : Table κ α) (k : κ) (x : α) : Table κ α :=
  (if room ≤ size table then ∅ else table).insert k x

def take (table : Table κ α) (k : κ) : Option α × Table κ α :=
  match table.lookup k with
  | none => (none, table)
  | some x => (some x, table.erase k)

inductive Call (κ : Type u) (α : Type v)
  | record (k : κ) (x : α)
  | take (k : κ)
  deriving DecidableEq, Repr

def Call.key : Call κ α → κ
  | .record k _ => k
  | .take k => k

/-- What a call takes, and the table it leaves. -/
def perform (room : Nat) (table : Table κ α) : Call κ α → Option α × Table κ α
  | .record k x => (none, record room table k x)
  | .take k => take table k

def run (room : Nat) (calls : List (Call κ α)) : Table κ α :=
  calls.foldl (fun table c => (perform room table c).2) ∅

/-- Does the call clear the table? -/
def Wipes (room : Nat) (table : Table κ α) : Call κ α → Prop
  | .record _ _ => room ≤ size table
  | .take _ => False

/-- The last call with the key was a record of the value, and no wipe happened since. -/
inductive Live (room : Nat) (k : κ) (x : α) : List (Call κ α) → Prop
  | recorded (past : List (Call κ α)) : Live room k x (past ++ [.record k x])
  | kept {past : List (Call κ α)} {c : Call κ α} (live : Live room k x past) (other : c.key ≠ k)
      (stays : ¬Wipes room (run room past) c) : Live room k x (past ++ [c])

/-- What a call may do after the calls before it: the table stays within its
bound, a take gives what is live and changes no other key, and a record
removes another key only if the table with the new key exceeds the bound. -/
def Lawful (room : Nat) (past : List (Call κ α)) (before : Table κ α) (c : Call κ α) (taken : Option α)
    (after : Table κ α) : Prop :=
  size after ≤ room ∧
  match c with
  | .take k => (∀ x, taken = some x ↔ Live room k x past) ∧ ∀ j, j ≠ k → after.lookup j = before.lookup j
  | .record k x => ∀ j, j ≠ k → j ∈ before → j ∉ after → room < size (before.insert k x)

/-- No key is recorded again into a full table. -/
def Fits (room : Nat) (table : Table κ α) : Call κ α → Prop
  | .record k _ => k ∈ table → size table < room
  | .take _ => True

variable {room : Nat} {table : Table κ α} {past : List (Call κ α)} {c : Call κ α} {j k : κ} {x : α}

theorem run_snoc (room : Nat) (past : List (Call κ α)) (c : Call κ α) :
    run room (past ++ [c]) = (perform room (run room past) c).2 := by
  simp [run]

/-! The size. -/

theorem size_insert_of_mem (inside : k ∈ table) (x : α) : size (table.insert k x) = size table := by
  have member := AList.mem_keys.mp inside
  unfold size
  rw [AList.keys_insert, List.length_cons, List.length_erase_of_mem member]
  have positive := List.length_pos_of_mem member
  omega

theorem size_insert_of_not_mem (outside : k ∉ table) (x : α) : size (table.insert k x) = size table + 1 := by
  unfold size
  rw [AList.keys_insert, List.length_cons, List.erase_of_not_mem (fun member => outside (AList.mem_keys.mpr member))]

theorem size_erase_le (table : Table κ α) (k : κ) : size (table.erase k) ≤ size table := by
  unfold size
  rw [AList.keys_erase]
  exact List.length_erase_le

theorem size_insert_le (table : Table κ α) (k : κ) (x : α) : size (table.insert k x) ≤ size table + 1 := by
  by_cases inside : k ∈ table
  · rw [size_insert_of_mem inside]
    omega
  · rw [size_insert_of_not_mem inside]

theorem size_record (positive : 0 < room) (table : Table κ α) (k : κ) (x : α) : size (record room table k x) ≤ room := by
  unfold record
  split
  · have small := size_insert_le (∅ : Table κ α) k x
    rw [size_empty] at small
    omega
  · rename_i below
    have small := size_insert_le table k x
    omega

/-- Where there is no entry, erasing it leaves the table as it is. -/
theorem take_eq (table : Table κ α) (k : κ) : take table k = (table.lookup k, table.erase k) := by
  unfold take
  split
  · rename_i missing
    have absent : k ∉ table.entries.keys := AList.lookup_eq_none.mp missing
    have same : table.erase k = table := AList.ext (List.kerase_of_notMem_keys absent)
    rw [missing, same]
  · rename_i x found
    rw [found]

theorem size_perform (positive : 0 < room) (bounded : size table ≤ room) (c : Call κ α) :
    size (perform room table c).2 ≤ room := by
  cases c with
  | record k x => exact size_record positive table k x
  | take k =>
    rw [perform, take_eq]
    exact (size_erase_le table k).trans bounded

theorem size_run (positive : 0 < room) (calls : List (Call κ α)) : size (run room calls) ≤ room := by
  induction calls using List.reverseRecOn with
  | nil => exact Nat.zero_le room
  | append_singleton past c ih =>
    rw [run_snoc]
    exact size_perform positive ih c

/-! The entries. -/

theorem live_snoc :
    Live room k x (past ++ [c]) ↔ c = .record k x ∨ Live room k x past ∧ c.key ≠ k ∧ ¬Wipes room (run room past) c := by
  constructor
  · intro live
    generalize whole : past ++ [c] = calls at live
    cases live with
    | recorded before =>
      obtain ⟨rfl, last⟩ := List.append_inj' whole rfl
      exact .inl (List.cons.inj last).1
    | kept live other stays =>
      obtain ⟨rfl, last⟩ := List.append_inj' whole rfl
      obtain rfl := (List.cons.inj last).1
      exact .inr ⟨live, other, stays⟩
  · rintro (rfl | ⟨live, other, stays⟩)
    · exact .recorded past
    · exact .kept live other stays

theorem not_live_nil : ¬Live room k x ([] : List (Call κ α)) := by
  intro live
  generalize empty : ([] : List (Call κ α)) = calls at live
  cases live <;> simp at empty

theorem lookup_record_ne (other : j ≠ k) (room : Nat) (table : Table κ α) (x : α) :
    (record room table k x).lookup j = if room ≤ size table then none else table.lookup j := by
  unfold record
  rw [AList.lookup_insert_ne other]
  split <;> rfl

theorem mem_of_mem_record (other : j ≠ k) (member : j ∈ record room table k x) : j ∈ table := by
  by_contra absent
  rw [← AList.lookup_eq_none] at absent
  rw [← AList.lookup_isSome, lookup_record_ne other, absent] at member
  split at member <;> cases member

/-- What one call does to an entry. -/
theorem lookup_perform (room : Nat) (table : Table κ α) (c : Call κ α) (k : κ) (x : α) :
    (perform room table c).2.lookup k = some x ↔
      c = .record k x ∨ table.lookup k = some x ∧ c.key ≠ k ∧ ¬Wipes room table c := by
  cases c with
  | record j y =>
    by_cases same : k = j
    · subst same
      simp [perform, record, Call.key, eq_comm]
    · have other : j ≠ k := Ne.symm same
      rw [perform, lookup_record_ne same]
      by_cases full : room ≤ size table
      · simp [Wipes, full, other]
      · simp [Call.key, Wipes, full, other]
  | take j =>
    rw [perform, take_eq]
    by_cases same : k = j
    · subst same
      simp [Call.key]
    · simp [Call.key, Wipes, AList.lookup_erase_ne same, Ne.symm same]

/-- The table holds what is live. -/
theorem lookup_run (room : Nat) (calls : List (Call κ α)) (k : κ) (x : α) :
    (run room calls).lookup k = some x ↔ Live room k x calls := by
  induction calls using List.reverseRecOn with
  | nil => simp [run, not_live_nil]
  | append_singleton past c ih => rw [run_snoc, lookup_perform, live_snoc, ih]

/-! The laws. -/

/-- A table with an entry and room for no further one has another entry. -/
theorem exists_other (plural : 2 ≤ size table) (k : κ) : ∃ j, j ≠ k ∧ j ∈ table := by
  have nodup := table.keys_nodup
  unfold size at plural
  obtain ⟨first, second, rest, shape⟩ : ∃ first second rest, table.keys = first :: second :: rest := by
    match table.keys, plural with
    | first :: second :: rest, _ => exact ⟨first, second, rest, rfl⟩
  rw [shape] at nodup
  have different : first ≠ second := by
    rintro rfl
    simp at nodup
  by_cases same : first = k
  · exact ⟨second, fun again => different (same.trans again.symm), AList.mem_keys.mpr (by simp [shape])⟩
  · exact ⟨first, same, AList.mem_keys.mpr (by simp [shape])⟩

variable (past) in
theorem lawful_iff_fits (plural : 2 ≤ room) (c : Call κ α) :
    Lawful room past (run room past) c (perform room (run room past) c).1 (perform room (run room past) c).2 ↔
      Fits room (run room past) c := by
  have bounded := size_run (by omega : 0 < room) past
  have kept := size_perform (by omega : 0 < room) bounded c
  cases c with
  | take k =>
    refine iff_of_true ⟨kept, ?_⟩ trivial
    rw [perform, take_eq]
    exact ⟨lookup_run room past k, fun j other => AList.lookup_erase_ne other⟩
  | record k x =>
    constructor
    · rintro ⟨_, wiped⟩ inside
      by_contra notBelow
      have full : room ≤ size (run room past) := Nat.not_lt.mp notBelow
      obtain ⟨j, other, present⟩ := exists_other (plural.trans full) k
      have gone : j ∉ record room (run room past) k x := by
        rw [← AList.lookup_eq_none, lookup_record_ne other, if_pos full]
      have exceeds := wiped j other present gone
      rw [size_insert_of_mem inside] at exceeds
      omega
    · intro fits
      refine ⟨kept, fun j other present gone => ?_⟩
      by_cases full : room ≤ size (run room past)
      · have outside : k ∉ run room past := fun inside => absurd (fits inside) (Nat.not_lt.mpr full)
        rw [size_insert_of_not_mem outside]
        omega
      · rw [perform, ← AList.lookup_eq_none, lookup_record_ne other, if_neg full, AList.lookup_eq_none] at gone
        exact absurd present gone

end TakeOnce
