import WebRtcDemo.Channel.Client

/-! Every message that expects a response has a number of its own, and each
response reaches the one function that was registered with this number. -/

namespace WebRtcDemo.Channel

open Machine

variable {κ ν : Type}

/-- The number that a message carries, if it expects a response. -/
def Outbound.id? : Outbound ν → Option Nat
  | .init id => some id
  | .invokeMethod id _ _ _ => some id
  | _ => none

/-- The number and the function of an entry that is made. -/
def Action.registered? : Action κ ν → Option (Nat × Pending κ)
  | .registered id p => some (id, p)
  | _ => none

/-- The entries that were made, the first one first. -/
def registrations (log : List (Action κ ν)) : List (Nat × Pending κ) := log.filterMap Action.registered?

/-- Whether the last that became of an entry is that it was answered. -/
def settled (id : Nat) : Bool → Action κ ν → Bool
  | before, .answered i _ _ => decide (i = id) || before
  | before, .failed ids => if id ∈ ids then false else before
  | before, _ => before

/-- Numbers are given in order; a message goes out with the number of the entry
just made; a function gets the responses with its own number, and after one
that it could take it gets no other. -/
def CallAdmits (past : List (Action κ ν)) : Action κ ν → Prop
  | .registered id _ => id = (registrations past).length
  | .sent m => ∀ id ∈ m.id?, ∃ earlier p, past = earlier ++ [.registered id p]
  | .answered id p _ => (id, p) ∈ registrations past ∧ past.foldl (settled id) false = false
  | _ => True

/-- Outputs that neither make an entry nor call one. -/
def Action.Plain : Action κ ν → Prop
  | .registered _ _ => False
  | .answered _ _ _ => False
  | .failed _ => False
  | .sent m => m.id? = none
  | _ => True

/-- What a step does to the entries and to those that are being called. -/
inductive CallMove (s t : State κ ν) : List (Action κ ν) → Prop
  | registers (m p) (numbered : m.id? = some s.execId) (number : t.execId = nextId s.execId)
    (entries : t.execCallbacks = Function.update s.execCallbacks s.execId (some p)) (calls : calledIds t.stack = calledIds s.stack) :
    CallMove s t [.registered s.execId p, .sent m]
  | answers {id p} (data) {out} (entry : s.execCallbacks id = some p) (empty : s.stack = [])
    (plain : ∀ a ∈ out, a.Plain) (number : t.execId = s.execId) (entries : t.execCallbacks = s.execCallbacks)
    (calls : calledIds t.stack = [id]) : CallMove s t (.answered id p data :: out)
  | breaks {id p} (data) (entry : s.execCallbacks id = some p) (empty : s.stack = []) (same : t = s) :
    CallMove s t [.answered id p data, .typeError, .failed [id]]
  | forgets {id} (number : t.execId = s.execId) (calls : calledIds s.stack = id :: calledIds t.stack)
    (entries : t.execCallbacks = Function.update s.execCallbacks id none) : CallMove s t []
  | fails (number : t.execId = s.execId) (entries : t.execCallbacks = s.execCallbacks) (calls : calledIds t.stack = []) :
    CallMove s t [.failed (calledIds s.stack)]
  | rests {out} (plain : ∀ a ∈ out, a.Plain) (number : t.execId = s.execId)
    (entries : t.execCallbacks = s.execCallbacks) (calls : calledIds t.stack = calledIds s.stack) : CallMove s t out

theorem calledIds_of_updates {frame : Frame ν} (update : frame.Updates) (rest : List (Frame ν)) :
    calledIds (frame :: rest) = calledIds rest := by
  cases frame with
  | signals | updates => rfl
  | forEach | idle | forget => exact update.elim

theorem callMove_of_step [DecidableEq κ] {objects : ν → Option (List (String × ObjectData ν))} {s t : State κ ν}
    {e : Event κ ν} {out : List (Action κ ν)} (run : step objects s e = some (t, out)) : CallMove s t out := by
  cases clientMove_of_step run with
  | constructs initCallback _ => exact .registers (.init s.execId) _ rfl rfl rfl rfl
  | ignores => exact .rests (by simp) rfl rfl rfl
  | unknown => exact .rests (by simp [Action.Plain]) rfl rfl rfl
  | breaks data empty entry => exact .breaks data entry empty rfl
  | initializes data _ empty entry _ =>
    refine .answers data entry empty ?_ rfl rfl rfl
    rw [List.forall_mem_append]
    constructor
    · intro a member
      obtain ⟨_, _, rfl⟩ := List.mem_map.mp member
      trivial
    · intro a member
      obtain ⟨_, _, rfl⟩ := List.mem_map.mp member
      trivial
  | replies v empty entry => exact .answers (some v) entry empty (by simp [Action.Plain]) rfl rfl rfl
  | settles data empty entry promised =>
    refine .answers data entry empty ?_ rfl rfl rfl
    rcases promised with rfl | ⟨v, rfl⟩ | rfl <;> simp [Action.Plain]
  | updates data empty => exact .rests (by simp) rfl rfl (by rw [empty]; rfl)
  | emits args _ _ under =>
    refine .rests (by simp [Action.Plain]) rfl rfl ?_
    rcases under with ⟨empty, rfl⟩ | ⟨more, tail, here, rfl⟩
    · rw [empty]
      rfl
    · rw [here]
      rfl
  | calls here | ends here | idles here =>
    exact .rests (by simp [Action.Plain, Outbound.id?]) rfl rfl (by rw [here]; rfl)
  | skips here | caches here => exact .rests (by simp) rfl rfl (by rw [here]; rfl)
  | moves here update next =>
    refine .rests (by simp) rfl rfl ?_
    rw [here, calledIds_of_updates update]
    rcases next with rfl | ⟨frame, again, rfl⟩
    · rfl
    · exact calledIds_of_updates again _
  | forgets here => exact .forgets rfl (by rw [here]; rfl) rfl
  | finishes _ => exact .rests (by simp) rfl rfl rfl
  | fails _ => exact .fails rfl rfl rfl
  | connects f _ _ =>
    refine .rests (fun a member => ?_) (connect_execId ..) (connect_execCallbacks ..) (by rw [connect_stack])
    rcases mem_connect member with rfl | rfl <;> trivial
  | disconnects f _ _ =>
    refine .rests (fun a member => ?_) rfl rfl rfl
    rcases mem_disconnect member with rfl | rfl <;> trivial
  | invokes args callback _ _ => exact .registers _ _ rfl rfl rfl rfl
  | sets v _ _ => exact .rests (by simp [Action.Plain, Outbound.id?]) rfl rfl rfl
  | debugs data => exact .rests (by simp [Action.Plain, Outbound.id?]) rfl rfl rfl

/-! The entries against the history. -/

@[simp] theorem registrations_nil : registrations ([] : List (Action κ ν)) = [] := rfl

@[simp] theorem registrations_append (xs ys : List (Action κ ν)) :
    registrations (xs ++ ys) = registrations xs ++ registrations ys := List.filterMap_append

@[simp] theorem registrations_registered (id : Nat) (p : Pending κ) :
    registrations [(.registered id p : Action κ ν)] = [(id, p)] := rfl

theorem registrations_of_plain {out : List (Action κ ν)} (plain : ∀ a ∈ out, a.Plain) : registrations out = [] := by
  refine List.filterMap_eq_nil_iff.mpr fun a member => ?_
  have here := plain a member
  cases a with
  | registered => exact here.elim
  | _ => rfl

theorem settled_of_plain {out : List (Action κ ν)} (plain : ∀ a ∈ out, a.Plain) (id : Nat) (before : Bool) :
    out.foldl (settled id) before = before := by
  induction out with
  | nil => rfl
  | cons a out ih =>
    have here := plain a List.mem_cons_self
    have rest := ih fun b member => plain b (List.mem_cons_of_mem _ member)
    cases a with
    | registered | answered | failed => exact here.elim
    | _ => exact rest

theorem admits_of_plain {out : List (Action κ ν)} (plain : ∀ a ∈ out, a.Plain) (a : Action κ ν) (member : a ∈ out)
    (past : List (Action κ ν)) : CallAdmits past a := by
  have here := plain a member
  cases a with
  | registered | answered | failed => exact here.elim
  | sent m =>
    intro id carried
    rw [show m.id? = none from here] at carried
    cases carried
  | _ => trivial

/-- The entries, those being called and the next number agree with the history. -/
structure Entries (s : State κ ν) (log : List (Action κ ν)) : Prop where
  numbered : (registrations log).map Prod.fst = List.range s.execId
  recorded : ∀ id p, s.execCallbacks id = some p → (id, p) ∈ registrations log
  present : ∀ id p, (id, p) ∈ registrations log → s.execCallbacks id = some p ∨ ∃ data, .answered id p data ∈ log
  given : ∀ id p data, .answered id p data ∈ log → (id, p) ∈ registrations log
  closed : ∀ id, log.foldl (settled id) false = true → s.execCallbacks id = none ∨ id ∈ calledIds s.stack
  calling : ∀ id ∈ calledIds s.stack, ∃ p data, s.execCallbacks id = some p ∧ .answered id p data ∈ log
  distinct : (calledIds s.stack).Nodup

theorem Entries.start : Entries (initial : State κ ν) [] where
  numbered := rfl
  recorded := by simp [initial]
  present := by simp
  given := by simp
  closed := by simp
  calling := by simp [initial, calledIds]
  distinct := List.nodup_nil

namespace Entries

variable {s t : State κ ν} {log out : List (Action κ ν)}

theorem count (entries : Entries s log) : (registrations log).length = s.execId := by
  have lengths := congrArg List.length entries.numbered
  rwa [List.length_map, List.length_range] at lengths

theorem lt_execId (entries : Entries s log) {id : Nat} {p : Pending κ} (made : (id, p) ∈ registrations log) : id < s.execId := by
  have listed := List.mem_map_of_mem (f := Prod.fst) made
  rw [entries.numbered] at listed
  exact List.mem_range.mp listed

/-- A number belongs to one entry. -/
theorem unique (entries : Entries s log) {id : Nat} {p q : Pending κ} (made : (id, p) ∈ registrations log)
    (again : (id, q) ∈ registrations log) : p = q := by
  have distinct : ((registrations log).map Prod.fst).Nodup := by
    rw [entries.numbered]
    exact List.nodup_range
  exact congrArg Prod.snd (List.inj_on_of_nodup_map distinct made again rfl)

theorem lt_of_entry (entries : Entries s log) {id : Nat} {p : Pending κ} (entry : s.execCallbacks id = some p) :
    id < s.execId := entries.lt_execId (entries.recorded id p entry)

/-- Outputs that make no entry. -/
theorem kept (entries : Entries s log) (none : registrations out = [])
    (entry : ∀ id p data, .answered id p data ∈ out → s.execCallbacks id = some p) (number : t.execId = s.execId)
    (same : t.execCallbacks = s.execCallbacks)
    (closed : ∀ id, (log ++ out).foldl (settled id) false = true → s.execCallbacks id = Option.none ∨ id ∈ calledIds t.stack)
    (calling : ∀ id ∈ calledIds t.stack, ∃ p data, s.execCallbacks id = some p ∧ .answered id p data ∈ log ++ out)
    (distinct : (calledIds t.stack).Nodup) : Entries t (log ++ out) := by
  have before : registrations (log ++ out) = registrations log := by rw [registrations_append, none, List.append_nil]
  constructor
  · rw [before, number, entries.numbered]
  · rw [before, same]
    exact entries.recorded
  · rw [before, same]
    exact fun id p made => (entries.present id p made).imp_right fun ⟨data, answered⟩ => ⟨data, List.mem_append_left _ answered⟩
  · rw [before]
    intro id p data answered
    rcases List.mem_append.mp answered with earlier | now
    · exact entries.given id p data earlier
    · exact entries.recorded id p (entry id p data now)
  · rw [same]
    exact closed
  · rw [same]
    exact calling
  · exact distinct

/-- Outputs that do not concern the entries. -/
theorem plain (entries : Entries s log) (plain : ∀ a ∈ out, a.Plain) (number : t.execId = s.execId)
    (same : t.execCallbacks = s.execCallbacks) (calls : calledIds t.stack = calledIds s.stack) : Entries t (log ++ out) := by
  refine entries.kept (registrations_of_plain plain) (fun id p data now => (plain _ now).elim) number same ?_ ?_ ?_
  · intro id settledNow
    rw [List.foldl_append, settled_of_plain plain] at settledNow
    rw [calls]
    exact entries.closed id settledNow
  · intro id called
    rw [calls] at called
    obtain ⟨p, data, entry, answered⟩ := entries.calling id called
    exact ⟨p, data, entry, List.mem_append_left _ answered⟩
  · rw [calls]
    exact entries.distinct

theorem answered_of_settled {id : Nat} (settledNow : log.foldl (settled id) false = true) :
    ∃ p data, .answered id p data ∈ log := by
  induction log using List.reverseRecOn with
  | nil => cases settledNow
  | append_singleton log a ih =>
    rw [List.foldl_append] at settledNow
    have earlier (before : log.foldl (settled id) false = true) : ∃ p data, .answered id p data ∈ log ++ [a] := by
      obtain ⟨p, data, member⟩ := ih before
      exact ⟨p, data, List.mem_append_left _ member⟩
    cases a with
    | answered i p data =>
      rcases Bool.or_eq_true _ _ |>.mp settledNow with here | before
      · obtain rfl := of_decide_eq_true here
        exact ⟨p, data, by simp⟩
      · exact earlier before
    | failed ids =>
      change (if id ∈ ids then false else log.foldl (settled id) false) = true at settledNow
      split at settledNow
      · cases settledNow
      · exact earlier settledNow
    | _ => exact earlier settledNow

theorem lt_of_settled (entries : Entries s log) {id : Nat} (settledNow : log.foldl (settled id) false = true) : id < s.execId := by
  obtain ⟨p, data, answered⟩ := answered_of_settled settledNow
  exact entries.lt_execId (entries.given id p data answered)

theorem registers (entries : Entries s log) (small : s.execId < 2 ^ 53) (m : Outbound ν) (p : Pending κ)
    (number : t.execId = nextId s.execId) (same : t.execCallbacks = Function.update s.execCallbacks s.execId (some p))
    (calls : calledIds t.stack = calledIds s.stack) : Entries t (log ++ [.registered s.execId p, .sent m]) where
  numbered := by
    have next : t.execId = s.execId + 1 := number.trans (if_pos small)
    rw [next, List.range_succ, ← entries.numbered]
    exact (congrArg (List.map Prod.fst) (registrations_append log _)).trans List.map_append
  recorded id q entry := by
    rw [registrations_append]
    rw [same, Function.update_apply] at entry
    split at entry
    · rename_i here
      obtain rfl := Option.some.inj entry
      exact List.mem_append_right _ (here ▸ List.mem_cons_self)
    · exact List.mem_append_left _ (entries.recorded id q entry)
  present id q made := by
    rw [registrations_append] at made
    rw [same]
    rcases List.mem_append.mp made with before | now
    · rw [Function.update_of_ne (entries.lt_execId before).ne]
      exact (entries.present id q before).imp_right fun ⟨data, answered⟩ => ⟨data, List.mem_append_left _ answered⟩
    · obtain ⟨rfl, rfl⟩ : id = s.execId ∧ q = p := by simpa [registrations, Action.registered?] using now
      exact .inl (Function.update_self ..)
  given id q data answered := by
    rw [registrations_append]
    rcases List.mem_append.mp answered with before | now
    · exact List.mem_append_left _ (entries.given id q data before)
    · simp at now
  closed id settledNow := by
    rw [List.foldl_append] at settledNow
    have before : log.foldl (settled id) false = true := settledNow
    rw [same, calls, Function.update_of_ne (entries.lt_of_settled before).ne]
    exact entries.closed id before
  calling id called := by
    rw [calls] at called
    obtain ⟨q, data, entry, answered⟩ := entries.calling id called
    rw [same, Function.update_of_ne (entries.lt_of_entry entry).ne]
    exact ⟨q, data, entry, List.mem_append_left _ answered⟩
  distinct := by
    rw [calls]
    exact entries.distinct

/-- The call of an entry. -/
theorem answers (entries : Entries s log) {id : Nat} {p : Pending κ} (entry : s.execCallbacks id = some p)
    (data : Option ν) (empty : s.stack = []) (number : t.execId = s.execId) (same : t.execCallbacks = s.execCallbacks)
    (calls : calledIds t.stack = [id]) : Entries t (log ++ [.answered id p data]) := by
  refine entries.kept rfl ?_ number same ?_ ?_ ?_
  · intro i q d now
    obtain ⟨rfl, rfl, rfl⟩ : i = id ∧ q = p ∧ d = data := by simpa using now
    exact entry
  · intro i settledNow
    rw [List.foldl_append] at settledNow
    rcases Bool.or_eq_true _ _ |>.mp settledNow with here | before
    · exact .inr (by rw [calls, of_decide_eq_true here]; exact List.mem_cons_self)
    · refine (entries.closed i before).imp_right fun called => ?_
      rw [empty] at called
      cases called
  · intro i called
    rw [calls] at called
    obtain rfl := List.mem_singleton.mp called
    exact ⟨p, data, entry, by simp⟩
  · rw [calls]
    exact List.nodup_singleton id

/-- Functions of entries throw. -/
theorem fails (entries : Entries s log) {ids : List Nat} (here : ∀ id ∈ calledIds s.stack, id ∈ ids)
    (number : t.execId = s.execId) (same : t.execCallbacks = s.execCallbacks) (calls : calledIds t.stack = []) :
    Entries t (log ++ [.failed ids]) := by
  refine entries.kept rfl (by simp) number same ?_ ?_ ?_
  · intro i settledNow
    rw [List.foldl_append] at settledNow
    change (if i ∈ ids then false else log.foldl (settled i) false) = true at settledNow
    split at settledNow
    · cases settledNow
    · rename_i other
      exact .inl ((entries.closed i settledNow).resolve_right fun called => other (here i called))
  · intro i called
    rw [calls] at called
    cases called
  · rw [calls]
    exact List.nodup_nil

/-- `delete channel.execCallbacks[message.id]` -/
theorem forgets (entries : Entries s log) {id : Nat} (number : t.execId = s.execId)
    (calls : calledIds s.stack = id :: calledIds t.stack)
    (cleared : t.execCallbacks = Function.update s.execCallbacks id none) : Entries t log where
  numbered := by rw [number, entries.numbered]
  recorded i q found := by
    rw [cleared, Function.update_apply] at found
    split at found
    · cases found
    · exact entries.recorded i q found
  present i q made := by
    rw [cleared]
    by_cases here : i = id
    · subst here
      obtain ⟨p, data, entry, answered⟩ := entries.calling i (calls ▸ List.mem_cons_self)
      obtain rfl := entries.unique made (entries.recorded i p entry)
      exact .inr ⟨data, answered⟩
    · rw [Function.update_of_ne here]
      exact entries.present i q made
  given := entries.given
  closed i settledNow := by
    rw [cleared]
    by_cases here : i = id
    · exact .inl (here ▸ Function.update_self ..)
    · rw [Function.update_of_ne here]
      refine (entries.closed i settledNow).imp_right fun called => ?_
      rw [calls] at called
      exact (List.mem_cons.mp called).resolve_left here
  calling i called := by
    have distinct := entries.distinct
    rw [calls, List.nodup_cons] at distinct
    obtain ⟨q, data, entry, answered⟩ := entries.calling i (calls ▸ List.mem_cons_of_mem _ called)
    have other : i ≠ id := fun same => distinct.1 (same ▸ called)
    exact ⟨q, data, by rw [cleared, Function.update_of_ne other]; exact entry, answered⟩
  distinct := (calls ▸ entries.distinct).of_cons

theorem step (entries : Entries s log) (small : s.execId < 2 ^ 53) (move : CallMove s t out) : Entries t (log ++ out) := by
  cases move with
  | registers m p _ number same calls => exact entries.registers small m p number same calls
  | @answers id p data out entry empty plain number same calls =>
    have answered : Entries t (log ++ [.answered id p data]) := entries.answers entry data empty number same calls
    have rest := answered.plain (t := t) plain rfl rfl rfl
    rwa [List.append_assoc] at rest
  | @breaks id p data entry empty same =>
    -- the entry is called, and what it throws ends the call
    have answered : Entries { s with stack := [.forget id] } (log ++ [.answered id p data]) :=
      entries.answers entry data empty rfl rfl rfl
    have thrown : Entries { s with stack := [.forget id] } (log ++ [.answered id p data] ++ [.typeError]) :=
      answered.plain (by simp [Action.Plain]) rfl rfl rfl
    have ended : Entries t (log ++ [.answered id p data] ++ [.typeError] ++ [.failed [id]]) :=
      thrown.fails (fun _ called => called) (by rw [same]) (by rw [same]) (by rw [same, empty]; rfl)
    rw [List.append_assoc, List.append_assoc] at ended
    exact ended
  | forgets number calls cleared =>
    rw [List.append_nil]
    exact entries.forgets number calls cleared
  | fails number same calls => exact entries.fails (fun _ called => called) number same calls
  | rests plain number same calls => exact entries.plain plain number same calls

/-- An entry that can be called has not been settled. -/
theorem admits_answered (entries : Entries s log) {id : Nat} {p : Pending κ} (entry : s.execCallbacks id = some p)
    (empty : s.stack = []) (data : Option ν) : CallAdmits log (.answered id p data) := by
  refine ⟨entries.recorded id p entry, ?_⟩
  by_contra settledNow
  rcases entries.closed id (by simpa using settledNow) with gone | called
  · rw [entry] at gone
    cases gone
  · rw [empty] at called
    cases called

theorem admits (entries : Entries s log) (move : CallMove s t out) : Throughout CallAdmits log out := by
  cases move with
  | registers m p numbered =>
    refine ⟨entries.count.symm, ?_, trivial⟩
    intro id carried
    obtain rfl : s.execId = id := Option.some.inj (numbered.symm.trans carried)
    exact ⟨log, p, rfl⟩
  | answers data entry empty plain => exact ⟨entries.admits_answered entry empty data, throughout_of_forall (admits_of_plain plain)⟩
  | breaks data entry empty => exact ⟨entries.admits_answered entry empty data, trivial, trivial, trivial⟩
  | forgets => trivial
  | fails => exact ⟨trivial, trivial⟩
  | rests plain => exact throughout_of_forall (admits_of_plain plain)

end Entries

variable [DecidableEq κ] {objects : ν → Option (List (String × ObjectData ν))}

/-- Numbers below 2^53 are doubles that can be told apart. -/
def Numbered (s : State κ ν) (_ : Event κ ν) : Prop := s.execId < 2 ^ 53

instance (s : State κ ν) (e : Event κ ν) : Decidable (Numbered s e) := inferInstanceAs (Decidable (s.execId < 2 ^ 53))

/-- A page that invokes a method of the object it was given. -/
def greeting : List (Event Nat Nat) :=
  [.construct (some 7), .receive (.response (some 0) (some 0)), .invoke "receiver" "greet" [] (some 8), .finish, .proceed,
    .proceed, .receive (.response (some 1) (some 5)), .finish, .proceed]

end WebRtcDemo.Channel
