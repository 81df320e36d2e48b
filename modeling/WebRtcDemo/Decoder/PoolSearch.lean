import WebRtcDemo.Decoder.PoolCapacity

namespace WebRtcDemo.Decoder

open CInt

/-! `AcquirePoolSlot` one flag at a time. Other threads destroy pictures also
between two of its reads, and between its two loops. -/

/-- The loop of `AcquirePoolSlot` that runs and the slot it reads next.
`disturbed` is not in the code: a picture was destroyed since the call began. -/
structure Search where
  w : Positive
  h : Positive
  converted : Bool
  second : Bool
  next : Nat
  disturbed : Bool

structure SearchState where
  pool : PoolState
  search : Option Search

/-- `look` is one iteration of the loop that runs, or its end. -/
inductive SearchEvent
  | call (w h : Positive) (converted : Bool)
  | look
  | destroy (number : Nat)
  | clearPool
  deriving DecidableEq

/-- `disturbed` is noted at the first picture destroyed during a call. -/
inductive SearchNote
  | allocated
  | disturbed
  deriving DecidableEq

def look (s : PoolState) (q : Search) : SearchState × List SearchNote :=
  if inside : q.next < kPoolSlots then
    let i : Fin kPoolSlots := ⟨q.next, inside⟩
    let skip : SearchState := ⟨s, some { q with next := q.next + 1 }⟩
    if (s.pool i).free = false then (skip, [])
    else if q.second then
      (⟨s.take i ⟨s.allocated, (layoutFor q.w q.h).2⟩ (layoutFor q.w q.h).1 q.converted (s.allocated + 1), none⟩,
        [.allocated])
    else if (s.pool i).layout.width = q.w ∧ (s.pool i).layout.height = q.h then
      match (s.pool i).mem with
      | some mem => (⟨s.take i mem (s.pool i).layout q.converted s.allocated, none⟩, [])
      | none => (skip, [])
    else (skip, [])
  else if q.second then (⟨s, none⟩, [])
  else (⟨s, some { q with second := true, next := 0 }⟩, [])

def Search.disturb (q : Search) : Search := { q with disturbed := true }

def disturbance : Option Search → List SearchNote
  | some q => if q.disturbed then [] else [.disturbed]
  | none => []

/-- The worker clears the pool and calls `AcquirePoolSlot`, one at a time. -/
def searchStep (s : SearchState) : SearchEvent → Option (SearchState × List SearchNote)
  | .call w h converted =>
    match s.search with
    | none => some (⟨s.pool, some ⟨w, h, converted, false, 0, false⟩⟩, [])
    | some _ => none
  | .look => s.search.map (look s.pool)
  | .destroy number => (s.pool.live.find? (·.number = number)).map fun frame =>
    (⟨Decoder.destroy s.pool frame, s.search.map Search.disturb⟩, disturbance s.search)
  | .clearPool =>
    match s.search with
    | none => some (⟨Decoder.clearPool s.pool, none⟩, [])
    | some _ => none

def poolSearch : Machine SearchState SearchEvent SearchNote := ⟨⟨initialPool, none⟩, searchStep⟩

/-- A slot that serves this size without an allocation. -/
def I420PoolSlot.Serves (slot : I420PoolSlot) (w h : Int) : Prop :=
  slot.mem.isSome = true ∧ slot.layout.width = w ∧ slot.layout.height = h

instance (slot : I420PoolSlot) (w h : Int) : Decidable (slot.Serves w h) :=
  inferInstanceAs (Decidable (_ ∧ _ ∧ _))

/-- What a search that was not disturbed knows of the slots behind it. -/
structure Passed (s : PoolState) (q : Search) : Prop where
  first : ∀ i : Fin kPoolSlots, q.second = true ∨ i.val < q.next → (s.pool i).free = true → ¬(s.pool i).Serves q.w q.h
  second : ∀ i : Fin kPoolSlots, q.second = true → i.val < q.next → (s.pool i).free = false

variable {s t : PoolState} {q r : Search}

theorem Passed.start (w h : Positive) (converted : Bool) : Passed s ⟨w, h, converted, false, 0, false⟩ := by
  refine ⟨?_, ?_⟩
  · rintro i (second | before)
    · cases second
    · exact absurd before (Nat.not_lt_zero _)
  · rintro i second
    cases second

/-- One slot further. -/
theorem Passed.skip (passed : Passed s q) {i : Fin kPoolSlots} (here : i.val = q.next)
    (first : (s.pool i).free = true → ¬(s.pool i).Serves q.w q.h)
    (second : q.second = true → (s.pool i).free = false) : Passed s { q with next := q.next + 1 } := by
  have behind {j : Fin kPoolSlots} (before : j.val < q.next + 1) : j.val < q.next ∨ j = i := by
    rcases Nat.lt_succ_iff_lt_or_eq.mp before with less | same
    · exact .inl less
    · exact .inr (Fin.ext (same.trans here.symm))
  refine ⟨?_, ?_⟩
  · rintro j (late | before) free
    · exact passed.first j (.inl late) free
    · rcases behind before with less | rfl
      · exact passed.first j (.inr less) free
      · exact first free
  · intro j late before
    rcases behind before with less | rfl
    · exact passed.second j late less
    · exact second late

/-- The end of the first loop. -/
theorem Passed.turn (passed : Passed s q) (all : kPoolSlots ≤ q.next) :
    Passed s { q with second := true, next := 0 } :=
  ⟨fun i _ => passed.first i (.inr (i.isLt.trans_le all)), fun _ _ before => absurd before (Nat.not_lt_zero _)⟩

/-- The search goes on, ends at a slot of its size, allocates, or ends with
nothing. -/
inductive Look (s : PoolState) (q : Search) : SearchState × List SearchNote → Prop
  | on {r : Search} : r.w = q.w → r.h = q.h → r.converted = q.converted → r.disturbed = q.disturbed →
      (Passed s q → Passed s r) → Look s q (⟨s, some r⟩, [])
  | found {i : Fin kPoolSlots} {mem : Mem} : q.second = false → i.val = q.next → (s.pool i).free = true →
      (s.pool i).mem = some mem → (s.pool i).layout.width = q.w → (s.pool i).layout.height = q.h →
      Look s q (⟨s.take i mem (s.pool i).layout q.converted s.allocated, none⟩, [])
  | fresh {i : Fin kPoolSlots} : q.second = true → i.val = q.next → (s.pool i).free = true →
      Look s q (⟨s.take i ⟨s.allocated, (layoutFor q.w q.h).2⟩ (layoutFor q.w q.h).1 q.converted (s.allocated + 1),
        none⟩, [.allocated])
  | nothing : q.second = true → kPoolSlots ≤ q.next → Look s q (⟨s, none⟩, [])

theorem look_cases (s : PoolState) (q : Search) : Look s q (look s q) := by
  unfold look
  split
  · rename_i inside
    dsimp only
    have skip (first : (s.pool ⟨q.next, inside⟩).free = true → ¬(s.pool ⟨q.next, inside⟩).Serves q.w q.h)
        (second : q.second = true → (s.pool ⟨q.next, inside⟩).free = false) :
        Look s q (⟨s, some { q with next := q.next + 1 }⟩, []) :=
      .on rfl rfl rfl rfl fun passed => passed.skip rfl first second
    split
    · rename_i busy
      refine skip ?_ fun _ => busy
      intro free
      rw [free] at busy
      cases busy
    · rename_i free
      rw [Bool.not_eq_false] at free
      split
      · rename_i late
        exact .fresh late rfl free
      · rename_i early
        rw [Bool.not_eq_true] at early
        have never (late : q.second = true) : (s.pool ⟨q.next, inside⟩).free = false := by
          rw [early] at late
          cases late
        split
        · rename_i fits
          split
          · rename_i mem atMem
            exact .found early rfl free atMem fits.1 fits.2
          · rename_i empty
            refine skip (fun _ serves => ?_) never
            have allocated := serves.1
            rw [empty] at allocated
            cases allocated
        · rename_i differs
          exact skip (fun _ serves => differs serves.2) never
  · rename_i outside
    split
    · rename_i late
      exact .nothing late (Nat.le_of_not_lt outside)
    · exact .on rfl rfl rfl rfl fun passed => passed.turn (Nat.le_of_not_lt outside)

/-! Undisturbed, the two loops read the flags as if at one instant. -/

theorem mem_of_finRange_split {n : Nat} {before after : List (Fin n)} {i j : Fin n}
    (split : List.finRange n = before ++ i :: after) (less : j < i) : j ∈ before := by
  have ordered := List.pairwise_lt_finRange n
  rw [split, List.pairwise_append] at ordered
  have member := List.mem_finRange j
  rw [split, List.mem_append, List.mem_cons] at member
  rcases member with inside | rfl | later
  · exact inside
  · exact absurd less (lt_irrefl _)
  · exact absurd less (List.rel_of_pairwise_cons ordered.2.1 later).not_gt

theorem findMatching_first {w h : Int} {i j : Fin kPoolSlots} {mem : Mem} (found : findMatching s w h = some (i, mem))
    (less : j < i) (free : (s.pool j).free = true) : ¬(s.pool j).Serves w h := by
  obtain ⟨before, k, after, split, here, passed⟩ := List.findSome?_eq_some_iff.mp found
  have same : k = i := by
    split at here
    · obtain ⟨_, _, pair⟩ := Option.map_eq_some_iff.mp here
      exact congrArg Prod.fst pair
    · cases here
  rintro ⟨allocated, fits⟩
  have missed := passed j (mem_of_finRange_split (same ▸ split) less)
  rw [if_pos ⟨free, fits⟩, Option.map_eq_none_iff] at missed
  rw [missed] at allocated
  cases allocated

theorem not_serves_of_missing {w h : Int} {i : Fin kPoolSlots} (missing : findMatching s w h = none)
    (free : (s.pool i).free = true) : ¬(s.pool i).Serves w h := by
  rintro ⟨allocated, fits⟩
  have passed := List.findSome?_eq_none_iff.mp missing i (List.mem_finRange i)
  rw [if_pos ⟨free, fits⟩, Option.map_eq_none_iff] at passed
  rw [passed] at allocated
  cases allocated

theorem findFree_first {i j : Fin kPoolSlots} (found : findFree s = some i) (less : j < i) :
    (s.pool j).free = false := by
  obtain ⟨_, before, after, split, passed⟩ := List.find?_eq_some_iff_append.mp found
  simpa using passed j (mem_of_finRange_split split less)

theorem not_free_of_findFree {i : Fin kPoolSlots} (full : findFree s = none) (free : (s.pool i).free = true) : False := by
  have passed := List.find?_eq_none.mp full i (List.mem_finRange i)
  exact passed free

/-- A search that was not disturbed ends as `acquirePoolSlot` does. -/
theorem look_undisturbed (passed : Passed s q) {result : SearchState × List SearchNote} (looked : Look s q result)
    (ended : result.1.search = none) : result.1.pool = acquire s q.w q.h q.converted := by
  have serves {j : Fin kPoolSlots} {mem : Mem} (matching : findMatching s q.w q.h = some (j, mem)) :
      (s.pool j).Serves q.w q.h := by
    have atMem := (findMatching_some matching).2
    exact ⟨by rw [atMem]; rfl, findMatching_size matching⟩
  cases looked with
  | on => cases ended
  | @found i mem early here free atMem width height =>
    have fits : (s.pool i).Serves q.w q.h := ⟨by rw [atMem]; rfl, width, height⟩
    rcases acquire_cases s q.w q.h q.converted with
      ⟨j, other, matching, freeJ, atOther, taken⟩ | ⟨missing, _⟩ | ⟨full, _⟩
    · rcases lt_trichotomy j i with less | rfl | greater
      · exact absurd (serves matching) (passed.first j (.inr (here ▸ less)) freeJ)
      · cases Option.some.inj (atMem.symm.trans atOther)
        exact taken.symm
      · exact absurd fits (findMatching_first matching greater free)
    · exact absurd fits (not_serves_of_missing missing free)
    · exact (not_free_of_findFree full free).elim
  | @fresh i late here free =>
    rcases acquire_cases s q.w q.h q.converted with
      ⟨j, other, matching, freeJ, _⟩ | ⟨_, j, found, freeJ, taken⟩ | ⟨full, _⟩
    · exact absurd (serves matching) (passed.first j (.inl late) freeJ)
    · rcases lt_trichotomy j i with less | rfl | greater
      · rw [passed.second j late (here ▸ less)] at freeJ
        cases freeJ
      · exact taken.symm
      · rw [findFree_first found greater] at free
        cases free
    · exact (not_free_of_findFree full free).elim
  | nothing late all =>
    rcases acquire_cases s q.w q.h q.converted with ⟨j, _, matching, freeJ, _⟩ | ⟨_, j, _, freeJ, _⟩ | ⟨_, refused⟩
    · exact absurd (serves matching) (passed.first j (.inl late) freeJ)
    · rw [passed.second j late (j.isLt.trans_le all)] at freeJ
      cases freeJ
    · exact refused.symm

/-- While no call is disturbed, the pool goes through states of `i420Pool`. -/
theorem pool_of_undisturbed {s : SearchState} {log : List SearchNote} (reach : poolSearch.Reach Machine.Always s log)
    (calm : .disturbed ∉ log) : ∃ out, i420Pool.Reach Machine.Always s.pool out := by
  have invariant := reach.invariant (P := fun s log => .disturbed ∉ log →
    (∃ out, i420Pool.Reach Machine.Always s.pool out) ∧
      ∀ q, s.search = some q → q.disturbed = false ∧ Passed s.pool q) ?_ ?_
  · exact (invariant calm).1
  · exact fun _ => ⟨⟨[], .start⟩, fun q searching => by cases searching⟩
  · intro s log e t out ih _ run calm
    obtain ⟨before, now⟩ := not_or.mp (List.mem_append.not.mp calm)
    obtain ⟨⟨made, pool⟩, searching⟩ := ih before
    have step {e : PoolEvent} {p : PoolState} (moved : poolStep s.pool e = some (p, [])) :
        ∃ out, i420Pool.Reach Machine.Always p out := ⟨_, .next pool trivial moved⟩
    cases e with
    | call w h converted =>
      simp only [poolSearch, searchStep] at run
      split at run
      · cases run
        refine ⟨⟨made, pool⟩, fun q begun => ?_⟩
        cases begun
        exact ⟨rfl, .start w h converted⟩
      · cases run
    | look =>
      obtain ⟨q, active, looked⟩ := Option.map_eq_some_iff.mp run
      obtain ⟨undisturbed, passed⟩ := searching q active
      have what := look_cases s.pool q
      rw [looked] at what
      have ended := look_undisturbed passed what
      cases what with
      | on _ _ _ same kept =>
        refine ⟨⟨made, pool⟩, fun r going => ?_⟩
        cases going
        exact ⟨same.trans undisturbed, kept passed⟩
      | found | fresh | nothing =>
        refine ⟨?_, fun r going => by cases going⟩
        rw [ended rfl]
        exact step (e := .acquire q.w q.h q.converted) rfl
    | destroy number =>
      obtain ⟨frame, found, moved⟩ := Option.map_eq_some_iff.mp run
      cases moved
      cases idle : s.search with
      | none =>
        refine ⟨step (e := .destroy number) ?_, fun r going => by cases going⟩
        simp [poolStep, found]
      | some q =>
        rw [idle, disturbance, (searching q idle).1] at now
        exact absurd (List.mem_singleton_self _) now
    | clearPool =>
      simp only [poolSearch, searchStep] at run
      split at run
      · cases run
        exact ⟨step (e := .clearPool) rfl, fun r going => by cases going⟩
      · cases run

/-! How often a buffer is allocated. -/

/-- The slots that an allocation could still turn to this size. -/
def misfits (s : PoolState) (w h : Int) : Finset (Fin kPoolSlots) := Finset.univ.filter fun i => ¬(s.pool i).Serves w h

theorem mem_misfits {w h : Int} {i : Fin kPoolSlots} : i ∈ misfits s w h ↔ ¬(s.pool i).Serves w h := by
  simp [misfits]

theorem card_misfits_le (s : PoolState) (w h : Int) : (misfits s w h).card ≤ kPoolSlots :=
  (Finset.card_le_univ _).trans_eq (by simp)

/-- Handing out a slot that serves leaves the others as they were. -/
theorem misfits_take_subset {w h : Int} {i : Fin kPoolSlots} {mem : Mem} {layout : Layout} {converted : Bool}
    {allocated : Nat} (width : layout.width = w) (height : layout.height = h) :
    misfits (s.take i mem layout converted allocated) w h ⊆ (misfits s w h).erase i := by
  intro j misfit
  rw [mem_misfits] at misfit
  rw [Finset.mem_erase, mem_misfits]
  by_cases here : j = i
  · rw [here, take_pool_self] at misfit
    exact absurd ⟨rfl, width, height⟩ misfit
  · rw [take_pool_other here] at misfit
    exact ⟨here, misfit⟩

theorem misfits_destroy (s : PoolState) (frame : PooledI420) (w h : Int) :
    misfits (destroy s frame) w h = misfits s w h := by
  ext i
  rw [mem_misfits, mem_misfits]
  unfold I420PoolSlot.Serves
  rw [destroy_keeps I420PoolSlot.mem (fun _ => rfl), destroy_keeps I420PoolSlot.layout (fun _ => rfl)]

/-- Pictures of one size are asked for, and the pool is not cleared. -/
def InStretch (w h : Positive) : SearchEvent → Prop
  | .call w' h' _ => w' = w ∧ h' = h
  | .look => True
  | .destroy _ => True
  | .clearPool => False

instance (w h : Positive) : ∀ e, Decidable (InStretch w h e)
  | .call w' h' _ => inferInstanceAs (Decidable (w' = w ∧ h' = h))
  | .look => isTrue trivial
  | .destroy _ => isTrue trivial
  | .clearPool => isFalse id

structure Stretch (w h : Positive) (s : SearchState) : Prop where
  width : ∀ q, s.search = some q → q.w = w
  height : ∀ q, s.search = some q → q.h = h
  passed : ∀ q, s.search = some q → q.disturbed = false → Passed s.pool q

/-- A call that was disturbed may allocate where a slot serves. -/
def credit : Option Search → Nat
  | some q => if q.disturbed then 1 else 0
  | none => 0

/-- What the stretch may still allocate. -/
def budget (w h : Positive) (s : SearchState) : Nat := (misfits s.pool w h).card + credit s.search

theorem Stretch.idle {s : PoolState} (w h : Positive) : Stretch w h ⟨s, none⟩ := by
  refine ⟨?_, ?_, ?_⟩ <;>
  · intro q going
    cases going

theorem Stretch.looked {s : PoolState} {w h : Positive} (held : Stretch w h ⟨s, some q⟩)
    {result : SearchState × List SearchNote} (looked : Look s q result) :
    Stretch w h result.1 ∧
      result.2.count .allocated + budget w h result.1 ≤ budget w h ⟨s, some q⟩ + result.2.count .disturbed := by
  have width := held.width q rfl
  have height := held.height q rfl
  have passed := held.passed q rfl
  cases looked with
  | on sameW sameH _ sameD kept =>
    refine ⟨⟨?_, ?_, ?_⟩, by simp [budget, credit, sameD]⟩
    · rintro _ ⟨⟩
      exact sameW.trans width
    · rintro _ ⟨⟩
      exact sameH.trans height
    · rintro _ ⟨⟩ calm
      exact kept (passed (sameD.symm.trans calm))
  | @found i mem _ _ _ _ fitsW fitsH =>
    have fewer : misfits (s.take i mem (s.pool i).layout q.converted s.allocated) w h ⊆ misfits s w h :=
      (misfits_take_subset (width ▸ fitsW) (height ▸ fitsH)).trans (Finset.erase_subset _ _)
    have less := Finset.card_le_card fewer
    refine ⟨.idle w h, ?_⟩
    simp only [budget, credit, List.count_nil]
    omega
  | @fresh i late _ free =>
    subst width height
    have fewer : misfits (s.take i ⟨s.allocated, (layoutFor q.w q.h).2⟩ (layoutFor q.w q.h).1 q.converted
      (s.allocated + 1)) q.w q.h ⊆ (misfits s q.w q.h).erase i := misfits_take_subset rfl rfl
    have less := Finset.card_le_card fewer
    refine ⟨.idle q.w q.h, ?_⟩
    cases calm : q.disturbed with
    | false =>
      have misfit : i ∈ misfits s q.w q.h := mem_misfits.mpr ((passed calm).first i (.inl late) free)
      have one := Finset.card_erase_add_one misfit
      simp only [budget, credit, calm, List.count_singleton_self, List.count_singleton]
      simp only [reduceCtorEq, beq_iff_eq, if_false, Bool.false_eq_true]
      omega
    | true =>
      have all := Finset.card_erase_le (s := misfits s q.w q.h) (a := i)
      simp only [budget, credit, calm, List.count_singleton_self, List.count_singleton]
      simp only [reduceCtorEq, beq_iff_eq, if_false, if_true]
      omega
  | nothing => exact ⟨.idle w h, by simp [budget, credit]⟩

theorem Stretch.disturbed {s : PoolState} {w h : Positive} {search : Option Search} (held : Stretch w h ⟨s, search⟩)
    (frame : PooledI420) :
    Stretch w h ⟨destroy s frame, search.map Search.disturb⟩ ∧
      budget w h ⟨destroy s frame, search.map Search.disturb⟩ ≤
        budget w h ⟨s, search⟩ + (disturbance search).count .disturbed := by
  cases search with
  | none => exact ⟨.idle w h, by simp [budget, credit, misfits_destroy]⟩
  | some q =>
    refine ⟨⟨?_, ?_, ?_⟩, ?_⟩
    · rintro _ ⟨⟩
      exact held.width q rfl
    · rintro _ ⟨⟩
      exact held.height q rfl
    · rintro _ ⟨⟩ calm
      cases calm
    · cases before : q.disturbed <;> simp [budget, credit, misfits_destroy, Search.disturb, disturbance, before]

theorem Stretch.step {s t : SearchState} {w h : Positive} {e : SearchEvent} {out : List SearchNote}
    (held : Stretch w h s) (inside : InStretch w h e) (run : searchStep s e = some (t, out)) :
    Stretch w h t ∧ out.count .allocated + budget w h t ≤ budget w h s + out.count .disturbed := by
  obtain ⟨pool, search⟩ := s
  cases e with
  | call w' h' converted =>
    obtain ⟨rfl, rfl⟩ := inside
    cases search with
    | none =>
      cases run
      refine ⟨⟨?_, ?_, ?_⟩, by simp [budget, credit]⟩
      · rintro _ ⟨⟩
        rfl
      · rintro _ ⟨⟩
        rfl
      · rintro _ ⟨⟩ _
        exact .start w' h' converted
    | some q => cases run
  | look =>
    cases search with
    | none => cases run
    | some q =>
      have what := look_cases pool q
      rw [show look pool q = (t, out) from Option.some.inj run] at what
      exact held.looked what
  | destroy number =>
    obtain ⟨frame, _, moved⟩ := Option.map_eq_some_iff.mp run
    cases moved
    obtain ⟨still, spent⟩ := held.disturbed frame
    refine ⟨still, ?_⟩
    have none : (disturbance search).count .allocated = 0 := by
      cases search with
      | none => rfl
      | some q => cases before : q.disturbed <;> simp [disturbance, before]
    dsimp only
    omega
  | clearPool => exact inside.elim

theorem Stretch.exec {s t : SearchState} {w h : Positive} {es : List SearchEvent} {log : List SearchNote}
    (held : Stretch w h s) (stretch : ∀ e ∈ es, InStretch w h e) (run : poolSearch.exec s es = some (t, log)) :
    log.count .allocated + budget w h t ≤ budget w h s + log.count .disturbed := by
  induction es generalizing s log with
  | nil =>
    cases run
    simp
  | cons e es ih =>
    obtain ⟨middle, out, rest, first, later, rfl⟩ := Machine.exec_cons run
    obtain ⟨here, there⟩ := List.forall_mem_cons.mp stretch
    obtain ⟨still, now⟩ := held.step here first
    have after := ih still there later
    rw [List.count_append, List.count_append]
    omega

/-- While pictures of one size are asked for, the pool allocates at most six
buffers, and one more for each call during which a picture was destroyed. -/
theorem allocations_le {s t : SearchState} (w h : Positive) {es : List SearchEvent} {log : List SearchNote}
    (idle : s.search = none) (stretch : ∀ e ∈ es, InStretch w h e) (run : poolSearch.exec s es = some (t, log)) :
    log.count .allocated ≤ kPoolSlots + log.count .disturbed := by
  obtain ⟨pool, search⟩ := s
  cases idle
  have bound := (Stretch.idle w h).exec stretch run
  have room := card_misfits_le pool w h
  simp only [budget, credit] at bound
  omega

/-- One call for which all six slots are read, and a second one that finds the
first slot given back between the loops. -/
def sevenCalls : List SearchEvent :=
  let ask : SearchEvent := .call ⟨320, by decide⟩ ⟨240, by decide⟩ true
  let asked (busy : Nat) : List SearchEvent := ask :: List.replicate (7 + busy + 1) .look
  asked 0 ++ asked 1 ++ asked 2 ++ asked 3 ++ asked 4 ++ asked 5 ++
    (ask :: List.replicate 6 .look ++ [.destroy 0, .look, .look])

theorem allocations_le_seven : ∃ log : List SearchNote, log.count .allocated = 7 ∧ log.count .disturbed = 1 ∧
    log.count .allocated ≤ kPoolSlots + log.count .disturbed := by
  refine ⟨_, ?_, ?_, allocations_le ⟨320, by decide⟩ ⟨240, by decide⟩ rfl (by decide)
    (show poolSearch.exec poolSearch.init sevenCalls = some (_, _) from rfl)⟩ <;> decide

end WebRtcDemo.Decoder
