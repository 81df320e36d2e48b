import Mathlib.Data.Finset.Card
import WebRtcDemo.Decoder.PoolExclusive

namespace WebRtcDemo.Decoder

open CInt

/-! How far the six slots of the pool go, also where buffers outlive it. -/

/-- Buffers are numbered apart, and every slot that is not free has one. -/
structure Occupied (s : PoolState) : Prop where
  fresh : ∀ f ∈ s.live, f.number < s.acquired
  numbers : (s.live.map (·.number)).Nodup
  holder : ∀ i, (s.pool i).free = false → ∃ f ∈ s.live, f.flag = i

variable {s t : PoolState} {log out : List Empty}

theorem Occupied.take (occupied : Occupied s) (i : Fin kPoolSlots) (mem : Mem) (layout : Layout) (converted : Bool)
    (allocated : Nat) : Occupied (s.take i mem layout converted allocated) := by
  refine ⟨?_, ?_, ?_⟩
  · intro f inside
    rcases mem_take_live inside with old | ⟨_, rfl⟩
    · exact (occupied.fresh f old).trans (Nat.lt_succ_self _)
    · exact Nat.lt_succ_self _
  · cases converted with
    | false => exact occupied.numbers
    | true =>
      have new : s.acquired ∉ s.live.map (·.number) := by
        intro inside
        obtain ⟨f, old, same⟩ := List.mem_map.mp inside
        exact absurd same (occupied.fresh f old).ne
      simpa [PoolState.take, List.nodup_append] using
        ⟨occupied.numbers, fun f old same => new (List.mem_map.mpr ⟨f, old, same⟩)⟩
  · intro j taken
    by_cases here : j = i
    · rw [here, take_pool_self, Bool.not_eq_false'] at taken
      exact ⟨⟨s.acquired, mem, layout, i⟩, by simp [PoolState.take, taken], here.symm⟩
    · rw [take_pool_other here] at taken
      obtain ⟨f, old, flag⟩ := occupied.holder j taken
      exact ⟨f, take_live_of_mem old, flag⟩

theorem Occupied.destroy (occupied : Occupied s) {frame : PooledI420} (member : frame ∈ s.live) :
    Occupied (destroy s frame) := by
  have fewer : (Decoder.destroy s frame).live.Sublist s.live := List.filter_sublist
  refine ⟨fun f inside => occupied.fresh f (fewer.subset inside), occupied.numbers.sublist (fewer.map _), ?_⟩
  intro j taken
  have other : j ≠ frame.flag := by
    rintro rfl
    rw [destroy_pool_self] at taken
    cases taken
  rw [destroy_pool_other s other] at taken
  obtain ⟨f, old, flag⟩ := occupied.holder j taken
  refine ⟨f, List.mem_filter.mpr ⟨old, ?_⟩, flag⟩
  have different : f.number ≠ frame.number := by
    intro same
    cases List.inj_on_of_nodup_map occupied.numbers old member same
    exact other flag.symm
  simpa using different

theorem Occupied.step {e : PoolEvent} (occupied : Occupied s) (run : poolStep s e = some (t, out)) : Occupied t := by
  cases e with
  | acquire w h converted =>
    cases run
    rcases acquire_cases s w h converted with
      ⟨i, mem, _, _, _, taken⟩ | ⟨_, i, _, _, taken⟩ | ⟨_, refused⟩
    · rw [taken]
      exact occupied.take ..
    · rw [taken]
      exact occupied.take ..
    · rw [refused]
      exact occupied
  | destroy number =>
    obtain ⟨frame, member, _, rfl⟩ := destroy_of_step run
    exact occupied.destroy member
  | clearPool =>
    cases run
    exact ⟨occupied.fresh, occupied.numbers, fun i taken => by cases taken⟩

theorem occupied_initial : Occupied initialPool := by
  refine ⟨?_, List.nodup_nil, ?_⟩
  · intro f inside
    cases inside
  · intro i taken
    cases taken

theorem occupied_of_reach (reach : i420Pool.Reach Machine.Always s log) : Occupied s :=
  reach.invariant (P := fun s _ => Occupied s) occupied_initial fun _ _ _ _ _ occupied _ run => occupied.step run

/-- Six slots that are all taken have six buffers. -/
theorem Occupied.live_of_full (occupied : Occupied s) (full : findFree s = none) : kPoolSlots ≤ s.live.length := by
  have taken (i : Fin kPoolSlots) : (s.pool i).free = false := by
    simpa using List.find?_eq_none.mp full i (List.mem_finRange i)
  have all : (Finset.univ : Finset (Fin kPoolSlots)) ⊆ (s.live.map (·.flag)).toFinset := by
    intro i _
    obtain ⟨f, inside, rfl⟩ := occupied.holder i (taken i)
    exact List.mem_toFinset.mpr (List.mem_map.mpr ⟨f, inside, rfl⟩)
  calc kPoolSlots = (Finset.univ : Finset (Fin kPoolSlots)).card := by simp
    _ ≤ (s.live.map (·.flag)).toFinset.card := Finset.card_le_card all
    _ ≤ (s.live.map (·.flag)).length := List.toFinset_card_le _
    _ = s.live.length := List.length_map ..

/-- A slot found for this size has this size. -/
theorem findMatching_size {w h : Int} {i : Fin kPoolSlots} {mem : Mem} (found : findMatching s w h = some (i, mem)) :
    (s.pool i).layout.width = w ∧ (s.pool i).layout.height = h := by
  obtain ⟨j, _, here⟩ := List.exists_of_findSome?_eq_some found
  split at here
  · rename_i fits
    obtain ⟨m, _, same⟩ := Option.map_eq_some_iff.mp here
    cases same
    exact fits.2
  · cases here

/-- While fewer than six pictures of the pool are in use, whichever they are
and whatever was cleared in between, the pool has a free slot to hand out, and
it hands it out with the size that was asked for. -/
theorem acquirePoolSlot_of_live_lt (reach : i420Pool.Reach Machine.Always s log) (few : s.live.length < kPoolSlots)
    (w h : Int) : ∃ t r, acquirePoolSlot s w h = some (t, r) ∧ (s.pool r.flag).free = true ∧
      (t.pool r.flag).free = false ∧ r.layout.width = w ∧ r.layout.height = h := by
  unfold acquirePoolSlot
  cases matching : findMatching s w h with
  | some found =>
    obtain ⟨i, mem⟩ := found
    obtain ⟨width, height⟩ := findMatching_size matching
    refine ⟨_, _, rfl, (findMatching_some matching).1, ?_, width, height⟩
    simp [PoolState.setSlot]
  | none =>
    cases available : findFree s with
    | none => exact absurd few (Nat.not_lt.mpr ((occupied_of_reach reach).live_of_full available))
    | some i =>
      refine ⟨_, _, rfl, findFree_some available, ?_, rfl, rfl⟩
      simp [PoolState.setSlot]

/-- A picture that outlives the pool's clearing, and four of the new codec. -/
theorem acquirePoolSlot_of_live_lt_five :
    ∃ s : PoolState, s.live.length = 5 ∧ ∃ t r, acquirePoolSlot s 640 480 = some (t, r) ∧ (s.pool r.flag).free = true ∧
      (t.pool r.flag).free = false ∧ r.layout.width = 640 ∧ r.layout.height = 480 := by
  refine ⟨_, ?_, acquirePoolSlot_of_live_lt (.ofExec _
    [.acquire ⟨320, by decide⟩ ⟨240, by decide⟩ true, .clearPool, .acquire ⟨640, by decide⟩ ⟨480, by decide⟩ true,
      .acquire ⟨640, by decide⟩ ⟨480, by decide⟩ true, .acquire ⟨640, by decide⟩ ⟨480, by decide⟩ true,
      .acquire ⟨640, by decide⟩ ⟨480, by decide⟩ true] rfl (Machine.meets_always _ _)) ?_ 640 480⟩ <;> decide

end WebRtcDemo.Decoder
