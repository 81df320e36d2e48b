import WebRtcDemo.Decoder.Pool

namespace WebRtcDemo.Decoder

open CInt

/-- No two live buffers share memory, a slot is not free while its current
acquisition is live, and all planes are where they should be. -/
structure Exclusive (s : PoolState) : Prop where
  apart : s.live.Pairwise fun f g => f.mem.id ≠ g.mem.id
  held : ∀ f ∈ s.live, (s.pool f.flag).current = some f.number → (s.pool f.flag).free = false
  slotPlanes : ∀ i mem, (s.pool i).mem = some mem → Planes (s.pool i).layout mem.bytes
  planes : ∀ f ∈ s.live, Planes f.layout f.mem.bytes

/-- A buffer is destroyed while it is its slot's current acquisition, or while
the slot is free anyway; and nothing is allocated for the largest `int`. -/
def ReleaseOwn (s : PoolState) : PoolEvent → Prop
  | .acquire w h _ => findMatching s w h = none → findFree s ≠ none → w.val ≠ maxInt ∧ h.val ≠ maxInt
  | .destroy number => ∀ f ∈ s.live, f.number = number →
    (s.pool f.flag).current = some number ∨ (s.pool f.flag).free = true
  | .clearPool => True

instance (s : PoolState) : ∀ e, Decidable (ReleaseOwn s e)
  | .acquire w h _ =>
    inferInstanceAs (Decidable (findMatching s w h = none → findFree s ≠ none → w.val ≠ maxInt ∧ h.val ≠ maxInt))
  | .destroy number => inferInstanceAs (Decidable (∀ f ∈ s.live, f.number = number →
    (s.pool f.flag).current = some number ∨ (s.pool f.flag).free = true))
  | .clearPool => isTrue trivial

/-- Slot `i` is handed out with this memory and layout. -/
def PoolState.take (s : PoolState) (i : Fin kPoolSlots) (mem : Mem) (layout : Layout) (converted : Bool)
    (allocated : Nat) : PoolState where
  pool := Function.update s.pool i ⟨some mem, layout, !converted, some s.acquired⟩
  live := if converted then s.live ++ [⟨s.acquired, mem, layout, i⟩] else s.live
  acquired := s.acquired + 1
  allocated := allocated

theorem findMatching_some {s : PoolState} {w h : Int} {i : Fin kPoolSlots} {mem : Mem}
    (found : findMatching s w h = some (i, mem)) : (s.pool i).free = true ∧ (s.pool i).mem = some mem := by
  obtain ⟨j, _, here⟩ := List.exists_of_findSome?_eq_some found
  split at here
  · rename_i fits
    obtain ⟨m, atMem, same⟩ := Option.map_eq_some_iff.mp here
    cases same
    exact ⟨fits.1, atMem⟩
  · cases here

theorem findFree_some {s : PoolState} {i : Fin kPoolSlots} (found : findFree s = some i) : (s.pool i).free = true := by
  have here := List.find?_some (p := fun i => (s.pool i).free) found
  exact here

/-- A slot of the right size, else a new allocation in any free slot, else nothing. -/
theorem acquire_cases (s : PoolState) (w h : Int) (converted : Bool) :
    (∃ i mem, findMatching s w h = some (i, mem) ∧ (s.pool i).free = true ∧ (s.pool i).mem = some mem ∧
        acquire s w h converted = s.take i mem (s.pool i).layout converted s.allocated) ∨
      (findMatching s w h = none ∧ ∃ i, findFree s = some i ∧ (s.pool i).free = true ∧
        acquire s w h converted =
          s.take i ⟨s.allocated, (layoutFor w h).2⟩ (layoutFor w h).1 converted (s.allocated + 1)) ∨
      findFree s = none ∧ acquire s w h converted = s := by
  unfold acquire acquirePoolSlot
  cases matching : findMatching s w h with
  | some found =>
    obtain ⟨i, mem⟩ := found
    obtain ⟨free, atMem⟩ := findMatching_some matching
    refine .inl ⟨i, mem, rfl, free, atMem, ?_⟩
    cases converted with
    | true => simp [PoolState.take, PoolState.setSlot, atMem]
    | false => simp [PoolState.take, PoolState.setSlot, PoolState.setFree, atMem]
  | none =>
    cases available : findFree s with
    | none => exact .inr (.inr ⟨rfl, rfl⟩)
    | some i =>
      refine .inr (.inl ⟨rfl, i, rfl, findFree_some available, ?_⟩)
      cases converted with
      | true => simp [PoolState.take, PoolState.setSlot]
      | false => simp [PoolState.take, PoolState.setSlot, PoolState.setFree]

/-- Every slot that is not free has a live holder, and a slot's memory is in no
live buffer but its holder. -/
structure Tracked (s : PoolState) : Prop where
  exclusive : Exclusive s
  fresh : ∀ f ∈ s.live, f.number < s.acquired ∧ f.mem.id < s.allocated
  freshSlot : ∀ i mem, (s.pool i).mem = some mem → mem.id < s.allocated
  numbers : (s.live.map (·.number)).Nodup
  holder : ∀ i, (s.pool i).free = false → ∃ f ∈ s.live, f.flag = i ∧ (s.pool i).current = some f.number
  shares : ∀ f ∈ s.live, ∀ i mem, (s.pool i).mem = some mem → mem.id = f.mem.id →
    f.flag = i ∧ (s.pool i).current = some f.number
  slotsApart : ∀ i j m n, (s.pool i).mem = some m → (s.pool j).mem = some n → m.id = n.id → i = j

theorem Tracked.number_inj {s : PoolState} (inv : Tracked s) {f g : PooledI420} (memF : f ∈ s.live)
    (memG : g ∈ s.live) (same : f.number = g.number) : f = g :=
  List.inj_on_of_nodup_map inv.numbers memF memG same

/-- The memory of a free slot is in no live buffer. -/
theorem Tracked.unshared {s : PoolState} (inv : Tracked s) {i : Fin kPoolSlots} {mem : Mem}
    (free : (s.pool i).free = true) (atMem : (s.pool i).mem = some mem) : ∀ f ∈ s.live, f.mem.id ≠ mem.id := by
  intro f member same
  obtain ⟨rfl, current⟩ := inv.shares f member i mem atMem same.symm
  rw [inv.exclusive.held f member current] at free
  cases free

section Take
variable {s : PoolState} {i : Fin kPoolSlots} {mem : Mem} {layout : Layout} {converted : Bool} {allocated : Nat}

theorem take_pool_self :
    (s.take i mem layout converted allocated).pool i = ⟨some mem, layout, !converted, some s.acquired⟩ :=
  Function.update_self ..

theorem take_pool_other {j : Fin kPoolSlots} (other : j ≠ i) :
    (s.take i mem layout converted allocated).pool j = s.pool j :=
  Function.update_of_ne other ..

theorem mem_take_live {f : PooledI420} (member : f ∈ (s.take i mem layout converted allocated).live) :
    f ∈ s.live ∨ converted = true ∧ f = ⟨s.acquired, mem, layout, i⟩ := by
  cases converted with
  | false => exact .inl member
  | true => exact (List.mem_append.mp member).imp id fun last => ⟨rfl, List.mem_singleton.mp last⟩

theorem take_live_of_mem {f : PooledI420} (member : f ∈ s.live) :
    f ∈ (s.take i mem layout converted allocated).live := by
  cases converted with
  | false => exact member
  | true => exact List.mem_append_left _ member

/-- The slot has the new memory, the others have theirs. -/
theorem take_slot_mem {j : Fin kPoolSlots} {m : Mem}
    (atMem : ((s.take i mem layout converted allocated).pool j).mem = some m) :
    j = i ∧ m = mem ∨ j ≠ i ∧ (s.pool j).mem = some m := by
  by_cases here : j = i
  · rw [here, take_pool_self] at atMem
    exact .inl ⟨here, (Option.some.inj atMem).symm⟩
  · rw [take_pool_other here] at atMem
    exact .inr ⟨here, atMem⟩

theorem Tracked.take_apart (inv : Tracked s) (unshared : ∀ f ∈ s.live, f.mem.id ≠ mem.id) :
    (s.take i mem layout converted allocated).live.Pairwise fun f g => f.mem.id ≠ g.mem.id := by
  cases converted with
  | false => exact inv.exclusive.apart
  | true =>
    refine List.pairwise_append.mpr ⟨inv.exclusive.apart, List.pairwise_singleton .., ?_⟩
    intro f member g last
    cases List.mem_singleton.mp last
    exact unshared f member

theorem Tracked.take_numbers (inv : Tracked s) :
    ((s.take i mem layout converted allocated).live.map (·.number)).Nodup := by
  cases converted with
  | false => exact inv.numbers
  | true =>
    have new : s.acquired ∉ s.live.map (·.number) := by
      intro inside
      obtain ⟨f, member, same⟩ := List.mem_map.mp inside
      have past := (inv.fresh f member).1
      omega
    simp only [PoolState.take, if_true, List.map_append, List.map_cons, List.map_nil]
    exact List.nodup_append.mpr ⟨inv.numbers, List.nodup_singleton _, fun a old b last equal =>
      new (List.mem_singleton.mp last ▸ equal ▸ old)⟩

theorem Tracked.take_exclusive (inv : Tracked s) (unshared : ∀ f ∈ s.live, f.mem.id ≠ mem.id)
    (planes : Planes layout mem.bytes) : Exclusive (s.take i mem layout converted allocated) := by
  refine ⟨inv.take_apart unshared, ?_, ?_, ?_⟩
  · intro f member current
    by_cases here : f.flag = i
    · rw [here, take_pool_self] at current
      rw [here, take_pool_self]
      rcases mem_take_live member with old | ⟨rfl, _⟩
      · have past := (inv.fresh f old).1
        have same : s.acquired = f.number := Option.some.inj current
        omega
      · rfl
    · rcases mem_take_live member with old | ⟨_, rfl⟩
      · rw [take_pool_other here] at current
        rw [take_pool_other here]
        exact inv.exclusive.held f old current
      · exact absurd rfl here
  · intro j m atMem
    rcases take_slot_mem atMem with ⟨rfl, rfl⟩ | ⟨other, old⟩
    · rw [take_pool_self]
      exact planes
    · rw [take_pool_other other]
      exact inv.exclusive.slotPlanes j m old
  · intro f member
    rcases mem_take_live member with old | ⟨_, rfl⟩
    · exact inv.exclusive.planes f old
    · exact planes

/-- Handing out a free slot with memory that nobody else has. -/
theorem Tracked.take (inv : Tracked s) (converted : Bool) (grows : s.allocated ≤ allocated) (bound : mem.id < allocated)
    (unshared : ∀ f ∈ s.live, f.mem.id ≠ mem.id)
    (others : ∀ j, j ≠ i → ∀ m, (s.pool j).mem = some m → m.id ≠ mem.id) (planes : Planes layout mem.bytes) :
    Tracked (s.take i mem layout converted allocated) := by
  refine ⟨inv.take_exclusive unshared planes, ?_, ?_, inv.take_numbers, ?_, ?_, ?_⟩
  · intro f member
    rcases mem_take_live member with old | ⟨_, rfl⟩
    · have past := inv.fresh f old
      exact ⟨Nat.lt_succ_of_lt past.1, Nat.lt_of_lt_of_le past.2 grows⟩
    · exact ⟨Nat.lt_succ_self _, bound⟩
  · intro j m atMem
    rcases take_slot_mem atMem with ⟨rfl, rfl⟩ | ⟨_, old⟩
    · exact bound
    · exact Nat.lt_of_lt_of_le (inv.freshSlot j m old) grows
  · intro j taken
    by_cases here : j = i
    · subst j
      rw [take_pool_self] at taken ⊢
      cases converted with
      | false => cases taken
      | true => exact ⟨_, List.mem_append_right _ (List.mem_singleton_self _), rfl, rfl⟩
    · rw [take_pool_other here] at taken ⊢
      obtain ⟨f, member, flag, current⟩ := inv.holder j taken
      exact ⟨f, take_live_of_mem member, flag, current⟩
  · intro f member j m atMem same
    rcases take_slot_mem atMem with ⟨rfl, rfl⟩ | ⟨other, atOld⟩
    · rcases mem_take_live member with old | ⟨_, rfl⟩
      · exact absurd same.symm (unshared f old)
      · rw [take_pool_self]
        exact ⟨rfl, rfl⟩
    · rw [take_pool_other other]
      rcases mem_take_live member with old | ⟨_, rfl⟩
      · exact inv.shares f old j m atOld same
      · exact absurd same (others j other m atOld)
  · intro j k m n atJ atK same
    rcases take_slot_mem atJ with ⟨hereJ, rfl⟩ | ⟨otherJ, oldJ⟩ <;>
      rcases take_slot_mem atK with ⟨hereK, rfl⟩ | ⟨otherK, oldK⟩
    · exact hereJ.trans hereK.symm
    · exact absurd same.symm (others k otherK n oldK)
    · exact absurd same (others j otherJ m oldJ)
    · exact inv.slotsApart j k m n oldJ oldK same

end Take

theorem Tracked.acquire {s : PoolState} (inv : Tracked s) {w h : Positive} {converted : Bool}
    (own : ReleaseOwn s (.acquire w h converted)) : Tracked (acquire s w h converted) := by
  rcases acquire_cases s w h converted with
    ⟨i, mem, _, free, atMem, run⟩ | ⟨unmatched, i, found, free, run⟩ | ⟨_, run⟩
  · rw [run]
    refine inv.take converted (Nat.le_refl _) (inv.freshSlot i mem atMem) (inv.unshared free atMem) ?_
      (inv.exclusive.slotPlanes i mem atMem)
    intro j other m atJ same
    exact other (inv.slotsApart j i m mem atJ atMem same)
  · rw [run]
    have sizes := own unmatched (by simp [found])
    refine inv.take converted (Nat.le_succ _) (Nat.lt_succ_self _) ?_ ?_ ((planes_layoutFor w h).mpr sizes)
    · intro f member
      exact Nat.ne_of_lt (inv.fresh f member).2
    · intro j _ m atJ
      exact Nat.ne_of_lt (inv.freshSlot j m atJ)
  · rw [run]
    exact inv

theorem destroy_pool_self (s : PoolState) (frame : PooledI420) :
    (destroy s frame).pool frame.flag = { s.pool frame.flag with free := true } :=
  Function.update_self ..

theorem destroy_pool_other (s : PoolState) {frame : PooledI420} {j : Fin kPoolSlots} (other : j ≠ frame.flag) :
    (destroy s frame).pool j = s.pool j :=
  Function.update_of_ne other ..

/-- Only the flag of a slot is written. -/
theorem destroy_keeps {s : PoolState} {frame : PooledI420} {β : Type} (field : I420PoolSlot → β)
    (same : ∀ slot, field { slot with free := true } = field slot) (j : Fin kPoolSlots) :
    field ((destroy s frame).pool j) = field (s.pool j) := by
  by_cases here : j = frame.flag
  · rw [here, destroy_pool_self, same]
  · rw [destroy_pool_other s here]

/-- Destroying a buffer frees its slot, and nobody else holds that slot. -/
theorem Tracked.destroy {s : PoolState} (inv : Tracked s) {frame : PooledI420} (member : frame ∈ s.live)
    (own : (s.pool frame.flag).current = some frame.number ∨ (s.pool frame.flag).free = true) :
    Tracked (destroy s frame) := by
  have sameMem : ∀ j, ((Decoder.destroy s frame).pool j).mem = (s.pool j).mem := destroy_keeps I420PoolSlot.mem fun _ => rfl
  have sameLayout : ∀ j, ((Decoder.destroy s frame).pool j).layout = (s.pool j).layout :=
    destroy_keeps I420PoolSlot.layout fun _ => rfl
  have sameCurrent : ∀ j, ((Decoder.destroy s frame).pool j).current = (s.pool j).current :=
    destroy_keeps I420PoolSlot.current fun _ => rfl
  have fewer : (Decoder.destroy s frame).live.Sublist s.live := List.filter_sublist
  have remains : ∀ f ∈ (Decoder.destroy s frame).live, f ∈ s.live ∧ f.number ≠ frame.number := by
    intro f inside
    have both := List.mem_filter.mp inside
    exact ⟨both.1, by simpa using both.2⟩
  refine ⟨⟨inv.exclusive.apart.sublist fewer, ?_, ?_, ?_⟩, ?_, ?_, inv.numbers.sublist (fewer.map _), ?_, ?_, ?_⟩
  · intro f inside current
    obtain ⟨old, other⟩ := remains f inside
    rw [sameCurrent] at current
    have taken := inv.exclusive.held f old current
    by_cases here : f.flag = frame.flag
    · rw [here] at current taken
      rcases own with mine | free
      · rw [mine] at current
        exact absurd (Option.some.inj current).symm other
      · rw [free] at taken
        cases taken
    · rw [destroy_pool_other s here]
      exact taken
  · intro j mem atMem
    rw [sameMem] at atMem
    rw [sameLayout]
    exact inv.exclusive.slotPlanes j mem atMem
  · intro f inside
    exact inv.exclusive.planes f (remains f inside).1
  · intro f inside
    exact inv.fresh f (remains f inside).1
  · intro j mem atMem
    rw [sameMem] at atMem
    exact inv.freshSlot j mem atMem
  · intro j taken
    have other : j ≠ frame.flag := by
      rintro rfl
      rw [destroy_pool_self] at taken
      cases taken
    rw [destroy_pool_other s other] at taken
    obtain ⟨f, old, flag, current⟩ := inv.holder j taken
    rw [sameCurrent]
    refine ⟨f, List.mem_filter.mpr ⟨old, ?_⟩, flag, current⟩
    have different : f.number ≠ frame.number := by
      intro same
      cases inv.number_inj old member same
      exact other flag.symm
    simpa using different
  · intro f inside j mem atMem same
    rw [sameMem] at atMem
    rw [sameCurrent]
    exact inv.shares f (remains f inside).1 j mem atMem same
  · intro j k m n atJ atK same
    rw [sameMem] at atJ atK
    exact inv.slotsApart j k m n atJ atK same

theorem Tracked.clearPool {s : PoolState} (inv : Tracked s) : Tracked (clearPool s) := by
  refine ⟨⟨inv.exclusive.apart, ?_, ?_, inv.exclusive.planes⟩, inv.fresh, ?_, inv.numbers, ?_, ?_, ?_⟩ <;>
    simp [Decoder.clearPool]

theorem destroy_of_step {s t : PoolState} {number : Nat} {out : List Empty}
    (run : poolStep s (.destroy number) = some (t, out)) : ∃ frame ∈ s.live, frame.number = number ∧ t = destroy s frame := by
  obtain ⟨frame, found, same⟩ := Option.map_eq_some_iff.mp run
  cases same
  exact ⟨frame, List.mem_of_find?_eq_some found, by simpa using List.find?_some found, rfl⟩

theorem Tracked.step {s t : PoolState} {e : PoolEvent} {out : List Empty} (inv : Tracked s)
    (own : ReleaseOwn s e) (run : poolStep s e = some (t, out)) : Tracked t := by
  cases e with
  | acquire w h converted =>
    cases run
    exact inv.acquire own
  | destroy number =>
    obtain ⟨frame, member, rfl, rfl⟩ := destroy_of_step run
    exact inv.destroy member (own frame member rfl)
  | clearPool =>
    cases run
    exact inv.clearPool

/-- A buffer that is destroyed when its slot is held by a later acquisition
marks that slot free. -/
theorem Tracked.release_needed {s : PoolState} (inv : Tracked s) {frame : PooledI420}
    (after : Exclusive (Decoder.destroy s frame)) :
    (s.pool frame.flag).current = some frame.number ∨ (s.pool frame.flag).free = true := by
  cases free : (s.pool frame.flag).free with
  | true => exact .inr rfl
  | false =>
    obtain ⟨g, inside, flag, current⟩ := inv.holder frame.flag free
    by_cases same : g.number = frame.number
    · exact .inl (current.trans (congrArg some same))
    · -- the holder stays alive and its slot is marked free
      have alive : g ∈ (Decoder.destroy s frame).live := List.mem_filter.mpr ⟨inside, by simpa using same⟩
      have held := after.held g alive
      rw [flag, destroy_pool_self] at held
      cases held current

theorem Tracked.needed {s t : PoolState} {e : PoolEvent} {out : List Empty} (inv : Tracked s)
    (run : poolStep s e = some (t, out)) (after : Exclusive t) : ReleaseOwn s e := by
  cases e with
  | acquire w h converted =>
    cases run
    intro unmatched available
    rcases acquire_cases s w h converted with ⟨i, mem, matched, _⟩ | ⟨_, i, _, _, run⟩ | ⟨found, _⟩
    · rw [matched] at unmatched
      cases unmatched
    · rw [run] at after
      have planes := after.slotPlanes i ⟨s.allocated, (layoutFor w h).2⟩ (by rw [take_pool_self])
      rw [take_pool_self] at planes
      exact (planes_layoutFor w h).mp planes
    · exact absurd found available
  | destroy number =>
    obtain ⟨frame, member, named, rfl⟩ := destroy_of_step run
    intro f inside isNumber
    cases inv.number_inj inside member (isNumber.trans named.symm)
    rw [← isNumber]
    exact inv.release_needed after
  | clearPool => trivial

theorem tracked_initial : Tracked initialPool := by
  refine ⟨⟨List.Pairwise.nil, ?_, ?_, ?_⟩, ?_, ?_, List.nodup_nil, ?_, ?_, ?_⟩ <;> simp [initialPool]

/-- Through any sequence of acquisitions, destructions and clears the pool is
exclusive exactly when every buffer is destroyed before its slot is handed out
again (which only a clear makes possible) and no new slot has the largest
`int` for a size. -/
theorem pool_exclusive_iff (es : List PoolEvent) :
    i420Pool.Along Exclusive i420Pool.init es ↔ i420Pool.Meets ReleaseOwn i420Pool.init es := by
  refine Machine.along_iff_meets (I := Tracked) (fun _ inv => inv.exclusive)
    (fun _ _ _ _ inv own run => inv.step own run) (fun _ _ _ _ inv run after => inv.needed run after) ?_
    tracked_initial es
  intro s e _ blocked
  cases e with
  | acquire w h converted => cases blocked
  | destroy number =>
    intro f member named
    have none := List.find?_eq_none.mp (Option.map_eq_none_iff.mp blocked) f member
    simp [named] at none
  | clearPool => trivial

/-- A buffer outlives the clear, its slot is handed out again, and then it is
destroyed: the next acquisition shares the memory of a live buffer. -/
theorem pool_shared_after_clear : ¬ ∀ es, i420Pool.Along Exclusive i420Pool.init es := by
  intro always
  have last := (always [.acquire ⟨2, by decide⟩ ⟨2, by decide⟩ true, .clearPool,
    .acquire ⟨2, by decide⟩ ⟨2, by decide⟩ true, .destroy 0, .acquire ⟨2, by decide⟩ ⟨2, by decide⟩ true]).last rfl
  exact absurd last.apart (by decide)

end WebRtcDemo.Decoder
