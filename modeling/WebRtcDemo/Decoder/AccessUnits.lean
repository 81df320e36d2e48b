import WebRtcDemo.Decoder.Codec
import WebRtcDemo.Decoder.NalUnits

/-! What is fed of an access unit in byte-stream format. -/

namespace WebRtcDemo.Decoder

/-- A NAL unit of any size: no start code inside it, and no zero byte at its end. -/
structure StreamUnit where
  long : Bool
  bytes : Bytes
  nonempty : bytes ≠ []
  noStartCode : ¬[0, 0, 1] <:+: bytes
  noTrailingZero : bytes.getLast? ≠ some 0

/-- Leading zero bytes and one or more NAL units, each behind a start code. -/
structure AccessUnit where
  leading : Nat
  first : StreamUnit
  more : List StreamUnit

def AccessUnit.units (a : AccessUnit) : List StreamUnit := a.first :: a.more

def StreamUnit.part (u : StreamUnit) : Bool × Bytes := (u.long, u.bytes)

def AccessUnit.bytes (a : AccessUnit) : Bytes := List.replicate a.leading 0 ++ stream (a.units.map StreamUnit.part)

def AccessUnit.nals (a : AccessUnit) : List Bytes := a.units.map StreamUnit.bytes

/-- What is fed is a byte stream with the same NAL units. -/
def StaysAnnexB (a : AccessUnit) : Prop :=
  (∃ b : AccessUnit, feedOf a.bytes = b.bytes) ∧ splitAnnexB (feedOf a.bytes) = a.nals

/-- At most three zero bytes stand before the first 01. -/
def Detected (a : AccessUnit) : Prop := a.leading = 0 ∨ a.leading = 1 ∧ a.first.long = false

/-- Every NAL unit is a single byte. -/
def SingleBytes (a : AccessUnit) : Prop := ∀ u ∈ a.units, u.bytes.length = 1

/-! The scanner. -/

variable {a : AccessUnit}

theorem splitFrom_zero (t : Bytes) : splitFrom (0 :: 0 :: 0 :: t) = splitFrom (0 :: 0 :: t) := by
  by_cases code : t.head? = some 1
  · -- the zero makes a long start code of a short one
    obtain ⟨rest, rfl⟩ : ∃ rest, t = 1 :: rest := List.head?_eq_some_iff.mp code
    rw [splitFrom_code (n := 4) rfl, splitFrom_code (d := 0 :: 0 :: 1 :: rest) (n := 3) rfl]
    rfl
  · refine splitFrom_skip ?_
    cases t with
    | nil => rfl
    | cons c t =>
      have notOne : c ≠ 1 := fun same => code (by rw [same]; rfl)
      simp [startCode, notOne]

theorem splitFrom_replicate (k : Nat) (t : Bytes) :
    splitFrom (List.replicate k 0 ++ 0 :: 0 :: t) = splitFrom (0 :: 0 :: t) := by
  induction k with
  | zero => rfl
  | succ k ih =>
    rw [← ih]
    cases k with
    | zero => exact splitFrom_zero t
    | succ k =>
      cases k with
      | zero => exact splitFrom_zero (0 :: t)
      | succ k => exact splitFrom_zero (List.replicate k 0 ++ 0 :: 0 :: t)

theorem bytes_eq (a : AccessUnit) : a.bytes =
    List.replicate a.leading 0 ++
      (startCodeBytes a.first.long ++ (a.first.bytes ++ stream (a.more.map StreamUnit.part))) := by
  rw [AccessUnit.bytes, AccessUnit.units, List.map_cons, StreamUnit.part, stream_cons]

theorem four_le_length (a : AccessUnit) : 4 ≤ a.bytes.length := by
  have code : 3 ≤ (startCodeBytes a.first.long).length := by cases a.first.long <;> decide
  have unit := List.length_pos_iff.mpr a.first.nonempty
  rw [bytes_eq]
  simp only [List.length_append]
  omega

theorem units_parts (us : List StreamUnit) : ∀ p ∈ us.map StreamUnit.part,
    p.2 ≠ [] ∧ ¬[0, 0, 1] <:+: p.2 ∧ p.2.getLast? ≠ some 0 := by
  intro p member
  obtain ⟨u, _, rfl⟩ := List.mem_map.mp member
  exact ⟨u.nonempty, u.noStartCode, u.noTrailingZero⟩

/-- Whatever zero bytes lead, the scanner finds the units. -/
theorem splitAnnexB_bytes (a : AccessUnit) : splitAnnexB a.bytes = a.nals := by
  have enough := four_le_length a
  obtain ⟨t, shape⟩ : ∃ t, stream (a.units.map StreamUnit.part) = 0 :: 0 :: t := by
    rw [AccessUnit.units, List.map_cons, StreamUnit.part, stream_cons]
    cases a.first.long <;> exact ⟨_, rfl⟩
  rw [splitAnnexB, if_neg (by omega), AccessUnit.bytes, shape, splitFrom_replicate, ← shape,
    splitFrom_stream (units_parts a.units), List.map_map]
  rfl

/-! The two ways of feeding. -/

/-- Otherwise the first four bytes are zero. -/
theorem four_zeros (missed : ¬Detected a) : ∃ t, a.bytes = 0 :: 0 :: 0 :: 0 :: t := by
  rw [bytes_eq]
  unfold Detected at missed
  match zeros : a.leading with
  | 0 => simp [zeros] at missed
  | 1 =>
    cases code : a.first.long with
    | false => simp [zeros, code] at missed
    | true => exact ⟨_, rfl⟩
  | 2 => cases a.first.long <;> exact ⟨_, rfl⟩
  | 3 => cases a.first.long <;> exact ⟨_, rfl⟩
  | k + 4 => exact ⟨_, rfl⟩

theorem looksLikeAnnexB_iff (a : AccessUnit) : looksLikeAnnexB a.bytes = true ↔ Detected a := by
  have enough := four_le_length a
  rw [looksLikeAnnexB, if_neg (by omega)]
  constructor
  · intro found
    by_contra missed
    obtain ⟨t, shape⟩ := four_zeros missed
    rw [shape] at found
    cases found
  · rintro (none | ⟨one, short⟩)
    · rw [bytes_eq, none, List.replicate_zero, List.nil_append, startCode_startCodeBytes]
      rfl
    · rw [bytes_eq, one, short]
      rfl

theorem feedOf_detected (detected : Detected a) : feedOf a.bytes = a.bytes := by
  rw [feedOf, if_pos ((looksLikeAnnexB_iff a).mpr detected)]

theorem feedOf_converted (missed : ¬Detected a) :
    feedOf a.bytes = a.units.flatMap fun u => lengthField u.bytes.length ++ u.bytes := by
  have enough := four_le_length a
  have present : a.bytes ≠ [] := List.ne_nil_of_length_pos (by omega)
  have notLike : ¬looksLikeAnnexB a.bytes = true := fun like => missed ((looksLikeAnnexB_iff a).mp like)
  rw [feedOf, if_neg notLike, annexBToAvcc, if_neg present, splitAnnexB_bytes]
  change ((a.units.map StreamUnit.bytes).flatMap fun nal => if nal = [] then [] else lengthField nal.length ++ nal) = _
  rw [List.flatMap_map]
  refine List.flatMap_congr fun u _ => ?_
  rw [if_neg u.nonempty]

/-- The unit behind a long start code. -/
def StreamUnit.lengthen (u : StreamUnit) : StreamUnit := { u with long := true }

/-- The field of a single byte is a long start code. -/
theorem feedOf_single (missed : ¬Detected a) (single : SingleBytes a) :
    feedOf a.bytes = (AccessUnit.mk 0 a.first.lengthen (a.more.map StreamUnit.lengthen)).bytes := by
  have units : (AccessUnit.mk 0 a.first.lengthen (a.more.map StreamUnit.lengthen)).units = a.units.map StreamUnit.lengthen :=
    rfl
  rw [feedOf_converted missed, AccessUnit.bytes, units, List.replicate_zero, List.nil_append, stream, List.flatMap_map,
    List.flatMap_map]
  refine List.flatMap_congr fun u member => ?_
  rw [single u member]
  rfl

theorem staysAnnexB_of_condition (condition : Detected a ∨ SingleBytes a) : StaysAnnexB a := by
  by_cases detected : Detected a
  · rw [StaysAnnexB, feedOf_detected detected]
    exact ⟨⟨a, rfl⟩, splitAnnexB_bytes a⟩
  · have single := condition.resolve_left detected
    rw [StaysAnnexB, feedOf_single detected single, splitAnnexB_bytes]
    refine ⟨⟨_, rfl⟩, ?_⟩
    rw [AccessUnit.nals, AccessUnit.units, AccessUnit.nals, AccessUnit.units, List.map_cons, List.map_cons, List.map_map]
    rfl

/-! Lengths that read as start codes. -/

theorem lengthField_inj {m n : Nat} (first : m < 2 ^ 32) (second : n < 2 ^ 32) (same : lengthField m = lengthField n) :
    m = n := by
  simp only [lengthField, List.cons.injEq, and_true] at same
  obtain ⟨a, b, c, d⟩ := same
  rw [← lengthValue_lengthField first, a, b, c, d, lengthValue_lengthField second]

/-- A unit does not stand one byte behind itself: its last byte would begin the
start code of the next one. -/
theorem unit_not_shifted (u : StreamUnit) (y : UInt8) (rest : Bytes) (parts : List (Bool × Bytes)) :
    y :: (u.bytes ++ rest) ≠ u.bytes ++ stream parts := by
  intro same
  obtain ⟨before, last, shape⟩ := List.eq_nil_or_concat u.bytes |>.resolve_left u.nonempty
  have notZero : last ≠ 0 := by
    rintro rfl
    exact u.noTrailingZero (by simp [shape])
  have behind : (before ++ last :: stream parts)[before.length + 1]? = (stream parts)[0]? := by
    rw [List.getElem?_append_right (by omega), Nat.add_sub_cancel_left]
    rfl
  have next : (stream parts)[0]? = some last := by
    have atEnd := congrArg (·[before.length + 1]?) same
    simpa [shape, behind] using atEnd.symm
  cases parts with
  | nil => cases next
  | cons p parts =>
    obtain ⟨long, segment⟩ := p
    rw [stream_cons] at next
    cases long <;> exact notZero (Option.some.inj next).symm

/-- Fields that read as a stream of the same units are those of single bytes. -/
theorem fields_single {us vs : List StreamUnit} (short : ∀ u ∈ us, u.bytes.length < 2 ^ 32)
    (same : vs.map StreamUnit.bytes = us.map StreamUnit.bytes)
    (read : (us.flatMap fun u => lengthField u.bytes.length ++ u.bytes) = stream (vs.map StreamUnit.part)) :
    ∀ u ∈ us, u.bytes.length = 1 := by
  induction us generalizing vs with
  | nil => simp
  | cons u us ih =>
    cases vs with
    | nil => cases same
    | cons v vs =>
      obtain ⟨sameUnit, sameRest⟩ := List.cons.inj same
      obtain ⟨shortUnit, shortRest⟩ := List.forall_mem_cons.mp short
      rw [List.flatMap_cons, List.map_cons, StreamUnit.part, stream_cons, sameUnit, List.append_assoc] at read
      cases code : v.long with
      | true =>
        rw [code] at read
        obtain ⟨field, behind⟩ := List.append_inj read rfl
        have one : u.bytes.length = 1 := lengthField_inj shortUnit (by decide) field
        exact List.forall_mem_cons.mpr ⟨one, ih shortRest sameRest (List.append_cancel_left behind)⟩
      | false =>
        rw [code] at read
        have shifted := congrArg (List.drop 3) read
        exact absurd shifted (unit_not_shifted u _ _ _)

/-- Units below 4 GiB stay a byte stream only if they are recognised or single bytes. -/
theorem condition_of_staysAnnexB (short : ∀ u ∈ a.units, u.bytes.length < 2 ^ 32) (stays : StaysAnnexB a) :
    Detected a ∨ SingleBytes a := by
  refine or_iff_not_imp_left.mpr fun missed => ?_
  obtain ⟨⟨b, fed⟩, split⟩ := stays
  have same : b.units.map StreamUnit.bytes = a.units.map StreamUnit.bytes := by
    rw [fed, splitAnnexB_bytes] at split
    exact split
  rw [feedOf_converted missed] at fed
  by_cases detected : Detected b
  · -- with the leading zero, a short start code is a long one
    rcases detected with none | ⟨one, code⟩
    · rw [AccessUnit.bytes, none, List.replicate_zero, List.nil_append] at fed
      exact fields_single short same fed
    · have read : b.bytes = stream ((b.first.lengthen :: b.more).map StreamUnit.part) := by
        rw [bytes_eq, one, code, List.map_cons, StreamUnit.part, stream_cons]
        rfl
      have sameLong : (b.first.lengthen :: b.more).map StreamUnit.bytes = a.units.map StreamUnit.bytes := same
      exact fields_single short sameLong (fed.trans read)
  · obtain ⟨t, zeros⟩ := four_zeros detected
    have unit := short a.first (List.mem_cons_self ..)
    rw [AccessUnit.units, List.flatMap_cons, List.append_assoc, zeros] at fed
    have field : lengthField a.first.bytes.length = lengthField 0 := congrArg (List.take 4) fed
    have empty := lengthField_inj unit (by decide) field
    exact absurd (List.length_eq_zero_iff.mp empty) a.first.nonempty

/-- An access unit that is recognised, or all of whose units are single bytes,
is fed as a byte stream of the same units; below 4 GiB nothing else is. -/
theorem staysAnnexB_iff (a : AccessUnit) :
    (Detected a ∨ SingleBytes a → StaysAnnexB a) ∧
      ((∀ u ∈ a.units, u.bytes.length < 2 ^ 32) → (StaysAnnexB a ↔ Detected a ∨ SingleBytes a)) :=
  ⟨staysAnnexB_of_condition, fun short => ⟨condition_of_staysAnnexB short, staysAnnexB_of_condition⟩⟩

/-- A slice of an IDR picture, behind one zero byte and a start code. -/
def idrUnit (leading : Nat) : AccessUnit where
  leading := leading
  first := ⟨true, [101, 136], by decide, by decide, by decide⟩
  more := []

theorem staysAnnexB_idr : StaysAnnexB (idrUnit 0) := (staysAnnexB_iff (idrUnit 0)).1 (.inl (.inl rfl))

/-- Behind a single zero byte it is fed with a length field. -/
theorem leading_zero_converted : ¬ ∀ a : AccessUnit, StaysAnnexB a := by
  intro always
  have condition := condition_of_staysAnnexB (a := idrUnit 1) (by simp [AccessUnit.units, idrUnit]) (always _)
  rcases condition with detected | single
  · simp [Detected, idrUnit] at detected
  · exact absurd (single _ (List.mem_cons_self ..)) (by decide)

end WebRtcDemo.Decoder
