import WebRtcDemo.Lib.ByteText

namespace WebRtcDemo.Decoder

/-- Length of the start code these bytes begin with. -/
def startCode : Bytes → Option Nat
  | 0 :: 0 :: 1 :: _ => some 3
  | 0 :: 0 :: 0 :: 1 :: _ => some 4
  | _ => none

def looksLikeAnnexB (d : Bytes) : Bool :=
  if d.length < 4 then false else (startCode d).isSome

/-- The inner loop of `SplitAnnexB`: how far it is to the next start code. -/
def nalLength : Bytes → Nat
  | [] => 0
  | b :: d => if (startCode (b :: d)).isSome then 0 else nalLength d + 1

theorem startCode_bounds {d : Bytes} {n : Nat} (found : startCode d = some n) : 3 ≤ n ∧ n ≤ d.length := by
  unfold startCode at found
  split at found <;> simp only [Option.some.injEq, reduceCtorEq] at found
  · subst n
    simp
  · subst n
    simp

/-- The outer loop of `SplitAnnexB`, on what is left of the data. -/
def splitFrom (d : Bytes) : List Bytes :=
  match _ : startCode d with
  | some n =>
    let rest := d.drop n
    let nal := rest.take (nalLength rest)
    (if nal = [] then [] else [nal]) ++ splitFrom (rest.drop (nalLength rest))
  | none =>
    match d with
    | [] => []
    | _ :: d => splitFrom d
termination_by d.length
decreasing_by
  · have bounds := startCode_bounds ‹startCode d = some _›
    simp only [List.length_drop]
    omega
  · simp

def splitAnnexB (data : Bytes) : List Bytes :=
  if data.length < 3 then [] else splitFrom data

/-- The four bytes of a length, most significant first. -/
def lengthField (n : Nat) : Bytes :=
  [UInt8.ofNat (n >>> 24), UInt8.ofNat (n >>> 16), UInt8.ofNat (n >>> 8), UInt8.ofNat n]

def annexBToAvcc (data : Bytes) : Bytes :=
  if data = [] then []
  else match splitAnnexB data with
    | [] => lengthField data.length ++ data
    | nal :: nals => (nal :: nals).flatMap fun nal => if nal = [] then [] else lengthField nal.length ++ nal

end WebRtcDemo.Decoder
