import WebRtcDemo.Signaling.Lifecycle

/-! The address of the server, and where `Connect` dials. -/

namespace WebRtcDemo.Signaling
open ByteText

/-- `s.find(..) == 0` and the rest after it: `ws://` is looked for first, and only one of the two is removed. -/
def stripScheme (addr : Bytes) : Bytes :=
  if find (ascii "ws://") addr = some 0 then addr.drop 5
  else if find (ascii "tcp://") addr = some 0 then addr.drop 6
  else addr

/-- `static_cast<uint16_t>` of an `int`. -/
def portOfInt (x : Int32) : UInt16 := x.toUInt32.toUInt16

/-- `atoi` reads the C string behind the first colon, up to its first byte that is no digit. -/
def parseHostPort (addr : Bytes) : Bytes × UInt16 :=
  let s := stripScheme addr
  match s.idxOf? 58 with
  | some colon => (s.take colon, portOfInt (atoi (cString (s.drop (colon + 1)))))
  | none => (s, 8765)

/-- One part of an IPv4 address: up to three digits without a leading zero, at most 255. -/
def isOctet (part : Bytes) : Bool :=
  part.all isDigit && part.length != 0 && (part.length == 1 || part.head? != some 48) && digitsValue part ≤ 255

/-- Does `inet_pton` accept the host as an `AF_INET` address? -/
def inetPton (host : Bytes) : Bool :=
  let parts := (cString host).splitOn 46
  parts.length == 4 && parts.all isOctet

/-- The address that `Connect` hands to `connect`, if it comes so far: the
constructor parsed `server_addr`, and only `socket` and `inet_pton` can fail before. -/
def dialed (server_addr : Bytes) (socket : Option Nat) : Option (Bytes × UInt16) :=
  let (host_, port_) := parseHostPort server_addr
  match socket with
  | none => none
  | some _ => if inetPton host_ = false then none else some (host_, port_)

/-- The prefix of an address. -/
inductive Scheme
  | none
  | ws
  | tcp
  deriving DecidableEq, Repr

def Scheme.text : Scheme → Bytes
  | .none => []
  | .ws => ascii "ws://"
  | .tcp => ascii "tcp://"

def Scheme.address (scheme : Scheme) (host digits : Bytes) : Bytes := scheme.text ++ host ++ 58 :: digits

/-- The host and the port are those written, or the address is refused before
anything is dialed; and the port is never another one. The last part is asked
of a refused address as well, so that a refusal is no way out of the first. -/
def PortKept (scheme : Scheme) (host digits : Bytes) : Prop :=
  let addr := scheme.address host digits
  ((parseHostPort addr).1 = host ∧ (parseHostPort addr).2.toNat = digitsValue digits ∨
    ∀ socket, dialed addr socket = none) ∧
  (parseHostPort addr).2.toNat = digitsValue digits

/-! The host. -/

variable {scheme : Scheme} {host digits : Bytes}

/-- A scheme begins like the text only if the text goes on with two slashes behind its first colon. -/
theorem isPrefixOf_scheme (name : Bytes) {rest : Bytes} (plain : 58 ∉ name) (colonFree : 58 ∉ host)
    (noSlash : rest.head? ≠ some 47) : (name ++ ascii "://").isPrefixOf (host ++ 58 :: rest) = false := by
  induction name generalizing host with
  | nil =>
    cases host with
    | nil =>
      cases rest with
      | nil => rfl
      | cons c rest =>
        have apart : (47 : UInt8) ≠ c := fun same => noSlash (by rw [← same]; rfl)
        change (58 == 58 && (47 == c && _)) = false
        simp [apart]
    | cons c host =>
      have apart : (58 : UInt8) ≠ c := fun same => colonFree (same ▸ List.mem_cons_self)
      exact not_isPrefixOf_of_head apart _ _
  | cons n name ih =>
    cases host with
    | nil =>
      have apart : n ≠ 58 := fun same => plain (same ▸ List.mem_cons_self)
      exact not_isPrefixOf_of_head apart _ _
    | cons c host =>
      simp only [List.mem_cons, not_or] at plain colonFree
      simp only [List.cons_append, List.isPrefixOf_cons_cons, ih plain.2 colonFree.2, Bool.and_false]

theorem find_zero_iff {pat s : Bytes} : find pat s = some 0 ↔ pat.isPrefixOf s = true := by
  cases s with
  | nil => cases pat <;> simp [find]
  | cons c s =>
    rw [find]
    split
    · rename_i here
      simp [here]
    · rename_i here
      simp [here]

theorem stripScheme_address (colonFree : 58 ∉ host) (noSlash : digits.head? ≠ some 47) :
    stripScheme (scheme.address host digits) = host ++ 58 :: digits := by
  have notWs : (ascii "ws://").isPrefixOf (host ++ 58 :: digits) = false :=
    isPrefixOf_scheme (ascii "ws") (by decide) colonFree noSlash
  have notTcp : (ascii "tcp://").isPrefixOf (host ++ 58 :: digits) = false :=
    isPrefixOf_scheme (ascii "tcp") (by decide) colonFree noSlash
  unfold stripScheme Scheme.address
  simp only [find_zero_iff, List.append_assoc]
  cases scheme with
  | none => simp only [Scheme.text, List.nil_append, notWs, notTcp, Bool.false_eq_true, if_false]
  | ws =>
    have here : (ascii "ws://").isPrefixOf (ascii "ws://" ++ (host ++ 58 :: digits)) = true :=
      List.isPrefixOf_iff_prefix.mpr (List.prefix_append _ _)
    simp only [Scheme.text, here, if_true]
    rfl
  | tcp =>
    have here : (ascii "tcp://").isPrefixOf (ascii "tcp://" ++ (host ++ 58 :: digits)) = true :=
      List.isPrefixOf_iff_prefix.mpr (List.prefix_append _ _)
    have other : (ascii "ws://").isPrefixOf (ascii "tcp://" ++ (host ++ 58 :: digits)) = false :=
      not_isPrefixOf_of_clash (by decide) _
    simp only [Scheme.text, here, other, Bool.false_eq_true, if_false, if_true]
    rfl

theorem parseHostPort_address (colonFree : 58 ∉ host) (noSlash : digits.head? ≠ some 47) :
    parseHostPort (scheme.address host digits) = (host, portOfInt (atoi (cString digits))) := by
  unfold parseHostPort
  rw [stripScheme_address colonFree noSlash]
  simp only [idxOf?_terminator colonFree]
  have behind : (host ++ 58 :: digits).drop (host.length + 1) = digits := by
    rw [List.drop_length_add_append]
    rfl
  simp only [List.take_left', behind]

/-! The port. -/

theorem portOfInt_ofInt (z : Int) : ((portOfInt (Int32.ofInt z)).toNat : Int) = z % 2 ^ 16 := by
  have bits : (Int32.ofInt z).toUInt32.toNat = (z % 2 ^ 32).toNat := BitVec.toNat_ofInt z
  unfold portOfInt
  rw [UInt32.toNat_toUInt16, bits]
  omega

/-- The digits of a port are no white space and no sign, and their value is cut off at the end of `long`. -/
theorem strtol_digits (nonempty : digits ≠ []) (decimal : digits.all isDigit = true) :
    strtol (cString digits) = min (2 ^ 63 - 1) (digitsValue digits : Int) := by
  have bounds : ∀ c ∈ digits, 48 ≤ c ∧ c ≤ 57 := fun c inside => by
    simpa [isDigit] using List.all_eq_true.mp decimal c inside
  have whole : cString digits = digits := cString_self fun zero => absurd (bounds 0 zero).1 (by decide)
  rw [whole]
  cases digits with
  | nil => exact absurd rfl nonempty
  | cons c rest =>
    have first := (bounds c List.mem_cons_self).1
    have notSpace := isSpace_of_sign_le (UInt8.le_trans (by decide) first)
    rw [strtol, List.dropWhile_cons_of_neg (by simp [notSpace]), signedValue_of_digit first]
    omega

/-- The port is the decimal value modulo `2 ^ 16`, or 65535 where `strtol` saturates. -/
theorem port_value (nonempty : digits ≠ []) (decimal : digits.all isDigit = true) :
    (portOfInt (atoi (cString digits))).toNat = min (2 ^ 63 - 1) (digitsValue digits) % 2 ^ 16 := by
  have value := portOfInt_ofInt (strtol (cString digits))
  rw [strtol_digits nonempty decimal] at value
  rw [atoi, strtol_digits nonempty decimal]
  omega

theorem port_value_iff (nonempty : digits ≠ []) (decimal : digits.all isDigit = true) :
    (portOfInt (atoi (cString digits))).toNat = digitsValue digits ↔ digitsValue digits < 2 ^ 16 := by
  rw [port_value nonempty decimal]
  omega

/-- The address parsed is the one written if the port has 16 bits, and
otherwise the port is another one. -/
theorem portKept_iff (colonFree : 58 ∉ host) (nonempty : digits ≠ []) (decimal : digits.all isDigit = true) :
    PortKept scheme host digits ↔ digitsValue digits < 2 ^ 16 := by
  have noSlash : digits.head? ≠ some 47 := fun slash =>
    absurd (List.all_eq_true.mp decimal 47 (List.mem_of_head? slash)) (by decide)
  unfold PortKept
  simp only [parseHostPort_address colonFree noSlash, true_and]
  rw [port_value_iff nonempty decimal]
  exact ⟨And.right, fun small => ⟨.inl small, small⟩⟩

theorem portKept_local : PortKept .ws (ascii "127.0.0.1") (ascii "8765") :=
  (portKept_iff (by decide) (by decide) (by decide)).mpr (by decide)

theorem port_written_wraps : ¬ ∀ scheme host digits, 58 ∉ host → digits ≠ [] → digits.all isDigit = true →
    PortKept scheme host digits := by
  intro always
  obtain ⟨_, same⟩ := always .ws (ascii "127.0.0.1") (ascii "74301") (by decide) (by decide) (by decide)
  exact absurd same (by decide)

/-! What is dialed. -/

/-- A `Connect` that succeeds has dialed the address that was parsed. -/
theorem connect_dialed {c : SignalingClient} {r : ConnectResults} {addr : Bytes}
    (parsed : c.host_ = (parseHostPort addr).1) (answer : r.inet_pton = inetPton c.host_)
    (connected : (c.connect r).2.2 = true) : dialed addr r.socket = some (parseHostPort addr) := by
  unfold SignalingClient.connect at connected
  unfold dialed
  cases opened : r.socket with
  | none => simp [opened] at connected
  | some fd =>
    rw [parsed] at answer
    by_cases refused : r.inet_pton = false
    · simp [opened, refused, SignalingClient.abandon] at connected
    · rw [answer] at refused
      simp [refused]

end WebRtcDemo.Signaling
