set_option autoImplicit false

/-!
# Bytes as text

Reading UTF-8. `scan` cuts a byte string into characters and ill-formed pieces; a piece is the
longest prefix of a character that cannot be completed, or one byte that starts none. `decode?`
refuses text with such a piece and `decodeLossy` puts U+FFFD in its place.
-/
namespace ProfilingAgent.Text.Utf8

/-- What a first byte of several announces: how many bytes follow, the range of the first of
them, and the leading bits of the character. The ranges leave out overlong forms, surrogates and
everything above U+10FFFF. -/
def announced (b : UInt8) : Option (Nat × UInt8 × UInt8 × Nat) :=
  if 0xC2 ≤ b && b ≤ 0xDF then some (1, 0x80, 0xBF, b.toNat - 0xC0)
  else if b == 0xE0 then some (2, 0xA0, 0xBF, 0)
  else if b == 0xED then some (2, 0x80, 0x9F, 0xD)
  else if 0xE1 ≤ b && b ≤ 0xEF then some (2, 0x80, 0xBF, b.toNat - 0xE0)
  else if b == 0xF0 then some (3, 0x90, 0xBF, 0)
  else if 0xF1 ≤ b && b ≤ 0xF3 then some (3, 0x80, 0xBF, b.toNat - 0xF0)
  else if b == 0xF4 then some (3, 0x80, 0x8F, 4)
  else none

def following : Nat → UInt8 → UInt8 → Nat → List UInt8 → Option Nat × List UInt8
  | 0, _, _, bits, rest => (some bits, rest)
  | _ + 1, _, _, _, [] => (none, [])
  | n + 1, low, high, bits, b :: rest =>
    if low ≤ b && b ≤ high then following n 0x80 0xBF (bits * 64 + (b.toNat - 0x80)) rest
    else (none, b :: rest)

theorem following_length (n : Nat) (low high : UInt8) (bits : Nat) (rest : List UInt8) :
    (following n low high bits rest).2.length ≤ rest.length := by
  induction rest generalizing n low high bits with
  | nil => cases n <;> simp [following]
  | cons b rest ih =>
    cases n with
    | zero => simp [following]
    | succ n =>
      simp only [following]
      split
      · exact Nat.le_trans (ih _ _ _ _) (by simp)
      · simp

def scan : List UInt8 → List (Option Char)
  | [] => []
  | b :: rest =>
    if b < 0x80 then some (Char.ofNat b.toNat) :: scan rest
    else
      match announced b with
      | none => none :: scan rest
      | some (n, low, high, bits) =>
        ((following n low high bits rest).1.map Char.ofNat) :: scan (following n low high bits rest).2
termination_by bytes => bytes.length
decreasing_by
  · simp
  · simp
  · exact Nat.lt_succ_of_le (following_length _ _ _ _ _)

def decode? (bytes : List UInt8) : Option String := (scan bytes).mapM id |>.map String.ofList

def decodeLossy (bytes : List UInt8) : String :=
  String.ofList ((scan bytes).map (·.getD (Char.ofNat 0xFFFD)))

def encode (s : String) : List UInt8 := s.toUTF8.toList

end ProfilingAgent.Text.Utf8
