import ProfilingAgent.Text.Digits

set_option autoImplicit false

/-!
# Double-precision numbers

A number is its 64 bits. Without the sign bit they count the finite magnitudes upwards from zero,
so rounding a fraction means finding the count of the nearest magnitude. All of it is exact
arithmetic on natural numbers.
-/
namespace ProfilingAgent

structure Binary64 where
  bits : UInt64
deriving DecidableEq, Inhabited

namespace Binary64

def binade : Nat := 0x10000000000000

def signBit : Nat := 0x8000000000000000

/-- The count of the magnitude that stands for infinity. Larger counts are no numbers. -/
def infinityCode : Nat := 0x7FF * binade

/-- Finite magnitudes are the multiples of `2 ^ (-1074)` that have at most 53 binary digits. -/
def unitScale : Nat := 1 <<< 1074

/-- The count of the magnitude nearest to a fraction, a tie going to the even count. -/
def roundCode (num den : Nat) : Nat :=
  let scaled := num * unitScale
  let shift := (scaled / den).log2 - 52
  let unit := den <<< shift
  let below := scaled / unit
  let twice := 2 * (scaled % unit)
  let up := unit < twice || (twice == unit && below % 2 == 1)
  min (shift * binade + below + if up then 1 else 0) infinityCode

def ofCode (negative : Bool) (code : Nat) : Binary64 :=
  ⟨UInt64.ofNat (if negative then signBit + code else code)⟩

def negative (x : Binary64) : Bool := signBit ≤ x.bits.toNat

def code (x : Binary64) : Nat := x.bits.toNat % signBit

def isFinite (x : Binary64) : Bool := x.code < infinityCode

def shift (code : Nat) : Nat := code / binade - 1

def scaled (code : Nat) : Nat :=
  (if code < binade then code else binade + code % binade) <<< shift code

def zero : Binary64 := ofCode false 0

def neg (x : Binary64) : Binary64 := ofCode (!x.negative) x.code

def ofNat (n : Nat) : Binary64 := ofCode false (roundCode n 1)

def ofInt : Int → Binary64
  | .ofNat n => ofNat n
  | .negSucc n => (ofNat (n + 1)).neg

def ofRatio (num den : Nat) : Binary64 := ofCode false (roundCode num den)

def mul (x y : Binary64) : Binary64 :=
  ofCode (x.negative != y.negative)
    (roundCode (scaled x.code * scaled y.code) (unitScale * unitScale))

def div (x y : Binary64) : Binary64 :=
  ofCode (x.negative != y.negative) (roundCode (scaled x.code) (scaled y.code))

def isZero (x : Binary64) : Bool := x.code == 0

def tenPow (k : Nat) : Binary64 := ofNat (Text.tenTo k)

def isNearOne (x : Binary64) : Bool :=
  !x.negative && x.isFinite && scaled x.code < unitScale + (1 <<< 1022) &&
    unitScale - (1 <<< 1022) < scaled x.code

def infinity : Binary64 := ofCode false infinityCode

def notANumber : Binary64 := ofCode false (infinityCode + binade / 2)

def isNotANumber (x : Binary64) : Bool := infinityCode < x.code

theorem code_ofCode {negative : Bool} {n : Nat} (h : n < signBit) : (ofCode negative n).code = n := by
  cases negative
  · simp [ofCode, code, signBit, UInt64.toNat_ofNat'] at h ⊢
    omega
  · simp [ofCode, code, signBit, UInt64.toNat_ofNat'] at h ⊢
    omega

theorem negative_ofCode {negative : Bool} {n : Nat} (h : n < signBit) :
    (ofCode negative n).negative = negative := by
  cases negative
  · simp [ofCode, Binary64.negative, signBit, UInt64.toNat_ofNat'] at h ⊢
    omega
  · simp [ofCode, Binary64.negative, signBit, UInt64.toNat_ofNat'] at h ⊢
    omega

theorem roundCode_le (num den : Nat) : roundCode num den ≤ infinityCode := Nat.min_le_right _ _

end Binary64
end ProfilingAgent
