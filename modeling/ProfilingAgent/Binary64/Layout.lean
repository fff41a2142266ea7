import ProfilingAgent.Binary64.Shortest

set_option autoImplicit false

namespace ProfilingAgent.Binary64

open Text

structure Layout where
  positional : Int → Bool
  wholeEnd : List Char

namespace Layout

def spread (layout : Layout) (d : Decimal) : List Char :=
  if d.exponent < 0 then
    '0' :: '.' :: List.replicate ((-d.exponent).toNat - 1) '0' ++ d.digits
  else
    let wholeDigits := d.exponent.toNat + 1
    if d.digits.length ≤ wholeDigits then
      d.digits ++ List.replicate (wholeDigits - d.digits.length) '0' ++ layout.wholeEnd
    else d.digits.take wholeDigits ++ '.' :: d.digits.drop wholeDigits

def scientific (d : Decimal) : List Char :=
  let mantissa := match d.digits with
    | [] => []
    | [c] => [c]
    | c :: rest => c :: '.' :: rest
  mantissa ++ 'e' :: (if d.exponent < 0 then '-' else '+') :: decimal d.exponent.natAbs

def magnitude (layout : Layout) (code : Nat) : List Char :=
  let d := shortest code
  if layout.positional d.exponent then layout.spread d else scientific d

def text (layout : Layout) (x : Binary64) : List Char :=
  let body :=
    if x.isFinite then layout.magnitude x.code
    else if x.isNotANumber then ['N', 'a', 'N'] else ['i', 'n', 'f']
  if x.negative && !x.isNotANumber then '-' :: body else body

/-- In data, from one hundred-thousandth to below ten quadrillion, with a digit after the point. -/
def data : Layout := ⟨fun e => -5 ≤ e && e ≤ 15, ['.', '0']⟩

def plain : Layout := ⟨fun _ => true, []⟩

end Layout
end ProfilingAgent.Binary64
