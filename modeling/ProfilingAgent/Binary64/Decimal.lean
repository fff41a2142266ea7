import ProfilingAgent.Binary64.Basic
import ProfilingAgent.Text.Digits
import ProfilingAgent.Text.Blank

set_option autoImplicit false

namespace ProfilingAgent.Binary64

open Text

/-- The double nearest to `m * 10 ^ e`. The outer cases lie beyond the largest and below half the
smallest magnitude, where the power itself would be needlessly large. -/
def ofDecimal (m : Nat) (e : Int) : Binary64 :=
  if m = 0 then zero
  else if 400 < e + (decimal m).length then infinity
  else if e + (decimal m).length < -400 then zero
  else if e < 0 then ofRatio m (tenTo (-e).toNat)
  else ofNat (m * tenTo e.toNat)

def readExponent : List Char → Option Int
  | [] => some 0
  | mark :: rest =>
    if mark = 'e' ∨ mark = 'E' then
      let (negative, ds) := match rest with
        | '-' :: ds => (true, ds)
        | '+' :: ds => (false, ds)
        | ds => (false, ds)
      if ds.isEmpty || !ds.all Char.isDigit then none
      else some (if negative then -(digitsValue ds : Int) else digitsValue ds)
    else none

def readMagnitude (cs : List Char) : Option Binary64 :=
  let whole := cs.takeWhile Char.isDigit
  let (places, rest) := match cs.dropWhile Char.isDigit with
    | '.' :: after => (after.takeWhile Char.isDigit, after.dropWhile Char.isDigit)
    | rest => ([], rest)
  if whole.isEmpty && places.isEmpty then none
  else (readExponent rest).map fun e =>
    ofDecimal (digitsValue (whole ++ places)) (e - places.length)

def ofText? (s : String) : Option Binary64 :=
  let (negative, cs) := match s.toList with
    | '-' :: cs => (true, cs)
    | '+' :: cs => (false, cs)
    | cs => (false, cs)
  let word := lower (String.ofList cs)
  let magnitude :=
    if word = "inf" ∨ word = "infinity" then some infinity
    else if word = "nan" then some notANumber
    else readMagnitude cs
  magnitude.map fun x => if negative then x.neg else x

end ProfilingAgent.Binary64
