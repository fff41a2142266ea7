import ProfilingAgent.Json.Reader
import ProfilingAgent.Json.Value

set_option autoImplicit false

/-!
# Numbers in JSON text

A number without a point and an exponent is whole if it fits 64 bits. Any other is a significand,
gathered from as many digits as fit 64 bits, times a power of ten. The product is rounded at each
step, so it is near, but not always nearest, to the decimal that is written.
-/
namespace ProfilingAgent.Json.Reader

def significandLimit : Nat := 0xFFFFFFFFFFFFFFFF

def gather (significand : Nat) : List Char → Nat × Nat
  | [] => (significand, 0)
  | d :: ds =>
    let next := significand * 10 + (d.toNat - 48)
    if significandLimit < next then (significand, ds.length + 1) else gather next ds

def powerLimit : Nat := 308

def scale (significand : Nat) (exponent : Int) : Option Binary64 :=
  let f := Binary64.ofNat significand
  if 0 ≤ exponent then
    if exponent.toNat ≤ powerLimit then
      let x := f.mul (.tenPow exponent.toNat)
      if x.isFinite then some x else none
    else if f.isZero then some f else none
  else
    let k := (-exponent).toNat
    if k ≤ powerLimit then some (f.div (.tenPow k))
    else if k ≤ 2 * powerLimit then
      some ((f.div (.tenPow powerLimit)).div (.tenPow (k - powerLimit)))
    else some .zero

def signed (negative : Bool) (x : Binary64) : Binary64 := if negative then x.neg else x

def realNumber (negative : Bool) (x : Binary64) : Reader Number :=
  match Number.ofBinary64? (signed negative x) with
  | some n => pure n
  | none => fail .numberRange

def scaledNumber (negative : Bool) (significand : Nat) (exponent : Int) : Reader Number :=
  match scale significand exponent with
  | some x => realNumber negative x
  | none => fail .numberRange

def exponentLimit : Nat := 0x7FFFFFFF

def exponentValue (value taken : Nat) : List Char → Except Nat Nat
  | [] => .ok value
  | d :: ds =>
    let next := value * 10 + (d.toNat - 48)
    if exponentLimit < next then .error (taken + 1) else exponentValue next (taken + 1) ds

def exponentSign : Reader Bool := do
  match ← peek with
  | some '+' => do advance; pure false
  | some '-' => do advance; pure true
  | _ => pure false

def exponentPart (negative : Bool) (significand : Nat) (exponent : Int) : Reader Number := do
  let down ← exponentSign
  match ← peek with
  | none => fail .endInValue
  | some d =>
    if d.isDigit then fun c =>
      let ds := c.rest.takeWhile Char.isDigit
      let behind := c.skipWhile Char.isDigit
      match exponentValue 0 0 ds with
      | .ok e => scaledNumber negative significand (if down then exponent - e else exponent + e) behind
      | .error taken =>
        if significand ≠ 0 && !down then
          fail .numberRange (Cursor.skipBytes taken c.rest c.position)
        else realNumber negative .zero behind
    else failAfter .number

def fractionPart (negative : Bool) (significand exponent : Nat) : Reader Number := do
  let places ← digits
  if places.isEmpty then
    match ← peek with
    | none => failNext .endInValue
    | some _ => failNext .number
  else
    let (significand, left) := gather significand places
    let exponent : Int := exponent - (places.length - left : Nat)
    match ← peek with
    | some 'e' | some 'E' => do advance; exponentPart negative significand exponent
    | _ => scaledNumber negative significand exponent

def wholeNumber (negative : Bool) (n : Nat) : Reader Number :=
  if negative && n ≠ 0 && n ≤ 0x8000000000000000 then
    match Number.ofInt? (-(n : Int)) with
    | some n => pure n
    | none => fail .numberRange
  else if negative then realNumber true (.ofNat n)
  else
    match Number.ofInt? n with
    | some n => pure n
    | none => fail .numberRange

def number (negative : Bool) : Reader Number := do
  match ← peek with
  | none => fail .endInValue
  | some first =>
    if !first.isDigit then failAfter .number
    else
      let ds ← leading first
      let (significand, left) := gather 0 ds
      match ← peek with
      | some '.' => do advance; fractionPart negative significand left
      | some 'e' | some 'E' => do advance; exponentPart negative significand left
      | _ =>
        if left = 0 then wholeNumber negative significand
        else scaledNumber negative significand left
where
  leading (first : Char) : Reader (List Char) := do
    if first = '0' then
      advance
      match ← peek with
      | some d => if d.isDigit then failNext .number else pure ['0']
      | none => pure ['0']
    else digits

def skipNumber : Reader Unit := do
  match ← peek with
  | none => fail .number
  | some first =>
    if !first.isDigit then failAfter .number
    else
      let _ ← number.leading first
      match ← peek with
      | some '.' => do
        advance
        let places ← digits
        if places.isEmpty then failNext .number
        else
          match ← peek with
          | some 'e' | some 'E' => skipExponent
          | _ => pure ()
      | some 'e' | some 'E' => skipExponent
      | _ => pure ()
where
  skipExponent : Reader Unit := do
    advance
    let _ ← exponentSign
    match ← peek with
    | none => fail .number
    | some d => if d.isDigit then do let _ ← digits; pure () else failAfter .number

end ProfilingAgent.Json.Reader
