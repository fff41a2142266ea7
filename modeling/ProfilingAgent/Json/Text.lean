import ProfilingAgent.Json.Brackets
import ProfilingAgent.Json.Numbers

set_option autoImplicit false

/-!
# Reading values

`value` reads a value as it is written, with the entries of an object in the order of the text and
repeated keys repeated. In its normal form the keys are in order and the last value of a repeated
key is kept. `skipValue` steps over a value that nobody wants, with no limit on its depth. Both
readers are given fuel; one unit per character and one more for each part is always enough.
-/
namespace ProfilingAgent.Json.Reader

mutual

def value : Nat → Nat → Reader Value
  | 0, _ => fail .depth
  | fuel + 1, depth => do
    match ← peekToken with
    | none => failNext .endInValue
    | some 'n' => do advance; word ['u', 'l', 'l']; pure .null
    | some 't' => do advance; word ['r', 'u', 'e']; pure (.bool true)
    | some 'f' => do advance; word ['a', 'l', 's', 'e']; pure (.bool false)
    | some '-' => do advance; let n ← number true; pure (.number n)
    | some '"' => do advance; let s ← string; pure (.string s)
    | some '[' => entering depth do
      let items ← items fuel (depth - 1) true
      closeArray
      pure (.array items)
    | some '{' => entering depth do
      let entries ← entries fuel (depth - 1) true
      closeObject
      pure (.object entries)
    | some c =>
      if c.isDigit then do let n ← number false; pure (.number n) else failNext .value

def items : Nat → Nat → Bool → Reader (List Value)
  | 0, _, _ => fail .depth
  | fuel + 1, depth, first => do
    if ← anotherItem first then
      let item ← value fuel depth
      let rest ← items fuel depth false
      pure (item :: rest)
    else pure []

def entries : Nat → Nat → Bool → Reader (List (String × Value))
  | 0, _, _ => fail .depth
  | fuel + 1, depth, first => do
    if ← anotherKey first then
      let key ← key
      colon
      let value ← value fuel depth
      let rest ← entries fuel depth false
      pure ((key, value) :: rest)
    else pure []

end

def fuelFor (length : Nat) : Nat := 2 * length + 2

def writtenValue (depth : Nat) : Reader Value := fun c => value (fuelFor c.rest.length) depth c

def anyValue (depth : Nat) : Reader Value := do
  let v ← writtenValue depth
  pure v.normal

mutual

def skipValueWith : Nat → Reader Unit
  | 0 => fail .depth
  | fuel + 1 => do
    match ← peekToken with
    | none => failNext .endInValue
    | some 'n' => do advance; word ['u', 'l', 'l']
    | some 't' => do advance; word ['r', 'u', 'e']
    | some 'f' => do advance; word ['a', 'l', 's', 'e']
    | some '-' => do advance; skipNumber
    | some '"' => do advance; skipString
    | some '[' => do advance; skipItems fuel true
    | some '{' => do advance; skipEntries fuel true
    | some c => if c.isDigit then skipNumber else failNext .value

def skipItems : Nat → Bool → Reader Unit
  | 0, _ => fail .depth
  | fuel + 1, first => do
    match ← peekToken with
    | none => failNext .endInArray
    | some ']' => advance
    | some c =>
      if first then do skipValueWith fuel; skipItems fuel false
      else if c = ',' then do advance; skipValueWith fuel; skipItems fuel false
      else failNext .arrayCommaOrEnd

def skipEntries : Nat → Bool → Reader Unit
  | 0, _ => fail .depth
  | fuel + 1, first => do
    match ← peekToken with
    | none => failNext .endInObject
    | some '}' => advance
    | some c =>
      if first then do skipEntry fuel; skipEntries fuel false
      else if c = ',' then do advance; skipEntry fuel; skipEntries fuel false
      else failNext .objectCommaOrEnd

def skipEntry : Nat → Reader Unit
  | 0 => fail .depth
  | fuel + 1 => do
    match ← peekToken with
    | none => failNext .endInObject
    | some '"' =>
      advance
      skipString
      colon
      skipValueWith fuel
    | some _ => failNext .keyString

end

def skipValue : Reader Unit := fun c => skipValueWith (2 * fuelFor c.rest.length) c

end ProfilingAgent.Json.Reader

namespace ProfilingAgent.Json

def Value.written (s : String) : Except Fault Value :=
  (Reader.writtenValue Reader.depthLimit).run s

def Value.ofText (s : String) : Except Fault Value := (Reader.anyValue Reader.depthLimit).run s

end ProfilingAgent.Json
