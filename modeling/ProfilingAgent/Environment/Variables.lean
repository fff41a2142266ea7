import ProfilingAgent.Environment.Grammar
import ProfilingAgent.Settings.Reading
import ProfilingAgent.Text.Utf8

set_option autoImplicit false

namespace ProfilingAgent.Environment

open Text Json Log

structure Variable where
  name : List UInt8
  value : List UInt8
deriving DecidableEq, Repr

abbrev Variables := List Variable

def namePrefix : List Char := "PYROSCOPE_".toList

def afterPrefix? (name : List Char) : Option (List Char) :=
  if (name.take namePrefix.length).map Char.toUpper = namePrefix then
    some (name.drop namePrefix.length)
  else none

def path? (name : List UInt8) : Option (List String) := do
  let cs := trimChars (Utf8.decodeLossy name).toList
  let rest ← afterPrefix? cs
  let parts := Tag.Delimited.splitAt '.' ((trimChars rest).map Char.toLower)
  if parts.any (·.isEmpty) then none else some (parts.map String.ofList)

def typedFrom : Variables → Typed → Except Breakage Typed
  | [], below => .ok below
  | v :: rest, below =>
    match path? v.name with
    | none => typedFrom rest below
    | some path => do
      let value ← Typed.ofText (Utf8.decodeLossy v.value)
      typedFrom rest ((Typed.nested path value).onto below)

def typed (vs : Variables) : Except Breakage Typed := typedFrom vs (.dict [])

def origin : String := " in `PYROSCOPE_` environment variable(s)"

def rateMessage : Typed → String
  | .text s => wrongType ("string " ++ quoted s)
  | .bool b => wrongType ("bool " ++ Value.boolText b)
  | .natural n => wrongValue ("unsigned int `" ++ numeral n.toNat ++ "`")
  | .integer n => wrongValue ("signed int `" ++ String.ofList (decimalInt n.toInt) ++ "`")
  | .real x => wrongType ("float `" ++ String.ofList (Binary64.Layout.plain.text x) ++ "`")
  | .list _ => wrongType "sequence"
  | .dict _ => wrongType "map"
where
  wrongType (found : String) : String := "invalid type: found " ++ found ++ ", expected u32" ++ origin
  wrongValue (found : String) : String := "invalid value " ++ found ++ ", expected u32" ++ origin

def rate (t : Typed) : Noted (Option UInt32) :=
  match t with
  | .natural n => if n.toNat < 0x100000000 then pure (some n.toUInt32) else refuse
  | .integer n => if n = 0 then pure (some 0) else refuse
  | _ => refuse
where
  refuse := Lenient.rateRefused (rateMessage t)

def readEntries : List (String × Typed) → Layer → Noted Layer
  | [], l => pure l
  | (key, t) :: rest, l => do
    match Setting.ofName? key with
    | none => readEntries rest l
    | some s => do
      let l ← Lenient.setting s t.toValue (rate t) l
      readEntries rest l

def layerOf : Typed → Noted Layer
  | .dict entries => readEntries entries .empty
  | _ => pure .empty

def layer (vs : Variables) : Except Breakage (Noted Layer) := (typed vs).map layerOf

def adhocAddressName : String := "PYROSCOPE_ADHOC_SERVER_ADDRESS"

def adhocAddress? (vs : Variables) : Option String := do
  let v ← vs.find? fun v => v.name == Utf8.encode adhocAddressName
  Utf8.decode? v.value

end ProfilingAgent.Environment
