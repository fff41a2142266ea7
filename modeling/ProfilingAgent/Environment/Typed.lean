import ProfilingAgent.Json.Value

set_option autoImplicit false

namespace ProfilingAgent.Environment

inductive Typed
  | text (s : String)
  | bool (b : Bool)
  | natural (n : UInt64)
  | integer (n : Int64)
  | real (x : Binary64)
  | list (items : List Typed)
  | dict (entries : List (String × Typed))

namespace Typed

instance : Inhabited Typed := ⟨text ""⟩

open Json

def naturalNumber (n : UInt64) : Number :=
  .whole n.toNat (by have := n.toNat_lt; omega)

def integerNumber (n : Int64) : Number :=
  .whole n.toInt (by have := n.toInt_lt; have := n.le_toInt; omega)

mutual

/-- The value as data. A number that is infinite or none has no such form and becomes null. -/
def toValue : Typed → Value
  | text s => .string s
  | bool b => .bool b
  | natural n => .number (naturalNumber n)
  | integer n => .number (integerNumber n)
  | real x =>
    match Number.ofBinary64? x with
    | some n => .number n
    | none => .null
  | list items => .array (toValues items)
  | dict entries => .object (toEntries entries)

def toValues : List Typed → List Value
  | [] => []
  | item :: rest => toValue item :: toValues rest

def toEntries : List (String × Typed) → List (String × Value)
  | [] => []
  | (key, item) :: rest => (key, toValue item) :: toEntries rest

end

mutual

/-- Lays one value over another. Dictionaries are laid over each other key by key; any other value
hides what is below it. -/
def onto : Typed → Typed → Typed
  | dict upper, dict lower => dict (ontoEntries upper lower)
  | upper, _ => upper

def ontoEntries : List (String × Typed) → List (String × Typed) → List (String × Typed)
  | [], lower => lower
  | (key, upper) :: rest, lower =>
    let merged := match lower.lookup key with
      | some below => onto upper below
      | none => upper
    insertEntry key merged (ontoEntries rest lower)

end

def nested : List String → Typed → Typed
  | [], v => v
  | key :: path, v => dict [(key, nested path v)]

end Typed
end ProfilingAgent.Environment
