import ProfilingAgent.Binary64.Layout
import ProfilingAgent.Dict
import ProfilingAgent.Text.Quoted

set_option autoImplicit false

/-!
# JSON values

Values, their compact text and the form in which messages describe them. A number is whole if it
fits 64 bits with or without a sign, and otherwise a finite double. The entries of an object are
kept in the order of a text; in the normal form of a value their keys increase.
-/
namespace ProfilingAgent.Json

inductive Number
  | whole (n : Int) (inRange : -0x8000000000000000 ≤ n ∧ n < 0x10000000000000000)
  | real (x : Binary64) (finite : x.isFinite = true)
deriving DecidableEq

namespace Number

def ofUInt32 (n : UInt32) : Number :=
  .whole n.toNat (by have := n.toNat_lt; omega)

/-- A number that is infinite or none has no JSON form. -/
def ofBinary64? (x : Binary64) : Option Number :=
  if h : x.isFinite = true then some (.real x h) else none

def ofInt? (n : Int) : Option Number :=
  if h : -0x8000000000000000 ≤ n ∧ n < 0x10000000000000000 then some (.whole n h) else none

def chars : Number → List Char
  | whole n _ => Text.decimalInt n
  | real x _ => Binary64.Layout.data.text x

def text (n : Number) : String := String.ofList n.chars

end Number

inductive Value
  | null
  | bool (b : Bool)
  | number (n : Number)
  | string (s : String)
  | array (items : List Value)
  | object (entries : List (String × Value))

namespace Value

instance : Inhabited Value := ⟨null⟩

def escaped (c : Char) : List Char :=
  if c = '"' then ['\\', '"']
  else if c = '\\' then ['\\', '\\']
  else if c = '\n' then ['\\', 'n']
  else if c = '\r' then ['\\', 'r']
  else if c = '\t' then ['\\', 't']
  else if c = '\x08' then ['\\', 'b']
  else if c = '\x0c' then ['\\', 'f']
  else if c.toNat < 0x20 then '\\' :: 'u' :: Text.hexPadded 4 c.toNat
  else [c]

def stringChars (s : String) : List Char := '"' :: s.toList.flatMap escaped ++ ['"']

def boolText (b : Bool) : String := if b then "true" else "false"

mutual

def chars : Value → List Char
  | null => "null".toList
  | bool b => (boolText b).toList
  | number n => n.chars
  | string s => stringChars s
  | array [] => ['[', ']']
  | array (first :: rest) => '[' :: chars first ++ itemChars rest
  | object [] => ['{', '}']
  | object ((key, value) :: rest) =>
    '{' :: stringChars key ++ ':' :: chars value ++ entryChars rest

def itemChars : List Value → List Char
  | [] => [']']
  | item :: rest => ',' :: chars item ++ itemChars rest

def entryChars : List (String × Value) → List Char
  | [] => ['}']
  | (key, value) :: rest => ',' :: stringChars key ++ ':' :: chars value ++ entryChars rest

end

def text (v : Value) : String := String.ofList v.chars

mutual

def describeChars : Value → List Char
  | null => "Null".toList
  | bool b => "Bool(".toList ++ (boolText b).toList ++ [')']
  | number n => "Number(".toList ++ n.chars ++ [')']
  | string s => "String(".toList ++ Text.quotedChars s.toList ++ [')']
  | array [] => "Array []".toList
  | array (first :: rest) => "Array [".toList ++ describeChars first ++ describeItems rest
  | object [] => "Object ".toList ++ ['{', '}']
  | object ((key, value) :: rest) =>
    "Object ".toList ++ '{' :: Text.quotedChars key.toList ++ ": ".toList ++ describeChars value ++
      describeEntries rest

def describeItems : List Value → List Char
  | [] => [']']
  | item :: rest => ", ".toList ++ describeChars item ++ describeItems rest

def describeEntries : List (String × Value) → List Char
  | [] => ['}']
  | (key, value) :: rest =>
    ", ".toList ++ Text.quotedChars key.toList ++ ": ".toList ++ describeChars value ++
      describeEntries rest

end

def describe (v : Value) : String := String.ofList v.describeChars

def kind : Value → String
  | null => "null"
  | bool _ => "a boolean"
  | number _ => "a number"
  | string _ => "a string"
  | array _ => "an array"
  | object _ => "an object"

mutual

def normal : Value → Value
  | array items => array (normalItems items)
  | object entries => object (Dict.ofList (normalEntries entries)).entries
  | v => v

def normalItems : List Value → List Value
  | [] => []
  | item :: rest => normal item :: normalItems rest

def normalEntries : List (String × Value) → List (String × Value)
  | [] => []
  | (key, value) :: rest => (key, normal value) :: normalEntries rest

end

def ofTexts (d : Dict String) : Value := .object (d.entries.map fun e => (e.1, .string e.2))

end Value
end ProfilingAgent.Json
