import ProfilingAgent.Log.Level
import ProfilingAgent.Text.Quoted

set_option autoImplicit false

namespace ProfilingAgent.Log

inductive FieldValue
  | shown (text : String)
  | quoted (text : String)
  | flag (b : Bool)
  | number (n : Int)
deriving DecidableEq, Repr

structure Field where
  name : String
  value : FieldValue
deriving DecidableEq, Repr

structure Event where
  level : Level
  message : Option String
  fields : List Field
deriving DecidableEq, Repr

structure Span where
  level : Level
  name : String
  fields : List Field
  unset : List String
deriving DecidableEq, Repr

namespace Event

def say (level : Level) (message : String) : Event := ⟨level, some message, []⟩

def names (e : Event) : List String :=
  (e.message.map fun _ => "message").toList ++ e.fields.map (·.name)

end Event

def Span.names (s : Span) : List String := s.fields.map (·.name) ++ s.unset

def visible (c : Char) : List Char :=
  let n := c.toNat
  if n = 0x1b ∨ n = 0x07 ∨ n = 0x08 ∨ n = 0x0c ∨ n = 0x7f then
    '\\' :: 'x' :: Text.hexPadded 2 n
  else if 0x80 ≤ n ∧ n ≤ 0x9f then '\\' :: 'u' :: '{' :: Text.hexadecimal n ++ ['}']
  else [c]

def visibleText (s : String) : String := String.ofList (s.toList.flatMap visible)

def FieldValue.text : FieldValue → String
  | shown text => text
  | quoted text => Text.quoted text
  | flag b => if b then "true" else "false"
  | number n => String.ofList (Text.decimalInt n)

def Field.text (f : Field) : String := f.name ++ "=" ++ f.value.text

def Span.text (s : Span) : String :=
  let fields := " ".intercalate (s.fields.map Field.text)
  if fields.isEmpty then s.name ++ ": " else s.name ++ "\x7b" ++ fields ++ "\x7d: "

def Event.body (e : Event) : String :=
  let message := (e.message.map visibleText).toList
  " ".intercalate (message ++ e.fields.map Field.text)

def Event.line (e : Event) (spans : List Span) : String :=
  "PYROSCOPE | " ++ e.level.label ++ " | " ++ String.join (spans.map Span.text) ++ e.body ++ "\n"

end ProfilingAgent.Log
