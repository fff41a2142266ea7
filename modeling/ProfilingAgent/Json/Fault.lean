import ProfilingAgent.Text.Digits

set_option autoImplicit false

namespace ProfilingAgent.Json

inductive Cause
  | endInArray
  | endInObject
  | endInString
  | endInValue
  | colon
  | arrayCommaOrEnd
  | objectCommaOrEnd
  | word
  | value
  | escape
  | number
  | numberRange
  | controlCharacter
  | keyString
  | loneSurrogate
  | trailingComma
  | trailingCharacters
  | hexEscapeEnd
  | depth
  | content (message : String)
deriving DecidableEq, Repr

def Cause.message : Cause → String
  | endInArray => "EOF while parsing a list"
  | endInObject => "EOF while parsing an object"
  | endInString => "EOF while parsing a string"
  | endInValue => "EOF while parsing a value"
  | colon => "expected `:`"
  | arrayCommaOrEnd => "expected `,` or `]`"
  | objectCommaOrEnd => "expected `,` or `\x7d`"
  | word => "expected ident"
  | value => "expected value"
  | escape => "invalid escape"
  | number => "invalid number"
  | numberRange => "number out of range"
  | controlCharacter => "control character (\\u0000-\\u001F) found while parsing a string"
  | keyString => "key must be a string"
  | loneSurrogate => "lone leading surrogate in hex escape"
  | trailingComma => "trailing comma"
  | trailingCharacters => "trailing characters"
  | hexEscapeEnd => "unexpected end of hex escape"
  | depth => "recursion limit exceeded"
  | content message => message

/-- Lines count from one, columns count the bytes before the position on its line. -/
structure Position where
  line : Nat
  column : Nat
deriving DecidableEq, Repr

namespace Position

def start : Position := ⟨1, 0⟩

def after (p : Position) (c : Char) : Position :=
  if c = '\n' then ⟨p.line + 1, 0⟩ else ⟨p.line, p.column + c.utf8Size⟩

def afterByte (p : Position) (c : Char) : Position :=
  if c = '\n' then ⟨p.line + 1, 0⟩ else ⟨p.line, p.column + 1⟩

def text (p : Position) : String :=
  " at line " ++ Text.numeral p.line ++ " column " ++ Text.numeral p.column

def numberAtEnd? (cs : List Char) : Option (Nat × List Char) :=
  match Text.digits? (cs.takeWhile Char.isDigit).reverse with
  | none => none
  | some n => if n < 0x10000000000000000 then some (n, cs.dropWhile Char.isDigit) else none

def beforeWord? (word : String) (cs : List Char) : Option (List Char) :=
  let word := word.toList.reverse
  if word.isPrefixOf cs then some (cs.drop word.length) else none

def atEnd? (s : String) : Option (String × Position) := do
  let (column, cs) ← numberAtEnd? s.toList.reverse
  let (line, cs) ← numberAtEnd? (← beforeWord? " column " cs)
  let words ← beforeWord? " at line " cs
  some (String.ofList words.reverse, ⟨line, column⟩)

end Position

structure Fault where
  cause : Cause
  position : Option Position
deriving DecidableEq, Repr

namespace Fault

def message (f : Fault) : String :=
  match f.position with
  | none => f.cause.message
  | some p => f.cause.message ++ p.text

/-- A fault of content. It has no position yet, unless its words end in one. Line zero stands for no
position. -/
def ofContent (message : String) : Fault :=
  match Position.atEnd? message with
  | none => ⟨.content message, none⟩
  | some (words, p) => ⟨.content words, if p.line = 0 then none else some p⟩

def located (f : Fault) (p : Position) : Fault :=
  match f.position with
  | none => { f with position := some p }
  | some _ => f

end Fault
end ProfilingAgent.Json
