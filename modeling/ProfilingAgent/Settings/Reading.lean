import ProfilingAgent.Settings.Lenient

set_option autoImplicit false

/-!
# Reading a layer

A layer is read from a JSON object, value by value, or from a text directly. An array gives the
settings in their usual order. A value that came from text is complete before it is looked at; a
text is read setting by setting, so a repeated setting is a fault, and a sample rate of the wrong
shape is left where it stands in the text.
-/
namespace ProfilingAgent

open Json Log

namespace Layer

def expected : String := "struct RawConfig"

def mismatchMessage (found expected : String) : String :=
  "invalid type: " ++ found ++ ", expected " ++ expected

def foundText : Value → String
  | .null => "null"
  | .bool b => "boolean `" ++ Value.boolText b ++ "`"
  | .number (.whole n r) => "integer `" ++ (Number.whole n r).text ++ "`"
  | .number (.real x f) => "floating point `" ++ (Number.real x f).text ++ "`"
  | .string s => "string " ++ Text.quoted s
  | .array _ => "sequence"
  | .object _ => "map"

def rateOfNumber (n : Number) : Except String UInt32 :=
  match n with
  | .whole n r =>
    if 0 ≤ n ∧ n < 0x100000000 then .ok (UInt32.ofNat n.toNat)
    else .error ("invalid value: integer `" ++ (Number.whole n r).text ++ "`, expected u32")
  | .real x f => .error (mismatchMessage (foundText (.number (.real x f))) "u32")

def rateOfValue : Value → Except String UInt32
  | .number n => rateOfNumber n
  | v => .error (mismatchMessage (foundText v) "u32")

def rate (v : Value) : Noted (Option UInt32) :=
  match rateOfValue v with
  | .ok n => pure (some n)
  | .error message => Lenient.rateRefused message

def readSetting (s : Setting) (v : Value) (l : Layer) : Noted Layer :=
  match v with
  | .null => pure l
  | v => Lenient.setting s v (rate v) l

def readEntries : List (String × Value) → Layer → Noted Layer
  | [], l => pure l
  | (key, v) :: rest, l => do
    match Setting.ofName? key with
    | none => readEntries rest l
    | some s => do
      let l ← readSetting s v l
      readEntries rest l

def readItems : List Setting → List Value → Layer → Noted Layer
  | s :: ss, v :: vs, l => do
    let l ← readSetting s v l
    readItems ss vs l
  | _, _, l => pure l

def ofValue : Value → Noted (Except Fault Layer)
  | .object entries => do
    let l ← readEntries entries empty
    pure (.ok l)
  | .array items => do
    let l ← readItems Setting.all items empty
    if Setting.all.length < items.length then
      pure (.error (.ofContent ("invalid length " ++ Text.numeral items.length ++
        ", expected fewer elements in array")))
    else pure (.ok l)
  | v => pure (.error (.ofContent (mismatchMessage (foundText v) expected)))

/-- Fails because of the value that stands next. A scalar is read first, a bracket is not. -/
def mismatch {α : Type} (expected : String) : Reader α := do
  match ← Reader.peek with
  | some 'n' => do Reader.advance; Reader.word ['u', 'l', 'l']; found .null
  | some 't' => do Reader.advance; Reader.word ['r', 'u', 'e']; found (.bool true)
  | some 'f' => do Reader.advance; Reader.word ['a', 'l', 's', 'e']; found (.bool false)
  | some '-' => do Reader.advance; let n ← Reader.number true; found (.number n)
  | some '"' => do Reader.advance; let s ← Reader.string; found (.string s)
  | some '[' => found (.array [])
  | some '{' => found (.object [])
  | some c =>
    if c.isDigit then do let n ← Reader.number false; found (.number n)
    else Reader.failNext .value
  | none => Reader.failNext .value
where
  found (v : Value) : Reader α := Reader.fail (.content (mismatchMessage (foundText v) expected))

def rateNumber (n : Number) : Reader (Option UInt32) :=
  match rateOfNumber n with
  | .ok n => pure (some n)
  | .error message => Reader.fail (.content message)

def rateReader : Reader (Option UInt32) := do
  match ← Reader.peekToken with
  | none => Reader.failNext .endInValue
  | some 'n' => do Reader.advance; Reader.word ['u', 'l', 'l']; pure none
  | some '-' => do Reader.advance; let n ← Reader.number true; rateNumber n
  | some c =>
    if c.isDigit then do let n ← Reader.number false; rateNumber n
    else mismatch "u32"

/-- Reads one setting. A fault in a sample rate is reported, and reading goes on where it arose. -/
def settingFrom (s : Setting) (l : Layer) (c : Cursor) : Noted (Outcome Layer) :=
  if s = .sampleRate then
    match rateReader c with
    | .done n left => pure (.done { l with sampleRate := n } left)
    | .failed fault left => do
      let n ← Lenient.rateRefused fault.message
      pure (.done { l with sampleRate := n } left)
  else
    match Reader.anyValue (Reader.depthLimit - 1) c with
    | .done v left => do
      let l ← readSetting s v l
      pure (.done l left)
    | .failed fault left => pure (.failed fault left)

def entriesFrom : Nat → Bool → List Setting → Layer → Cursor → Noted (Outcome Layer)
  | 0, _, _, _, c => pure (Reader.fail .depth c)
  | fuel + 1, first, seen, l, c =>
    match (do if ← Reader.anotherKey first then some <$> Reader.key else pure none :
        Reader (Option String)) c with
    | .failed fault left => pure (.failed fault left)
    | .done none left => pure (.done l left)
    | .done (some key) left =>
      match Setting.ofName? key with
      | none =>
        match (do Reader.colon; Reader.skipValue : Reader Unit) left with
        | .failed fault left => pure (.failed fault left)
        | .done _ left => entriesFrom fuel false seen l left
      | some s =>
        if s ∈ seen then pure (.failed (.ofContent ("duplicate field `" ++ s.name ++ "`")) left)
        else
          match Reader.colon left with
          | .failed fault left => pure (.failed fault left)
          | .done _ left => do
            match ← settingFrom s l left with
            | .failed fault left => pure (.failed fault left)
            | .done l left => entriesFrom fuel false (s :: seen) l left

def itemsFrom : List Setting → Bool → Layer → Cursor → Noted (Outcome Layer)
  | [], _, l, c => pure (.done l c)
  | s :: rest, first, l, c =>
    match Reader.anotherItem first c with
    | .failed fault left => pure (.failed fault left)
    | .done false left => pure (.done l left)
    | .done true left => do
      match ← settingFrom s l left with
      | .failed fault left => pure (.failed fault left)
      | .done l left => itemsFrom rest false l left

def startingAt (c : Cursor) : Noted (Outcome Layer) :=
  match Reader.peekToken c with
  | .failed fault left => pure (.failed fault left)
  | .done none left => pure (Reader.failNext .endInValue left)
  | .done (some '{') left => do
    let content ← entriesFrom (left.rest.length + 1) true [] empty left.tail
    pure (Reader.close content Reader.closeObject)
  | .done (some '[') left => do
    let content ← itemsFrom Setting.all true empty left.tail
    pure (Reader.close content Reader.closeArray)
  | .done (some _) left => pure (mismatch expected left)

end Layer

def wholeText {α : Type} (r : Outcome α) : Except Fault α :=
  match r with
  | .failed fault _ => .error fault
  | .done a left =>
    match Reader.atEnd left with
    | .done _ _ => .ok a
    | .failed fault _ => .error fault

def Layer.ofText (s : String) : Noted (Except Fault Layer) := do
  let r ← Layer.startingAt (.ofText s)
  pure (wholeText r)

def Lenient.ofText {α : Type} (read : Value → Noted α) (s : String) : Noted (Except Fault α) :=
  match Reader.anyValue Reader.depthLimit (.ofText s) with
  | .failed fault _ => pure (.error fault)
  | .done v left => do
    let a ← read v
    pure (wholeText (.done a left))

end ProfilingAgent
