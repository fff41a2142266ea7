import ProfilingAgent.Binary64.Decimal
import ProfilingAgent.Environment.Typed
import ProfilingAgent.Text.Blank
import ProfilingAgent.Text.Bytes
import ProfilingAgent.Text.Quoted

set_option autoImplicit false

/-!
# The grammar of variables

A variable's text is `true`, `false`, a dictionary in braces, a list in brackets, a text in double
quotes, one character in single quotes, a number, or anything else, which stands for itself. A text
that does not follow the grammar to its end stands for itself as a whole.

Where a quoted text has escapes, the part before the first escape is cut out by a length in bytes
that counts its characters. When the cut falls inside a character nothing can be read at all.
-/
namespace ProfilingAgent.Environment

open Text

structure Breakage where
  text : String
  index : Nat
deriving DecidableEq, Repr

namespace Breakage

def around (index : Nat) : Nat → List Char → Option (Char × Nat)
  | _, [] => none
  | first, c :: rest =>
    if index < first + c.utf8Size then some (c, first) else around index (first + c.utf8Size) rest

def message (b : Breakage) : String :=
  match around b.index 0 b.text.toList with
  | none =>
    "end byte index " ++ numeral b.index ++ " is out of bounds for string of length " ++
      numeral b.text.utf8ByteSize
  | some (c, first) =>
    "end byte index " ++ numeral b.index ++ " is not a char boundary; it is inside '" ++
      String.ofList (quotedChar c) ++ "' (bytes " ++ numeral first ++ ".." ++
      numeral (first + c.utf8Size) ++ " of string)"

end Breakage

inductive Refusal
  | malformed
  | broken (b : Breakage)

def isSpace (c : Char) : Bool := c = ' ' || c = '\t' || c = '\n' || c = '\x0c' || c = '\r'

def skipSpaces (cs : List Char) : List Char := cs.dropWhile isSpace

def isSeparator (c : Char) : Bool := c = ',' || c = '{' || c = '}' || c = '[' || c = ']'

def isKeyCharacter (c : Char) : Bool := c.isAlphanum || c = '_' || c = '-'

def isPlain (c : Char) : Bool := c = '\t' || (0x20 ≤ c.toNat && c.toNat ≠ 0x7f)

def hexLength? (c : Char) : Option Nat :=
  if c = 'u' then some 4 else if c = 'U' then some 8 else none

def escapeLetter? : Char → Option Char
  | '"' => some '"'
  | '\\' => some '\\'
  | 'b' => some '\x08'
  | 'f' => some '\x0c'
  | 'n' => some '\n'
  | 'r' => some '\r'
  | 't' => some '\t'
  | _ => none

def unescape : Nat → List Char → Option (List Char)
  | 0, _ => none
  | _ + 1, [] => some []
  | fuel + 1, '\\' :: letter :: rest =>
    match hexLength? letter with
    | some n =>
      if rest.length < n then none
      else do
        let c ← character? (← (rest.take n).mapM hexValue)
        let more ← unescape fuel (rest.drop n)
        pure (c :: more)
    | none => do
      let c ← escapeLetter? letter
      let more ← unescape fuel rest
      pure (c :: more)
  | _ + 1, ['\\'] => none
  | fuel + 1, c :: rest =>
    if isPlain c then (unescape fuel rest).map (c :: ·) else none

def quotedText (inner : List Char) : Except Refusal String :=
  let before := inner.takeWhile (· ≠ '\\')
  let escapes := inner.dropWhile (· ≠ '\\')
  if !before.all isPlain then .error .malformed
  else if escapes.isEmpty then .ok (String.ofList before)
  else
    match splitBytes? before.length inner with
    | none => .error (.broken ⟨String.ofList inner, before.length⟩)
    | some (kept, _) =>
      match unescape (escapes.length + 1) escapes with
      | none => .error .malformed
      | some rest => .ok (String.ofList (kept ++ rest))

def untilQuote : List Char → Option (List Char × List Char)
  | [] => none
  | '"' :: rest => some ([], rest)
  | '\\' :: c :: rest => (untilQuote rest).map fun r => ('\\' :: c :: r.1, r.2)
  | c :: rest => (untilQuote rest).map fun r => (c :: r.1, r.2)

def quotedPart (cs : List Char) : Except Refusal (String × List Char) :=
  match untilQuote cs with
  | none => .error .malformed
  | some (inner, rest) => (quotedText inner).map fun s => (s, rest)

def keyPart (cs : List Char) : Except Refusal (String × List Char) :=
  match cs with
  | '"' :: rest => quotedPart rest
  | _ =>
    let key := cs.takeWhile isKeyCharacter
    if key.isEmpty then .error .malformed
    else .ok (String.ofList key, cs.dropWhile isKeyCharacter)

def unsigned? (cs : List Char) : Option UInt64 :=
  (natural? cs).bind fun n => if n < 0x10000000000000000 then some (UInt64.ofNat n) else none

def signed? (cs : List Char) : Option Int64 :=
  (integer? cs).bind fun n =>
    if -0x8000000000000000 ≤ n ∧ n < 0x8000000000000000 then some (Int64.ofInt n) else none

def word (cs : List Char) : Typed :=
  let s := String.ofList cs
  match (if cs.contains '.' then Binary64.ofText? s else none) with
  | some x => .real x
  | none =>
    match unsigned? cs with
    | some n => .natural n
    | none =>
      match signed? cs with
      | some n => .integer n
      | none => .text s

mutual

def value : Nat → List Char → Except Refusal (Typed × List Char)
  | 0, _ => .error .malformed
  | fuel + 1, cs => do
    let (v, rest) ← bare fuel (skipSpaces cs)
    pure (v, skipSpaces rest)

def bare : Nat → List Char → Except Refusal (Typed × List Char)
  | 0, _ => .error .malformed
  | fuel + 1, cs =>
    match cs with
    | 't' :: 'r' :: 'u' :: 'e' :: rest => .ok (.bool true, rest)
    | 'f' :: 'a' :: 'l' :: 's' :: 'e' :: rest => .ok (.bool false, rest)
    | '{' :: rest => do
      let (entries, rest) ← entries fuel rest
      pure (.dict (Dict.ofList entries).entries, rest)
    | '[' :: rest => do
      let (items, rest) ← items fuel rest
      pure (.list items, rest)
    | '"' :: rest => do
      let (s, rest) ← quotedPart rest
      pure (.text s, rest)
    | '\'' :: c :: '\'' :: rest => .ok (.text (String.singleton c), rest)
    | '\'' :: _ => .error .malformed
    | _ =>
      .ok (word (trimChars (cs.takeWhile (!isSeparator ·))), cs.dropWhile (!isSeparator ·))

def entries : Nat → List Char → Except Refusal (List (String × Typed) × List Char)
  | 0, _ => .error .malformed
  | fuel + 1, cs =>
    match cs with
    | '}' :: rest => .ok ([], rest)
    | _ => do
      let (key, rest) ← keyPart (skipSpaces cs)
      match skipSpaces rest with
      | '=' :: rest => do
        let (v, rest) ← value fuel (skipSpaces rest)
        match skipSpaces rest with
        | ',' :: rest => do
          let (more, rest) ← entries fuel rest
          pure ((key, v) :: more, rest)
        | '}' :: rest => pure ([(key, v)], rest)
        | _ => .error .malformed
      | _ => .error .malformed

def items : Nat → List Char → Except Refusal (List Typed × List Char)
  | 0, _ => .error .malformed
  | fuel + 1, cs =>
    match cs with
    | ']' :: rest => .ok ([], rest)
    | _ => do
      let (v, rest) ← value fuel cs
      match rest with
      | ',' :: rest => do
        let (more, rest) ← items fuel rest
        pure (v :: more, rest)
      | ']' :: rest => pure ([v], rest)
      | _ => .error .malformed

end

def Typed.ofText (s : String) : Except Breakage Typed :=
  match value (3 * s.length + 3) s.toList with
  | .ok (v, []) => .ok v
  | .ok (_, _ :: _) => .ok (.text s)
  | .error .malformed => .ok (.text s)
  | .error (.broken b) => .error b

end ProfilingAgent.Environment
