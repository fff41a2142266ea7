import ProfilingAgent.Json.Reader

set_option autoImplicit false

namespace ProfilingAgent.Json.Reader

def simpleEscape : Char → Option Char
  | '"' => some '"'
  | '\\' => some '\\'
  | '/' => some '/'
  | 'b' => some '\x08'
  | 'f' => some '\x0c'
  | 'n' => some '\n'
  | 'r' => some '\r'
  | 't' => some '\t'
  | _ => none

def hexDigits : Reader Nat := fun c =>
  match c.rest with
  | a :: b :: d :: e :: rest =>
    match Text.hexValue a, Text.hexValue b, Text.hexValue d, Text.hexValue e with
    | some a, some b, some d, some e =>
      .done (((a * 16 + b) * 16 + d) * 16 + e)
        ⟨rest, ⟨c.position.line, c.position.column + 4⟩⟩
    | _, _, _, _ => wrong c
  | _ => wrong c
where
  /-- Four bytes are read whatever they are, unless the text ends before. -/
  wrong (c : Cursor) : Outcome Nat :=
    if (c.rest.take 4).foldl (fun n ch => n + ch.utf8Size) 0 < 4 then
      fail .endInString (c.skipWhile fun _ => true)
    else fail .escape (Cursor.skipBytes 4 c.rest c.position)

def lowSurrogate (high : Nat) : Reader Char := do
  expect '\\'
  expect 'u'
  let low ← hexDigits
  if 0xDC00 ≤ low && low ≤ 0xDFFF then
    pure (Char.ofNat ((high - 0xD800) * 0x400 + (low - 0xDC00) + 0x10000))
  else fail .loneSurrogate
where
  expect (wanted : Char) : Reader Unit := do
    match ← peek with
    | none => fail .endInString
    | some c => if c = wanted then advance else failAfter .hexEscapeEnd

def escape : Reader Char := do
  match ← peek with
  | none => fail .endInString
  | some 'u' =>
    advance
    let n ← hexDigits
    if 0xDC00 ≤ n && n ≤ 0xDFFF then fail .loneSurrogate
    else if 0xD800 ≤ n && n ≤ 0xDBFF then lowSurrogate n
    else pure (Char.ofNat n)
  | some c =>
    match simpleEscape c with
    | some c => do advance; pure c
    | none => failAfter .escape

/-- Reads to the closing quote and gives what stood before it, last character first. Every step reads
a character, so there are no more steps than characters that were left at the start. -/
def stringBody : List Char → List Char → Reader (List Char)
  | [], _ => fail .endInString
  | _ :: fuel, before => do
    match ← peek with
    | none => fail .endInString
    | some '"' => do advance; pure before
    | some '\\' => do advance; let c ← escape; stringBody fuel (c :: before)
    | some c =>
      if c.toNat < 0x20 then failAfter .controlCharacter
      else do advance; stringBody fuel (c :: before)

def string : Reader String := fun c =>
  (do let cs ← stringBody c.rest []; pure (String.ofList cs.reverse) : Reader String) c

/-- Steps over a string behind its opening quote. Surrogates need not be paired here. -/
def skipStringBody : List Char → Reader Unit
  | [] => fail .endInString
  | _ :: fuel => do
    match ← peek with
    | none => fail .endInString
    | some '"' => advance
    | some '\\' => do
      advance
      match ← peek with
      | none => fail .endInString
      | some 'u' => do advance; let _ ← hexDigits; skipStringBody fuel
      | some c => if (simpleEscape c).isSome then do advance; skipStringBody fuel else failAfter .escape
    | some c =>
      if c.toNat < 0x20 then fail .controlCharacter else do advance; skipStringBody fuel

def skipString : Reader Unit := fun c => skipStringBody c.rest c

end ProfilingAgent.Json.Reader
