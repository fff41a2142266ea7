import ProfilingAgent.Json.Strings

set_option autoImplicit false

namespace ProfilingAgent.Json.Reader

/-- Arrays and objects stand at most this deep in each other, plus one. -/
def depthLimit : Nat := 128

def anotherItem (first : Bool) : Reader Bool := do
  match ← peekToken with
  | none => failNext .endInArray
  | some ']' => pure false
  | some c =>
    if first then pure true
    else if c = ',' then do
      advance
      match ← peekToken with
      | none => failNext .endInValue
      | some ']' => failNext .trailingComma
      | some _ => pure true
    else failNext .arrayCommaOrEnd

def anotherKey (first : Bool) : Reader Bool := do
  match ← peekToken with
  | none => failNext .endInObject
  | some '}' => pure false
  | some c =>
    if first then
      if c = '"' then pure true else failNext .keyString
    else if c = ',' then do
      advance
      match ← peekToken with
      | none => failNext .endInValue
      | some '"' => pure true
      | some '}' => failNext .trailingComma
      | some _ => failNext .keyString
    else failNext .objectCommaOrEnd

def key : Reader String := do
  advance
  string

def colon : Reader Unit := do
  match ← peekToken with
  | none => failNext .endInObject
  | some ':' => advance
  | some _ => failNext .colon

def closeArray : Reader Unit := do
  match ← peekToken with
  | none => failNext .endInArray
  | some ']' => advance
  | some ',' => do
    advance
    match ← peekToken with
    | some ']' => failNext .trailingComma
    | _ => failNext .trailingCharacters
  | some _ => failNext .trailingCharacters

def closeObject : Reader Unit := do
  match ← peekToken with
  | none => failNext .endInObject
  | some '}' => advance
  | some ',' => failNext .trailingComma
  | some _ => failNext .trailingCharacters

def entering {α : Type} (depth : Nat) (content : Reader α) : Reader α := do
  if depth ≤ 1 then failNext .depth
  else
    advance
    content

end ProfilingAgent.Json.Reader
