import ProfilingAgent.Json.Fault

set_option autoImplicit false

namespace ProfilingAgent.Json

structure Cursor where
  rest : List Char
  position : Position

namespace Cursor

def ofText (s : String) : Cursor := ⟨s.toList, .start⟩

def nextPosition (c : Cursor) : Position :=
  match c.rest with
  | [] => c.position
  | ch :: _ => c.position.afterByte ch

def isBlank (c : Char) : Bool := c = ' ' || c = '\n' || c = '\t' || c = '\r'

def skipWhile (p : Char → Bool) (c : Cursor) : Cursor :=
  ⟨c.rest.dropWhile p, (c.rest.takeWhile p).foldl Position.after c.position⟩

def skipBlanks (c : Cursor) : Cursor := c.skipWhile isBlank

def tail (c : Cursor) : Cursor :=
  match c.rest with
  | [] => c
  | ch :: rest => ⟨rest, c.position.after ch⟩

/-- Steps over some bytes. A character that is cut this way leaves a rest that nothing accepts. -/
def skipBytes : Nat → List Char → Position → Cursor
  | 0, rest, p => ⟨rest, p⟩
  | _ + 1, [], p => ⟨[], p⟩
  | n + 1, c :: rest, p =>
    if c.utf8Size ≤ n + 1 then skipBytes (n + 1 - c.utf8Size) rest (p.after c)
    else ⟨Char.ofNat 0xFFFD :: rest, ⟨p.line, p.column + n + 1⟩⟩
termination_by _ rest => rest.length

def tailByte (c : Cursor) : Cursor := skipBytes 1 c.rest c.position

end Cursor

inductive Outcome (α : Type)
  | done (value : α) (left : Cursor)
  | failed (fault : Fault) (left : Cursor)

def Reader (α : Type) := Cursor → Outcome α

namespace Reader

variable {α β : Type}

instance : Monad Reader where
  pure a := fun c => .done a c
  bind r f := fun c =>
    match r c with
    | .done a left => f a left
    | .failed fault left => .failed fault left

instance : Inhabited (Reader α) := ⟨fun c => .failed (.ofContent "") c⟩

def fail (cause : Cause) : Reader α := fun c => .failed ⟨cause, some c.position⟩ c

def failNext (cause : Cause) : Reader α := fun c => .failed ⟨cause, some c.nextPosition⟩ c

def failAfter (cause : Cause) : Reader α := fun c => .failed ⟨cause, some c.nextPosition⟩ c.tailByte

def failWith (fault : Fault) : Reader α := fun c => .failed fault c

def peek : Reader (Option Char) := fun c => .done c.rest.head? c

def peekToken : Reader (Option Char) := fun c =>
  let c := c.skipBlanks
  .done c.rest.head? c

def advance : Reader Unit := fun c => .done () c.tail

def digits : Reader (List Char) := fun c =>
  .done (c.rest.takeWhile Char.isDigit) (c.skipWhile Char.isDigit)

def word : List Char → Reader Unit
  | [] => pure ()
  | expected :: more => do
    match ← peek with
    | none => fail .endInValue
    | some c => if c = expected then do advance; word more else failAfter .word

def atEnd : Reader Unit := do
  match ← peekToken with
  | none => pure ()
  | some _ => failNext .trailingCharacters

/-- The end of a part between brackets, behind its content. A fault in the content goes first, but
the closing bracket is looked for all the same, and a fault without a position is placed where that
ends. -/
def close (content : Outcome α) (bracket : Reader Unit) : Outcome α :=
  match content with
  | .done a left =>
    match bracket left with
    | .done _ left => .done a left
    | .failed fault left => .failed fault left
  | .failed fault left =>
    match bracket left with
    | .done _ left => .failed (fault.located left.position) left
    | .failed _ left => .failed (fault.located left.position) left

def run (r : Reader α) (s : String) : Except Fault α :=
  match (do let a ← r; atEnd; pure a : Reader α) (.ofText s) with
  | .done a _ => .ok a
  | .failed fault _ => .error fault

end Reader
end ProfilingAgent.Json
