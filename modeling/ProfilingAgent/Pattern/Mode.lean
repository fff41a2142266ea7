import ProfilingAgent.Text.Blank

set_option autoImplicit false

namespace ProfilingAgent.Pattern

structure Mode where
  anyCase : Bool := false
  /-- The marks for the ends of the text stand for the ends of a line. -/
  manyLines : Bool := false
  dotAll : Bool := false
  /-- A repetition goes on as short as possible unless it is marked. -/
  swapped : Bool := false
  unicode : Bool := true
  returns : Bool := false
  spaced : Bool := false
deriving DecidableEq, Repr

namespace Mode

def switch? (m : Mode) (on : Bool) : Char → Option Mode
  | 'i' => some { m with anyCase := on }
  | 'm' => some { m with manyLines := on }
  | 's' => some { m with dotAll := on }
  | 'U' => some { m with swapped := on }
  | 'u' => some { m with unicode := on }
  | 'R' => some { m with returns := on }
  | 'x' => some { m with spaced := on }
  | _ => none

def switchAll? (m : Mode) (letters : List Char) : Option Mode :=
  if letters.eraseDups ≠ letters ∨ letters.getLast? = some '-' then none
  else do
    let on ← (letters.takeWhile (· ≠ '-')).foldlM (·.switch? true ·) m
    ((letters.dropWhile (· ≠ '-')).drop 1).foldlM (·.switch? false ·) on

def skipSpaces (inComment : Bool) : List Char → List Char
  | [] => []
  | c :: cs =>
    if inComment then skipSpaces (c ≠ '\n') cs
    else if Text.isBlank c then skipSpaces false cs
    else if c = '#' then skipSpaces true cs
    else c :: cs

def skip (m : Mode) (cs : List Char) : List Char := if m.spaced then skipSpaces false cs else cs

end Mode
end ProfilingAgent.Pattern
