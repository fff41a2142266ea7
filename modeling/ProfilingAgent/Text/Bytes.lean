set_option autoImplicit false

namespace ProfilingAgent.Text

def byteLength : List Char → Nat
  | [] => 0
  | c :: cs => c.utf8Size + byteLength cs

/-- The first bytes of a text and the others, unless the cut falls inside a character or beyond the
end. -/
def splitBytes? : Nat → List Char → Option (List Char × List Char)
  | 0, cs => some ([], cs)
  | _ + 1, [] => none
  | n + 1, c :: cs =>
    if c.utf8Size ≤ n + 1 then
      (splitBytes? (n + 1 - c.utf8Size) cs).map fun parts => (c :: parts.1, parts.2)
    else none
termination_by _ cs => cs.length

def between? (start stop : Nat) (cs : List Char) : Option (List Char) := do
  let (_, cs) ← splitBytes? start cs
  let (cs, _) ← splitBytes? (stop - start) cs
  some cs

end ProfilingAgent.Text
