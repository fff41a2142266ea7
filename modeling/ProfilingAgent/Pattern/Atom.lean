import ProfilingAgent.Pattern.Basic
import ProfilingAgent.Pattern.Mode
import ProfilingAgent.Text.Digits

set_option autoImplicit false

/-!
# Escapes

What a backslash and the characters behind it stand for. There are no tables of Unicode
properties: the classes of digits, blanks and word characters, the edges of words and letters in
any case can only be had for ASCII, in a mode without Unicode. In such a mode nothing may stand for
a byte that is not ASCII, so that there are no complements.
-/
namespace ProfilingAgent.Pattern

inductive Atom
  | char (c : Char)
  | among (c : CharClass)
  | place (p : Place)
deriving DecidableEq, Repr

namespace Atom

/-- The marks that mean themselves behind a backslash: all of ASCII but letters, digits and the
angle brackets. -/
def isEscapable (c : Char) : Bool :=
  decide (c.toNat < 0x80) && !c.isAlphanum && c ≠ '<' && c ≠ '>'

def control? : Char → Option Char
  | 'a' => some '\x07'
  | 'f' => some '\x0c'
  | 't' => some '\t'
  | 'n' => some '\n'
  | 'r' => some '\r'
  | 'v' => some '\x0b'
  | _ => none

def class? (m : Mode) (c : Char) : Option CharClass :=
  if m.unicode then none
  else
    match c with
    | 'd' => some .digits
    | 's' => some .blanks
    | 'w' => some .wordCharacters
    | _ => none

def place? (m : Mode) (c : Char) : Option Place :=
  match c with
  | 'A' => some .textStart
  | 'z' => some .textEnd
  | _ =>
    if m.unicode then none
    else
      match c with
      | 'b' => some .wordEdge
      | 'B' => some .noWordEdge
      | '<' => some .wordStart
      | '>' => some .wordEnd
      | _ => none

def hexLength? : Char → Option Nat
  | 'x' => some 2
  | 'u' => some 4
  | 'U' => some 8
  | _ => none

def hexDigits? (m : Mode) : Nat → List Char → Option (List Nat × List Char)
  | 0, cs => some ([], m.skip cs)
  | n + 1, cs =>
    match m.skip cs with
    | [] => none
    | c :: rest => do
      let d ← Text.hexValue c
      let (ds, rest) ← hexDigits? m n rest
      some (d :: ds, rest)

def ofEscape? (m : Mode) : List Char → Option (Atom × List Char)
  | [] => none
  | c :: rest =>
    match hexLength? c with
    | some n => do
      let (ds, rest) ← hexDigits? m n rest
      let x ← Text.character? ds
      if !m.unicode && n = 2 && 0x80 ≤ x.toNat then none else some (char x, rest)
    | none =>
      if isEscapable c then some (char c, rest)
      else
        match control? c, class? m c, place? m c with
        | some x, _, _ => some (char x, rest)
        | none, some x, _ => some (among x, rest)
        | none, none, some p => some (place p, rest)
        | none, none, none => none

end Atom
end ProfilingAgent.Pattern
