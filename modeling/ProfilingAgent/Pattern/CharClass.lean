set_option autoImplicit false

namespace ProfilingAgent.Pattern

inductive CharClass
  | ranges (rs : List (Char × Char))
  | either (a b : CharClass)
  | both (a b : CharClass)
  | without (a b : CharClass)
  | oneOf (a b : CharClass)
  | not (a : CharClass)
  /-- The characters whose ASCII lower or upper case is in the class. -/
  | anyCase (a : CharClass)
deriving DecidableEq, Repr

namespace CharClass

def contains : CharClass → Char → Bool
  | ranges rs, c => rs.any fun r => decide (r.1 ≤ c) && decide (c ≤ r.2)
  | either a b, c => a.contains c || b.contains c
  | both a b, c => a.contains c && b.contains c
  | without a b, c => a.contains c && !b.contains c
  | oneOf a b, c => a.contains c != b.contains c
  | not a, c => !a.contains c
  | anyCase a, c => a.contains c.toLower || a.contains c.toUpper

def empty : CharClass := ranges []

def only (c : Char) : CharClass := ranges [(c, c)]

def digits : CharClass := ranges [('0', '9')]

def blanks : CharClass := ranges [('\t', '\r'), (' ', ' ')]

def wordCharacters : CharClass := ranges [('0', '9'), ('A', 'Z'), ('_', '_'), ('a', 'z')]

def ofName? (name : String) : Option CharClass :=
  [("alnum", ranges [('0', '9'), ('A', 'Z'), ('a', 'z')]),
   ("alpha", ranges [('A', 'Z'), ('a', 'z')]),
   ("ascii", ranges [('\x00', '\x7f')]),
   ("blank", ranges [('\t', '\t'), (' ', ' ')]),
   ("cntrl", ranges [('\x00', '\x1f'), ('\x7f', '\x7f')]),
   ("digit", digits),
   ("graph", ranges [('!', '~')]),
   ("lower", ranges [('a', 'z')]),
   ("print", ranges [(' ', '~')]),
   ("punct", ranges [('!', '/'), (':', '@'), ('[', '\x60'), ('\x7b', '~')]),
   ("space", blanks),
   ("upper", ranges [('A', 'Z')]),
   ("word", wordCharacters),
   ("xdigit", ranges [('0', '9'), ('A', 'F'), ('a', 'f')])].lookup name

end CharClass
end ProfilingAgent.Pattern
