import ProfilingAgent.Log.Demand
import ProfilingAgent.Log.Threshold
import ProfilingAgent.Text.Bytes

set_option autoImplicit false

namespace ProfilingAgent.Log

structure Directive where
  target : Option String
  span : Option String
  field : Option FieldTest
  threshold : Threshold
deriving DecidableEq

namespace Directive

def general (t : Threshold) : Directive := ⟨none, none, none, t⟩

def hasDemand (d : Directive) : Bool := d.field.any (·.demand.isSome)

def isDynamic (d : Directive) : Bool := d.span.isSome || d.field.isSome

def isStatic (d : Directive) : Bool := d.span.isNone && !d.hasDemand

def sameSubject (a b : Directive) : Bool :=
  a.target == b.target && a.span == b.span && a.field == b.field

def threshold? (cs : List Char) : Option Threshold :=
  if cs.isEmpty then some (.upTo .trace) else Threshold.ofText? (String.ofList cs)

def part? (whole : List Char) (start stop : Nat) : Option String :=
  (Text.between? start stop whole).map String.ofList

def afterSpan? (whole : List Char) (d : Directive) (start : Nat) : List Char → Option Directive
  | [] => some d
  | '=' :: _ => do
    let (_, level) ← Text.splitBytes? (start + 1) whole
    let t ← threshold? level
    some { d with threshold := t }
  | _ => none

def afterBrace? (whole : List Char) (d : Directive) (start : Nat) (cs : List Char) :
    Option Directive :=
  let field := cs.takeWhile (· ≠ '}')
  let stop := start + Text.byteLength field
  match cs.drop field.length with
  | '}' :: ']' :: rest => do
    let name ← part? whole start stop
    let test ← if name.isEmpty then none else FieldTest.ofText? name
    afterSpan? whole { d with field := some test } (stop + 2) rest
  | _ => none

def afterBracket? (whole : List Char) (d : Directive) (start : Nat) (cs : List Char) :
    Option Directive :=
  let name := cs.takeWhile fun c => c ≠ ']' ∧ c ≠ '{'
  let stop := start + Text.byteLength name
  match cs.drop name.length with
  | ']' :: rest => do
    let span ← part? whole start stop
    afterSpan? whole { d with span := some span } (stop + 1) rest
  | '{' :: rest => do
    let span ← part? whole start stop
    afterBrace? whole { d with span := if span.isEmpty then none else some span } (stop + 1) rest
  | _ => none

def mayBegin (c : Char) : Bool :=
  c = '-' || c = ':' || c = '_' || Text.isLetter c || Text.isNumber c

/-- Reads a directive. A word that is no threshold is a target. White space around the directive
only matters in that the parts are cut out of the text at the bytes where they stand without it. -/
def ofText? (s : String) : Option Directive :=
  let whole := s.toList
  let any := general (.upTo .trace)
  match Text.trimChars whole with
  | [] => none
  | '[' :: rest => afterBracket? whole any 1 rest
  | first :: others =>
    let word := (first :: others).takeWhile fun c => c ≠ '=' ∧ c ≠ '['
    let stop := Text.byteLength word
    if !mayBegin first then none
    else
      match (first :: others).drop word.length with
      | '[' :: rest => do
        let target ← part? whole 0 stop
        afterBracket? whole { any with target := some target } (stop + 1) rest
      | [] =>
        match Threshold.ofText? s with
        | some t => some (general t)
        | none => some { any with target := some s }
      | rest => do
        let target ← part? whole 0 stop
        afterSpan? whole { any with target := some target } stop rest

def matchesTarget (d : Directive) (target : String) : Bool :=
  match d.target with
  | none => true
  | some t => t.toList.isPrefixOf target.toList

def concerns (d : Directive) (target : String) (s : Span) : Bool :=
  d.matchesTarget target && d.span.all (· == s.name) && d.field.all fun t => s.names.contains t.name

def isMetBy (d : Directive) (s : Span) : Bool := d.field.all (·.passedBy s)

def specificity (d : Directive) : Nat :=
  match d.target with
  | none => 0
  | some t => t.utf8ByteSize + 1

/-- The first directive goes before the second: its target is longer, or just as long and it names a
field, the later one in order if both do. -/
def goesBefore (a b : Directive) : Bool :=
  if a.specificity ≠ b.specificity then decide (b.specificity < a.specificity)
  else
    match a.field, b.field with
    | some x, some y => decide (y.name < x.name)
    | some _, none => true
    | none, _ => false

end Directive
end ProfilingAgent.Log
