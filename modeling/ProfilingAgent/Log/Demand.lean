import ProfilingAgent.Binary64.Decimal
import ProfilingAgent.Log.Event
import ProfilingAgent.Pattern.Reading

set_option autoImplicit false

namespace ProfilingAgent.Log

inductive Demand
  | flag (b : Bool)
  | natural (n : Nat)
  | negative (n : Int)
  | real (x : Binary64)
  | text (p : Pattern)
deriving DecidableEq

namespace Demand

def ofWhole? (cs : List Char) : Option Demand :=
  match Text.natural? cs, Text.integer? cs with
  | some n, _ => if n < 0x10000000000000000 then some (natural n) else none
  | none, some n => if -0x8000000000000000 ≤ n then some (negative n) else none
  | none, none => none

def ofText? (s : String) : Option Demand :=
  if s = "true" then some (flag true)
  else if s = "false" then some (flag false)
  else
    match ofWhole? s.toList with
    | some d => some d
    | none =>
      match Binary64.ofText? s with
      | some x => some (real x)
      | none => (Pattern.ofText? s).map text

/-- A field's value is what is asked for. No field holds a real number. -/
def fulfilledBy (d : Demand) (v : FieldValue) : Bool :=
  match d, v with
  | flag a, .flag b => a == b
  | natural n, .number m => (n : Int) == m
  | negative n, .number m => n == m && n != 0
  | text p, .shown s => p.accepts s
  | text p, .quoted s => p.accepts s
  | _, _ => false

end Demand

structure FieldTest where
  name : String
  demand : Option Demand
deriving DecidableEq

namespace FieldTest

def ofText? (s : String) : Option FieldTest :=
  match s.splitOn "=" with
  | name :: value :: _ => (Demand.ofText? value).map fun d => ⟨name, some d⟩
  | _ => some ⟨s, none⟩

def passedBy (t : FieldTest) (s : Span) : Bool :=
  match t.demand with
  | none => true
  | some d => s.fields.any fun f => f.name == t.name && d.fulfilledBy f.value

end FieldTest
end ProfilingAgent.Log
