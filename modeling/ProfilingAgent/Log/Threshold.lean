import ProfilingAgent.Log.Level
import ProfilingAgent.Text.Digits

set_option autoImplicit false

namespace ProfilingAgent.Log

inductive Threshold
  | off
  | upTo (level : Level)
deriving DecidableEq, Inhabited, Repr

namespace Threshold

def passes (t : Threshold) (level : Level) : Bool :=
  match t with
  | off => false
  | upTo limit => level.atLeast limit

def looser (a b : Threshold) : Threshold :=
  match a, b with
  | off, b => b
  | a, off => a
  | upTo x, upTo y => if x.atLeast y then upTo y else upTo x

def label : Threshold → String
  | off => "OFF"
  | upTo level => level.label

def digit? : Nat → Option Threshold
  | 0 => some off
  | 1 => some (upTo .error)
  | 2 => some (upTo .warn)
  | 3 => some (upTo .info)
  | 4 => some (upTo .debug)
  | 5 => some (upTo .trace)
  | _ => none

def ofText? (s : String) : Option Threshold :=
  match Text.natural? s.toList with
  | some n => digit? n
  | none =>
    if s = "" then some (upTo .error)
    else
      [("off", off), ("error", upTo .error), ("warn", upTo .warn), ("info", upTo .info),
        ("debug", upTo .debug), ("trace", upTo .trace)].lookup (Text.lower s)

end Threshold
end ProfilingAgent.Log
