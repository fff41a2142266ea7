import ProfilingAgent.Binary64.Decimal
import ProfilingAgent.Log.Noted
import ProfilingAgent.Settings.Headers
import ProfilingAgent.Settings.Layer
import ProfilingAgent.Tag.Delimited

set_option autoImplicit false

namespace ProfilingAgent.Lenient

open Json Log

def text : Value → Noted (Option String)
  | .string s => pure (some s)
  | .null => pure none
  | v =>
    .saying none .error ("Failed to parse value, expected a string, got: " ++ v.text ++ ", ignoring")

def textOrNumber : Value → Noted (Option String)
  | .string s => pure (some s)
  | .number n => pure (some n.text)
  | .null => pure none
  | _ =>
    .saying none .error "Failed to parse value, expected a string or an integer, ignoring"

inductive FlagFault
  | whole
  | real
  | text (s : String)
  | shape
deriving DecidableEq, Repr

/-- The text comes last, so that a position at its end is taken for the fault's own. -/
def FlagFault.message : FlagFault → String
  | whole => "The number is neither 1 nor 0"
  | real => "The number is neither 1.0 nor 0.0"
  | text s => (Fault.ofContent ("Could not parse boolean from a string: " ++ s)).message
  | shape => "data did not match any variant of untagged enum AnythingOrBool"

def flagOfWhole (n : Int) : Except FlagFault Bool :=
  if n = 1 then .ok true else if n = 0 then .ok false else .error .whole

def flagOfReal (x : Binary64) : Except FlagFault Bool :=
  if x.isNearOne then .ok true else if x.isZero then .ok false else .error .real

def wholeOfText? (s : String) : Option Int :=
  (Text.integer? s.toList).bind fun n =>
    if -0x8000000000000000 ≤ n ∧ n < 0x8000000000000000 then some n else none

def flagOfText (s : String) : Except FlagFault Bool :=
  let word := Text.lower s
  if word = "true" then .ok true
  else if word = "false" then .ok false
  else
    match wholeOfText? s with
    | some n => flagOfWhole n
    | none =>
      match Binary64.ofText? s with
      | some x => flagOfReal x
      | none => .error (.text s)

/-- A whole number beyond 63 bits is taken for a real one. -/
def flagOfValue : Value → Except FlagFault Bool
  | .string s => flagOfText s
  | .number (.whole n _) => if n < 0x8000000000000000 then flagOfWhole n else .error .real
  | .number (.real x _) => flagOfReal x
  | .bool b => .ok b
  | _ => .error .shape

def flag (v : Value) : Noted (Option Bool) :=
  match flagOfValue v with
  | .ok b => pure (some b)
  | .error fault =>
    .saying none .error ("Failed to parse bool value: " ++ fault.message ++ ", ignoring")

def level : Value → Noted Level
  | .string s =>
    match Level.ofName? s with
    | some l => pure l
    | none => .saying .error .error (Level.invalidMessage s)
  | .number (.whole n _) =>
    pure (.ofSeverity (if 0 ≤ n ∧ n < 0x100000000 then UInt32.ofNat n.toNat else 0))
  | .number (.real _ _) => pure .error
  | v => .saying .error .error ("Expected a string for log level, got " ++ v.describe)

def compression : Value → Noted Compression
  | .string s =>
    match Compression.ofName? s with
    | some c => pure c
    | none => .saying .gzip .error ("Unknown compression '" ++ s ++ "', falling back to gzip")
  | v => .saying .gzip .error ("Expected a string for compression, got " ++ v.describe)

def reportEncoding : Value → Noted ReportEncoding
  | .string s =>
    match ReportEncoding.ofName? s with
    | some e => pure e
    | none =>
      .saying .pprof .error ("Unknown report encoding '" ++ s ++ "', falling back to pprof")
  | v => .saying .pprof .error ("Expected a string for report encoding, got " ++ v.describe)

def headersOfText (s : String) : Noted (Option (Dict String)) :=
  match Headers.ofText s with
  | .ok d => pure (some d)
  | .error e =>
    .saying none .error ("Failed to parse http headers: " ++ e.message ++ ", ignoring")

def headers : Value → Noted (Option (Dict String))
  | .null => pure none
  | .string s => headersOfText s
  | .object entries => headersOfText (Value.object entries).text
  | v =>
    .saying none .error
      ("Failed to parse http headers, expected a JSON object, got: " ++ v.text ++ ", ignoring")

def scalarText? : Value → Option String
  | .string s => some s
  | .number n => some n.text
  | .bool b => some (Value.boolText b)
  | _ => none

def tagEntries : List (String × Value) → Noted (List (String × String))
  | [] => pure []
  | (key, v) :: rest => do
    match scalarText? v with
    | some s => do
      let rest ← tagEntries rest
      pure ((key, s) :: rest)
    | none => do
      Noted.note (.say .error
        ("Failed to parse tag '" ++ key ++ "', got: " ++ v.text ++ ", ignoring"))
      tagEntries rest

def dictOfTags (tags : List Tag) : Dict String := .ofList (tags.map fun t => (t.key, t.value))

def tags : Value → Noted (Option (Dict String))
  | .null => pure none
  | .string s => do
    let ts ← Tag.Delimited.read s
    pure (some (dictOfTags ts))
  | .object entries => do
    let pairs ← tagEntries entries
    pure (some (.ofList pairs))
  | v =>
    .saying none .error
      ("Failed to parse tags, expected a map or 'key=value' list, got: " ++ v.text ++ ", ignoring")

/-- Puts the value of one setting into a layer. The sample rate depends on where the value comes
from and has been read already. -/
def setting (s : Setting) (v : Value) (rate : Noted (Option UInt32)) (l : Layer) : Noted Layer :=
  match s with
  | .applicationName => do let x ← textOrNumber v; pure { l with applicationName := x }
  | .serverAddress => do let x ← text v; pure { l with serverAddress := x }
  | .authToken => do let x ← text v; pure { l with authToken := x }
  | .basicAuthUsername => do let x ← text v; pure { l with basicAuthUsername := x }
  | .basicAuthPassword => do let x ← text v; pure { l with basicAuthPassword := x }
  | .sampleRate => do let x ← rate; pure { l with sampleRate := x }
  | .detectSubprocesses => do let x ← flag v; pure { l with detectSubprocesses := x }
  | .onCpu => do let x ← flag v; pure { l with onCpu := x }
  | .reportPid => do let x ← flag v; pure { l with reportPid := x }
  | .reportThreadId => do let x ← flag v; pure { l with reportThreadId := x }
  | .reportThreadName => do let x ← flag v; pure { l with reportThreadName := x }
  | .autoinstrument => do let x ← flag v; pure { l with autoinstrument := x }
  | .logLevel => do let x ← level v; pure { l with logLevel := some x }
  | .compression => do let x ← compression v; pure { l with compression := some x }
  | .reportEncoding => do let x ← reportEncoding v; pure { l with reportEncoding := some x }
  | .tenantId => do let x ← textOrNumber v; pure { l with tenantId := x }
  | .httpHeaders => do let x ← headers v; pure { l with httpHeaders := x }
  | .tags => do let x ← tags v; pure { l with tags := x }

def rateRefused (message : String) : Noted (Option UInt32) :=
  .saying none .error ("Failed to deserialize optional value: " ++ message ++ ", ignoring")

end ProfilingAgent.Lenient
