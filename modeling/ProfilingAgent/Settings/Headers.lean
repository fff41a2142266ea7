import ProfilingAgent.Json.Text
import ProfilingAgent.Text.Blank

set_option autoImplicit false

namespace ProfilingAgent

inductive HeadersError
  | json (fault : Json.Fault)
  | notAnObject (kind : String)
  | notText (name : String)
deriving DecidableEq, Repr

namespace HeadersError

def message : HeadersError → String
  | json fault => "http headers are not valid JSON: " ++ fault.message
  | notAnObject kind => "http headers must be a JSON object, got " ++ kind
  | notText name => "http header '" ++ name ++ "' must have a string value"

end HeadersError

namespace Headers

open Json

/-- The entries of an object. The first value in key order that is no text is reported. -/
def texts : List (String × Value) → Except HeadersError (List (String × String))
  | [] => .ok []
  | (name, .string s) :: rest => (texts rest).map ((name, s) :: ·)
  | (name, _) :: _ => .error (.notText name)

def ofValue : Value → Except HeadersError (Dict String)
  | .object entries => (texts entries).map Dict.ofList
  | v => .error (.notAnObject v.kind)

def ofText (s : String) : Except HeadersError (Dict String) :=
  if Text.allBlank s then .ok .empty
  else
    match Value.ofText s with
    | .error fault => .error (.json fault)
    | .ok v => ofValue v

end Headers
end ProfilingAgent
