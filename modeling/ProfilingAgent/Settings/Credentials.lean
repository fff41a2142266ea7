import ProfilingAgent.Text.Blank
import ProfilingAgent.Text.Quoted

set_option autoImplicit false

namespace ProfilingAgent

inductive Credentials
  | absent
  | token (token : String)
  | basic (username password : String)
deriving DecidableEq, Inhabited, Repr

namespace Credentials

def nonBlank? (s : Option String) : Option String :=
  (s.map Text.trim).filter (· ≠ "")

def ofParts (token username password : Option String) : Credentials :=
  match nonBlank? token with
  | some t => .token t
  | none =>
    match nonBlank? username, nonBlank? password with
    | some u, some p => .basic u p
    | _, _ => .absent

def isAbsent : Credentials → Bool
  | absent => true
  | _ => false

def scheme : Credentials → String
  | absent => "none"
  | token _ => "token"
  | basic _ _ => "basic"

def describe : Credentials → String
  | absent => "None"
  | token _ => "Token(\"<redacted>\")"
  | basic username _ =>
    "Basic \x7b username: " ++ Text.quoted username ++ ", password: \"<redacted>\" \x7d"

theorem describe_token (s t : String) : (token s).describe = (token t).describe := rfl

theorem describe_password (u p q : String) : (basic u p).describe = (basic u q).describe := rfl

end Credentials
end ProfilingAgent
