import ProfilingAgent.Json.Text
import ProfilingAgent.Tag.Basic

set_option autoImplicit false

namespace ProfilingAgent.Tag.Structured

open Json

def toValue (t : Tag) : Value := .object [("key", .string t.key), ("value", .string t.value)]

def write (tags : List Tag) : String := (Value.array (tags.map toValue)).text

def onlyText? (key : String) (entries : List (String × Value)) : Option String :=
  match entries.filter (·.1 == key) with
  | [(_, .string s)] => some s
  | _ => none

def ofValue? : Value → Option Tag
  | .object entries => do
    let key ← onlyText? "key" entries
    let value ← onlyText? "value" entries
    pure ⟨key, value⟩
  | .array [.string key, .string value] => some ⟨key, value⟩
  | _ => none

def textEntry? : String × Value → Option (String × String)
  | (key, .string s) => some (key, s)
  | _ => none

def allOfValue? : Value → Option (List Tag)
  | .array items => items.mapM ofValue?
  | .object entries =>
    (entries.mapM textEntry?).map fun pairs =>
      (Dict.ofList pairs).entries.map fun e => ⟨e.1, e.2⟩
  | _ => none

def tags : Reader (List Tag) := do
  match allOfValue? (← Reader.writtenValue Reader.depthLimit) with
  | some tags => pure tags
  | none =>
    Reader.failWith (.ofContent "data did not match any variant of untagged enum JsonTags")

def read (s : String) : Except TagError (List Tag) :=
  if Text.allBlank s then .ok []
  else
    match tags.run s with
    | .error fault => .error (.json fault)
    | .ok tags =>
      match checkAll tags with
      | .ok _ => .ok tags
      | .error e => .error e

end ProfilingAgent.Tag.Structured
