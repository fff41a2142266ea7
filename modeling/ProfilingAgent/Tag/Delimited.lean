import ProfilingAgent.Log.Noted
import ProfilingAgent.Tag.Basic

set_option autoImplicit false

/-!
# Delimited tags

Tags as one text: entries between commas, and in each entry a key, an equals sign and a value. The
first equals sign of an entry counts, so a value may hold more of them. Blanks around an entry and
around a key are dropped. There are no escapes, so some tags have no such form.
-/
namespace ProfilingAgent.Tag.Delimited

open Text

def splitAt (separator : Char) : List Char → List (List Char)
  | [] => [[]]
  | c :: rest =>
    if c = separator then [] :: splitAt separator rest
    else
      match splitAt separator rest with
      | [] => [[c]]
      | part :: parts => (c :: part) :: parts

def entryTag? (entry : List Char) : Option Tag :=
  match entry.dropWhile (· ≠ '=') with
  | [] => none
  | _ :: value =>
    let key := trimChars (entry.takeWhile (· ≠ '='))
    if key.isEmpty then none else some ⟨String.ofList key, String.ofList value⟩

def entries (cs : List Char) : List (List Char) :=
  ((splitAt ',' cs).map trimChars).filter (!·.isEmpty)

def malformed (entry : List Char) : Log.Event :=
  .say .warn ("Ignoring malformed tag '" ++ String.ofList entry ++ "', expected 'key=value'")

/-- The tags of a text. Malformed entries are left out and reported. -/
def read (s : String) : Log.Noted (List Tag) :=
  let es := entries s.toList
  ⟨es.filterMap entryTag?, (es.filter fun e => (entryTag? e).isNone).map malformed⟩

/-- The first delimiter in a key, or else the first comma in a value. -/
def offending? (t : Tag) : Option Char :=
  match t.key.toList.find? fun c => c = ',' || c = '=' with
  | some c => some c
  | none => t.value.toList.find? (· = ',')

def refusal? (t : Tag) : Option TagError :=
  if !t.isValid then some (.emptyKey t.value)
  else
    match offending? t with
    | some c => some (.delimiter t.key c)
    | none =>
      if trimChars t.key.toList ≠ t.key.toList ∨ trimEnd t.value.toList ≠ t.value.toList then
        some (.whitespace t.key)
      else none

/-- The text of some tags, unless one of them would be read back as something else. -/
def write (tags : List Tag) : Except TagError String :=
  match tags.findSome? refusal? with
  | some e => .error e
  | none => .ok (",".intercalate (tags.map Tag.text))

end ProfilingAgent.Tag.Delimited
