import ProfilingAgent.Program.Forks

set_option autoImplicit false

namespace ProfilingAgent

def ContextId.field (c : ContextId) : Log.Field := ⟨"context", .shown c.text⟩

def Log.Field.number (name : String) (n : Nat) : Log.Field := ⟨name, .number n⟩

namespace Program

variable (tell : AgentId → Act Unit)

def revise (s : StoreId) (use : TagStore → Except TagError TagStore) : Act (Except TagError Unit) := do
  checkStore tell s
  match use (← store s).tags with
  | .error e => pure (.error e)
  | .ok tags =>
    setTags s tags
    pure (.ok ())

def addTagsWith (s : StoreId) (c : ContextId) (tags : List Tag) : Act (Except TagError Unit) := do
  match ← revise tell s (·.addTags c tags) with
  | .error e => pure (.error e)
  | .ok _ =>
    if !tags.isEmpty then
      note ⟨.trace, some "added context tags", [c.field, .number "count" tags.length]⟩
    pure (.ok ())

def removeTagsWith (s : StoreId) (c : ContextId) (tags : List Tag) : Act Nat := do
  checkStore tell s
  let x := (← store s).tags
  let (left, removed) := x.removeTags c tags
  setTags s left
  if x.contexts.holds c then
    note ⟨.trace, some "removed context tags", [c.field, .number "removed" removed]⟩
  pure removed

def addGlobalWith (s : StoreId) (t : Tag) : Act (Except TagError Unit) :=
  revise tell s (·.addGlobal t)

def removeGlobalWith (s : StoreId) (t : Tag) : Act Bool := do
  checkStore tell s
  let (left, removed) := (← store s).tags.removeGlobal t
  setTags s left
  pure removed

def replaceGlobalsWith (s : StoreId) (old new : List Tag) : Act (Except TagError Unit) :=
  revise tell s (·.replaceGlobals old new)

def snapshotWith (s : StoreId) (c : ContextId) : Act (List Tag) := do
  checkStore tell s
  pure ((← store s).tags.snapshot c)

def clearContextWith (s : StoreId) (c : ContextId) : Act Nat := do
  checkStore tell s
  let (left, dropped) := (← store s).tags.clearContext c
  setTags s left
  pure dropped

end Program
end ProfilingAgent
