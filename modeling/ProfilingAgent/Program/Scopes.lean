import ProfilingAgent.Program.Contexts
import ProfilingAgent.Program.Lifecycle

set_option autoImplicit false

namespace ProfilingAgent

structure Scope where
  store : StoreId
  context : ContextId
  tags : List Tag
deriving DecidableEq

namespace Program

def addTags (s : StoreId) (c : ContextId) (tags : List Tag) : Act (Except TagError Unit) :=
  addTagsWith tellAgent s c tags

def addTag (s : StoreId) (c : ContextId) (t : Tag) : Act (Except TagError Unit) := addTags s c [t]

def removeTags (s : StoreId) (c : ContextId) (tags : List Tag) : Act Nat :=
  removeTagsWith tellAgent s c tags

def removeTag (s : StoreId) (c : ContextId) (t : Tag) : Act Bool := do
  return (← removeTags s c [t]) = 1

def addGlobal (s : StoreId) (t : Tag) : Act (Except TagError Unit) := addGlobalWith tellAgent s t

def removeGlobal (s : StoreId) (t : Tag) : Act Bool := removeGlobalWith tellAgent s t

def replaceGlobals (s : StoreId) (old new : List Tag) : Act (Except TagError Unit) :=
  replaceGlobalsWith tellAgent s old new

def snapshot (s : StoreId) (c : ContextId) : Act (List Tag) := snapshotWith tellAgent s c

def clearContext (s : StoreId) (c : ContextId) : Act Nat := clearContextWith tellAgent s c

def snapshotWithProcess (s : StoreId) (c : ContextId) (settings : Settings) : Act (List Tag) := do
  let tags ← snapshot s c
  let pid := (← get).pid
  pure (tags ++ (if settings.reportPid then [⟨"pid", Text.numeral pid.toNat⟩] else []) ++
    (if settings.reportThreadId then [⟨"thread_id", c.text⟩] else []))

def enterContext (s : StoreId) (c : ContextId) (tags : List Tag) : Act (Except TagError Scope) := do
  match ← addTags s c tags with
  | .error e => pure (.error e)
  | .ok _ =>
    note ⟨.trace, some "entered tag scope", [c.field, .number "count" tags.length]⟩
    pure (.ok ⟨s, c, tags⟩)

def enter (s : StoreId) (p : Provider) (tags : List Tag) : Act (Except TagError Scope) := do
  enterContext s (← currentContext p) tags

def exit (x : Scope) : Act Unit := do
  discard (removeTags x.store x.context x.tags)
  note ⟨.trace, some "exited tag scope", [x.context.field]⟩

section Bodies

variable {m : Type → Type} [Monad m] [MonadLiftT Act m] [MonadExceptOf Halt m] {α : Type}

/-- Runs something inside a scope. If the scope cannot be opened nothing runs. -/
def withTags (s : StoreId) (p : Provider) (tags : List Tag) (body : m α) :
    m (Except TagError α) := do
  match ← (enter s p tags : Act _) with
  | .error e => pure (.error e)
  | .ok x =>
    let a ← protect body (exit x : Act _)
    pure (.ok a)

end Bodies

end Program
end ProfilingAgent
