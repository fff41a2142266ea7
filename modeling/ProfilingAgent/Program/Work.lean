import ProfilingAgent.Program.Scopes

set_option autoImplicit false

namespace ProfilingAgent

/-- Work that gives a value. The value may stand for an error. -/
inductive Work (α : Type)
  | done (a : α)
  | panic (message : String)
  | current (provider : Provider) (next : ContextId → Work α)
  | look (c : ContextId) (next : List Tag → Work α)
  | within (provider : Provider) (tags : List Tag) (body : Work α)
    (next : Except TagError α → Work α)
  | caught (body : Work α) (next : Except String α → Work α)

namespace Work

/-- What a panic left is kept for whoever catches it. Nothing else can be caught. -/
def catching {α : Type} (x : Act α) : Act (Except String α) :=
  tryCatchThe Halt (Except.ok <$> x) fun
    | .panicked message => pure (.error message)
    | h => throw h

def run {α : Type} (s : StoreId) : Work α → Act α
  | done a => pure a
  | panic message => throw (.panicked message)
  | current provider next => do (next (← Program.currentContext provider)).run s
  | look c next => do (next (← Program.snapshot s c)).run s
  | within provider tags body next => do
    (next (← Program.withTags s provider tags (body.run s))).run s
  | caught body next => do (next (← catching (body.run s))).run s

end Work
end ProfilingAgent
