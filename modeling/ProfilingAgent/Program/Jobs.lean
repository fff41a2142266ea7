import ProfilingAgent.Program.Work

set_option autoImplicit false

/-!
# Work that waits

Work goes on from poll to poll and may hold scopes while it waits. A scope finds its context once, when
it is opened. It is closed when its body is done, when its body is halted, and when the work is given
up; scopes inside it are closed before it.

A job is such work with an id of its own, which is handed out at the first poll and is current during
each poll. Whoever polls jobs catches their panics.
-/
namespace ProfilingAgent

inductive Async (α : Type)
  | done (a : α)
  | segment (w : Work α) (next : α → Async α)
  | wait (next : Async α)
  | within (tags : List Tag) (body : Async α) (next : Except TagError α → Async α)

inductive Pending (α : Type)
  | ahead (x : Async α)
  | inside (x : Scope) (body : Pending α) (next : Except TagError α → Async α)

inductive Polled (α : Type)
  | ready (a : α)
  | pending (rest : Pending α)

variable {α : Type}

/-- Polls what is inside a scope. The scope is closed behind it, and also if it is halted. -/
def Pending.hold (x : Scope) (next : Except TagError α → Async α)
    (after : Except TagError α → Act (Polled α)) (body : Act (Polled α)) : Act (Polled α) := do
  let polled ← tryCatchThe Halt body fun h => do
    Program.exit x
    throw h
  match polled with
  | .ready a =>
    Program.exit x
    after (.ok a)
  | .pending rest => pure (.pending (.inside x rest next))

def Pending.begin (next : Except TagError α → Async α)
    (after : Except TagError α → Act (Polled α)) (body : Act (Polled α)) :
    Except TagError Scope → Act (Polled α)
  | .error e => after (.error e)
  | .ok x => hold x next after body

def Async.poll (s : StoreId) (provider : Provider) : Async α → Act (Polled α)
  | done a => pure (.ready a)
  | segment w next => do (next (← w.run s)).poll s provider
  | wait next => pure (.pending (.ahead next))
  | within tags body next => do
    Pending.begin next (fun r => (next r).poll s provider) (body.poll s provider)
      (← Program.enter s provider tags)

namespace Pending

def poll (s : StoreId) (provider : Provider) : Pending α → Act (Polled α)
  | ahead x => x.poll s provider
  | inside x body next => hold x next (fun r => (next r).poll s provider) (body.poll s provider)

def drop : Pending α → Act Unit
  | ahead _ => pure ()
  | inside x body _ => protect body.drop (Program.exit x)

end Pending

structure Job (α : Type) where
  context : Option ContextId
  pending : Option (Pending α)

namespace Job

def ofWork (x : Async α) : Job α := ⟨none, some (.ahead x)⟩

def identify (j : Job α) : Act ContextId :=
  match j.context with
  | some c => pure c
  | none => Program.issueContext

abbrev Answer (α : Type) := Except String (Option α)

def answered (c : ContextId) : Except String (Polled α) → Job α × Answer α
  | .ok (.ready a) => (⟨some c, none⟩, .ok (some a))
  | .ok (.pending rest) => (⟨some c, some rest⟩, .ok none)
  | .error message => (⟨some c, none⟩, .error message)

def poll (s : StoreId) (j : Job α) : Act (Job α × Answer α) :=
  match j.pending with
  | none => pure (j, .ok none)
  | some rest => do
    let c ← j.identify
    answered c <$> Work.catching (Program.inTask c (rest.poll s .task))

def drop (j : Job α) : Act (Job α) := do
  if let (some c, some rest) := (j.context, j.pending) then
    Program.inTask c rest.drop
  pure { j with pending := none }

end Job
end ProfilingAgent
