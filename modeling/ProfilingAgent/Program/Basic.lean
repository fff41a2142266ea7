import ProfilingAgent.Log.Noted
import ProfilingAgent.Program.Sampler
import ProfilingAgent.Table
import ProfilingAgent.Tag.Store

set_option autoImplicit false

/-!
# Running programs

The state of one running program: its tag stores, its agents, who is told about forks, its threads, and
what happened so far.

An action changes the program and gives a result, or is halted. What an action did before it was
halted stays done.
-/
namespace ProfilingAgent

abbrev StoreId := Nat
abbrev CounterId := Nat
abbrev HookId := Nat
abbrev BoundaryId := Nat
abbrev ThreadId := Nat

/-- Who is told about a fork. Nobody is kept alive by being told. -/
inductive Watcher
  | agent (a : AgentId)
  | counter (c : CounterId)
deriving DecidableEq, Repr

structure Hook where
  /-- How many forks there had been at the last check. -/
  seen : Nat
  watcher : Option Watcher
deriving DecidableEq, Inhabited, Repr

structure Store where
  tags : TagStore
  hook : Hook
deriving Inhabited

inductive Phase
  | fresh
  | configured
  | running
  | stopped
deriving DecidableEq, Inhabited, Repr

namespace Phase

def text : Phase → String
  | fresh => "uninitialized"
  | configured => "configured"
  | running => "running"
  | stopped => "stopped"

def label : Phase → String
  | fresh => "Uninitialized"
  | configured => "Configured"
  | running => "Running"
  | stopped => "Stopped"

end Phase

structure Agent where
  store : StoreId
  alive : Bool
  seen : Nat
  phase : Phase
  /-- The settings of the last successful start. -/
  settings : Option Settings
  locked : Bool
  sampler : Sampler
  starts : Nat
  stops : Nat
  resets : Nat
deriving Inhabited

structure Counter where
  alive : Bool
  count : Nat
deriving DecidableEq, Inhabited, Repr

structure Thread where
  own : Option ContextId
  task : Option ContextId
deriving DecidableEq, Inhabited

structure Program where
  pid : UInt32
  handlerInstalled : Bool
  generation : Nat := 0
  stores : Table Store := .empty
  agents : Table Agent := .empty
  counters : Table Counter := .empty
  hooks : Table Hook := .empty
  /-- For each boundary, how many forks there had been when it last looked. -/
  boundaries : Table Nat := .empty
  slot : Option AgentId := none
  nextContext : Nat := 1
  threads : Table Thread := ⟨[default]⟩
  thread : ThreadId := 0
  hostAgent : Option AgentId := none
  calls : List SamplerCall := []
  /-- What was said, and on which thread, latest first. -/
  notes : List (ThreadId × Log.Event) := []

inductive Halt
  | panicked (message : String)
  | deadlocked (a : AgentId)
  /-- Agents tell each other about a fork without end. -/
  | endless
deriving DecidableEq, Repr

abbrev Act := ExceptT Halt (StateM Program)

namespace Program

def start (pid : UInt32) (handlerInstalled : Bool) : Program := { pid, handlerInstalled }

def note (e : Log.Event) : Act Unit := modify fun p => { p with notes := (p.thread, e) :: p.notes }

def say (level : Level) (message : String) : Act Unit := note (.say level message)

def noting {α : Type} (n : Log.Noted α) : Act α := do
  modify fun p => { p with notes := (n.events.map fun e => (p.thread, e)).reverse ++ p.notes }
  pure n.value

def heard (p : Program) (t : ThreadId) : List Log.Event :=
  (p.notes.filter (·.1 = t)).reverse.map (·.2)

def store (s : StoreId) : Act Store := do return (← get).stores s

def setStore (s : StoreId) (x : Store) : Act Unit :=
  modify fun p => { p with stores := p.stores.put s x }

def setTags (s : StoreId) (tags : TagStore) : Act Unit :=
  modify fun p => { p with stores := p.stores.update s fun x => { x with tags := tags } }

def agent (a : AgentId) : Act Agent := do return (← get).agents a

def updateAgent (a : AgentId) (f : Agent → Agent) : Act Unit :=
  modify fun p => { p with agents := p.agents.update a f }

def record (c : SamplerCall) : Act Unit := modify fun p => { p with calls := p.calls ++ [c] }

def globals (s : StoreId) : Act (List Tag) := do return ((← get).stores s).tags.globals

def newStore : Act StoreId := do
  let p ← get
  set { p with stores := p.stores.push ⟨.empty, ⟨p.generation, none⟩⟩ }
  pure p.stores.size

end Program

def protect {m : Type → Type} [Monad m] [MonadExceptOf Halt m] {α : Type} (body : m α)
    (after : m Unit) : m α := do
  let r ← tryCatchThe Halt (do let a ← body; pure (Except.ok a)) (fun f => pure (.error f))
  after
  match r with
  | .ok a => pure a
  | .error f => throwThe Halt f

end ProfilingAgent
