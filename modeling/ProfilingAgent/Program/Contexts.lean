import ProfilingAgent.Program.Basic

set_option autoImplicit false

/-!
# Finding the current context

A context is given by the caller, or it is the thread that runs, or the innermost task that runs on
it. Threads and tasks get their ids from one count when they first need one, so no id is handed out
twice. Outside every task a task's context is the thread's.
-/
namespace ProfilingAgent

inductive Provider
  | fixed (c : ContextId)
  | thread
  | task
deriving DecidableEq

namespace Program

def issueContext : Act ContextId := do
  let p ← get
  set { p with nextContext := p.nextContext + 1 }
  pure ⟨UInt64.ofNat p.nextContext⟩

def updateThread (f : Thread → Thread) : Act Unit :=
  modify fun p => { p with threads := p.threads.update p.thread f }

def threadContext : Act ContextId := do
  let p ← get
  match (p.threads p.thread).own with
  | some c => pure c
  | none =>
    let c ← issueContext
    updateThread fun t => { t with own := some c }
    pure c

def taskContext : Act ContextId := do
  let p ← get
  match (p.threads p.thread).task with
  | some c => pure c
  | none => threadContext

def currentContext : Provider → Act ContextId
  | .fixed c => pure c
  | .thread => threadContext
  | .task => taskContext

def runningTask : Act (Option ContextId) := do
  let p ← get
  pure (p.threads p.thread).task

def setTask (c : Option ContextId) : Act Unit := updateThread fun t => { t with task := c }

def openThread : Act ThreadId := do
  let p ← get
  set { p with threads := p.threads.push default, thread := p.threads.size }
  pure p.thread

def resume (t : ThreadId) : Act Unit := modify fun p => { p with thread := t }

section Bodies

variable {m : Type → Type} [Monad m] [MonadLiftT Act m] [MonadExceptOf Halt m] {α : Type}

def inTask (c : ContextId) (body : m α) : m α := do
  let before ← (runningTask : Act _)
  (setTask (some c) : Act _)
  protect body (setTask before : Act _)

def asTask (body : m α) : m α := do
  let c ← (issueContext : Act _)
  inTask c body

def onThread (body : m α) : m α := do
  let before ← (openThread : Act _)
  protect body (resume before : Act _)

end Bodies

end Program
end ProfilingAgent
