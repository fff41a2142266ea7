import ProfilingAgent.Program.Scopes

set_option autoImplicit false

/-!
# Asynchronous work

A routine is work in segments. Each poll runs one segment; the last one completes the routine, and
one without segments completes at its first poll. A routine may be a task of its own, whose id is
handed out at the first poll and is current during each poll. Or it may hold a scope, which is
opened at the first poll and closed when the routine completes or is given up.
-/
namespace ProfilingAgent

structure Routine (m : Type → Type) (α : Type) where
  todo : List (m α)
  done : List α
  completed : Bool

namespace Routine

variable {m : Type → Type} [Monad m] [MonadLiftT Act m] [MonadExceptOf Halt m] {α : Type}

def ofSegments (segments : List (m α)) : Routine m α := ⟨segments, [], false⟩

def poll (r : Routine m α) : m (Routine m α) := do
  match r.todo with
  | [] => pure { r with completed := true }
  | segment :: rest =>
    let a ← segment
    pure ⟨rest, r.done ++ [a], rest.isEmpty⟩

end Routine

structure Task (m : Type → Type) (α : Type) where
  context : Option ContextId
  routine : Routine m α

namespace Task

variable {m : Type → Type} [Monad m] [MonadLiftT Act m] [MonadExceptOf Halt m] {α : Type}

def ofSegments (segments : List (m α)) : Task m α := ⟨none, .ofSegments segments⟩

def poll (t : Task m α) : m (Task m α) := do
  let c ← match t.context with
    | some c => pure c
    | none => (Program.issueContext : Act _)
  let r ← Program.inTask c t.routine.poll
  pure ⟨some c, r⟩

def pollUpTo : Nat → Task m α → m (Task m α × Nat)
  | 0, t => pure (t, 0)
  | n + 1, t => do
    let t ← t.poll
    if t.routine.completed then pure (t, 1)
    else
      let (t, used) ← pollUpTo n t
      pure (t, used + 1)

def pollEach : List (Task m α) → m (List (Task m α))
  | [] => pure []
  | t :: rest => do
    let t ← if t.routine.completed then pure t else t.poll
    let rest ← pollEach rest
    pure (t :: rest)

def rounds : Nat → List (Task m α) → m (List (Task m α))
  | 0, ts => pure ts
  | n + 1, ts => do
    let ts ← pollEach ts
    rounds n ts

def roundsNeeded (ts : List (Task m α)) : Nat :=
  ts.foldl (fun n t => max n (t.routine.todo.length + 1)) 0

def interleave (bodies : List (List (m α))) : m (List (List α)) := do
  let ts := bodies.map Task.ofSegments
  let ts ← rounds (roundsNeeded ts) ts
  pure (ts.map fun t => t.routine.done)

end Task

inductive Completion
  | refused (e : TagError)
  | completed
  | dropped

structure ScopedRoutine (m : Type → Type) (α : Type) where
  store : StoreId
  provider : Provider
  tags : List Tag
  scope : Option Scope
  routine : Routine m α

namespace ScopedRoutine

variable {m : Type → Type} [Monad m] [MonadLiftT Act m] [MonadExceptOf Halt m] {α : Type}

def ofSegments (s : StoreId) (p : Provider) (tags : List Tag) (segments : List (m α)) :
    ScopedRoutine m α :=
  ⟨s, p, tags, none, .ofSegments segments⟩

def drop (r : ScopedRoutine m α) : m (ScopedRoutine m α) := do
  match r.scope with
  | none => pure r
  | some x =>
    (Program.exit x : Act _)
    pure { r with scope := none }

/-- Runs the next segment inside the scope, which is closed behind the last one, and also when the
segment is halted. -/
def pollInside (r : ScopedRoutine m α) : m (ScopedRoutine m α) := do
  let routine ← tryCatchThe Halt r.routine.poll fun f => do
    let _ ← r.drop
    throwThe Halt f
  let r := { r with routine := routine }
  if routine.completed then r.drop else pure r

def poll (r : ScopedRoutine m α) : m (Except TagError (ScopedRoutine m α)) := do
  match r.scope with
  | some _ => Except.ok <$> r.pollInside
  | none =>
    match ← (Program.enter r.store r.provider r.tags : Act _) with
    | .error e => pure (.error e)
    | .ok x => Except.ok <$> pollInside { r with scope := some x }

def pollUpTo : Nat → ScopedRoutine m α → m (Nat × List α × Completion)
  | 0, r => do
    let r ← r.drop
    pure (0, r.routine.done, .dropped)
  | n + 1, r => do
    match ← r.poll with
    | .error e => pure (1, r.routine.done, .refused e)
    | .ok r =>
      if r.routine.completed then pure (1, r.routine.done, .completed)
      else
        let (used, done, how) ← pollUpTo n r
        pure (used + 1, done, how)

end ScopedRoutine
end ProfilingAgent
