import ProfilingAgent.Program.Tasks
import ProfilingAgent.Proofs.JobsApart

set_option autoImplicit false

/-!
# Nested contexts

Threads ask for their contexts, and enter and leave task scopes, in any order and nested in any way. A
scope may be entered again later, perhaps on another thread; it is left as it was entered, also if what
ran inside was halted. Whoever asks is given the id of the innermost scope that is open on the thread,
or else the thread's own. Ids stay with their holders, and no two holders have the same.
-/
namespace ProfilingAgent

open Act Program

variable {α κ : Type} {p p₀ q : Program} {c : ContextId}

inductive Holder (κ : Type)
  | thread (t : ThreadId)
  | scope (k : κ)

structure OpenTask (κ : Type) where
  scope : κ
  before : Option ContextId

/-- The task scopes that are open on each thread, innermost first, and the ids that scopes have got. -/
structure Nesting (κ : Type) where
  opened : ThreadId → List (OpenTask κ)
  ids : κ → Option ContextId

def Program.enterTask (known : Option ContextId) : Act (ContextId × Option ContextId) := do
  let c ← match known with
    | some c => pure c
    | none => issueContext
  let before ← runningTask
  setTask (some c)
  pure (c, before)

namespace Nesting

def empty : Nesting κ := ⟨fun _ => [], fun _ => none⟩

def enter [DecidableEq κ] (n : Nesting κ) (t : ThreadId) (k : κ) (c : ContextId)
    (before : Option ContextId) : Nesting κ :=
  ⟨Function.update n.opened t (⟨k, before⟩ :: n.opened t), Function.update n.ids k (some c)⟩

def leave (n : Nesting κ) (t : ThreadId) : Nesting κ :=
  ⟨Function.update n.opened t (n.opened t).tail, n.ids⟩

def innermost (n : Nesting κ) (t : ThreadId) : Holder κ :=
  match n.opened t with
  | [] => .thread t
  | x :: _ => .scope x.scope

def idOf (n : Nesting κ) (p : Program) : Holder κ → Option ContextId
  | .thread t => (p.threads t).own
  | .scope k => n.ids k

section Steps

variable [DecidableEq κ] {n n₀ n' : Nesting κ}

/-- One step. A thread asks for a context, enters a scope, or leaves the innermost one; a thread is
started, another one goes on, or anything else happens that has nothing to do with contexts. -/
inductive Step (p : Program) (n : Nesting κ) : Program → Nesting κ → Prop
  | ask {q : Program} {r : Except Halt ContextId} (provider : Provider)
    (hon : (currentContext provider).on p = (r, q)) : Step p n q n
  | enter {q : Program} {c : ContextId} {before : Option ContextId} (k : κ)
    (hon : (enterTask (n.ids k)).on p = (.ok (c, before), q)) : Step p n q (n.enter p.thread k c before)
  | leave {q : Program} {r : Except Halt Unit} {x : OpenTask κ} {rest : List (OpenTask κ)}
    (hopen : n.opened p.thread = x :: rest) (hon : (setTask x.before).on p = (r, q)) :
    Step p n q (n.leave p.thread)
  | begin {q : Program} {r : Except Halt ThreadId} (hon : openThread.on p = (r, q)) : Step p n q n
  | switch {q : Program} {r : Except Halt Unit} (t : ThreadId) (hon : (resume t).on p = (r, q)) : Step p n q n
  | elsewhere {q : Program} (hthreads : ∀ t, q.threads t = p.threads t) (hthread : q.thread = p.thread)
    (hnext : q.nextContext = p.nextContext) : Step p n q n

inductive Steps (p₀ : Program) (n₀ : Nesting κ) : Program → Nesting κ → Prop
  | start : Steps p₀ n₀ p₀ n₀
  | next {p q : Program} {n n' : Nesting κ} (h : Steps p₀ n₀ p n) (hstep : Step p n q n') : Steps p₀ n₀ q n'

theorem Steps.trans (h : Steps p₀ n₀ p n) (h' : Steps p n q n') : Steps p₀ n₀ q n' := by
  induction h' with
  | start => exact h
  | next _ hstep ih => exact ih.next hstep

end Steps

end Nesting

namespace Program

def taskId (p : Program) (known : Option ContextId) : ContextId := known.getD ⟨UInt64.ofNat p.nextContext⟩

def inside (p : Program) (known : Option ContextId) : Program :=
  { p with nextContext := if known = none then p.nextContext + 1 else p.nextContext }.withTask
    (some (p.taskId known))

theorem enterTask_on (p : Program) (known : Option ContextId) :
    (enterTask known).on p = (.ok (p.taskId known, (p.threads p.thread).task), p.inside known) := by
  cases known <;> rfl

theorem setTask_on (p : Program) (c : Option ContextId) : (setTask c).on p = (.ok (), p.withTask c) := rfl

theorem withTask_own (p : Program) (c : Option ContextId) (t : ThreadId) :
    ((p.withTask c).threads t).own = (p.threads t).own := by
  rw [withTask_threads]
  by_cases ht : t = p.thread
  · rw [if_pos ht]
  · rw [if_neg ht]

theorem withTask_task (p : Program) (c : Option ContextId) (t : ThreadId) :
    ((p.withTask c).threads t).task = if t = p.thread then c else (p.threads t).task := by
  rw [withTask_threads]
  by_cases ht : t = p.thread
  · rw [if_pos ht, if_pos ht]
  · rw [if_neg ht, if_neg ht]

theorem openThread_rows {r : Except Halt ThreadId} (hon : openThread.on p = (r, q)) (t : ThreadId) :
    q.threads t = p.threads t := by
  cases hon
  refine (Table.push_row _ _ _).trans ?_
  by_cases ht : t = p.threads.size
  · rw [if_pos ht, ht, Table.row_size]
  · rw [if_neg ht]

theorem currentContext_asked {r : Except Halt ContextId} {provider : Provider}
    (hon : (currentContext provider).on p = (r, q)) : r = .ok (p.contextFor provider) ∧ Asked p q := by
  obtain ⟨q', hon', hq, -⟩ := currentContext_on p provider
  rw [hon] at hon'
  obtain ⟨rfl, rfl⟩ := Prod.mk.inj hon'
  exact ⟨rfl, hq⟩

theorem taskContext_on (p : Program) : (currentContext .task).on p =
    match (p.threads p.thread).task with
    | some c => (.ok c, p)
    | none => threadContext.on p := by
  have hget : (get : Act Program).on p = (.ok p, p) := rfl
  unfold currentContext taskContext
  rw [on_bind, hget]
  dsimp only
  cases (p.threads p.thread).task <;> rfl

theorem threadContext_known (hown : (p.threads p.thread).own = some c) :
    threadContext.on p = (.ok c, p) := by
  have hget : (get : Act Program).on p = (.ok p, p) := rfl
  unfold threadContext
  rw [on_bind, hget]
  dsimp only
  rw [hown]
  rfl

theorem threadContext_own (hon : threadContext.on p = (.ok c, q)) : (q.threads p.thread).own = some c := by
  have hget : (get : Act Program).on p = (.ok p, p) := rfl
  unfold threadContext at hon
  rw [on_bind, hget] at hon
  dsimp only at hon
  cases hown : (p.threads p.thread).own with
  | some d =>
    rw [hown] at hon
    cases hon
    exact hown
  | none =>
    rw [hown] at hon
    cases hon
    exact congrArg Thread.own ((p.update_threads _ _).trans (if_pos rfl))

end Program

namespace Nesting

variable {n n' : Nesting κ} {a : Holder κ}

/-- What a step does to the ids of holders: nothing, or somebody who had none gets the next one. -/
inductive Issues (ids ids' : Holder κ → Option ContextId) (next next' : Nat) : Prop
  | nobody (same : ∀ a, ids' a = ids a) (hnext : next' = next)
  | somebody (a : Holder κ) (hnone : ids a = none) (hnext : next' = next + 1)
    (given : ∀ b c, ids' b = some c ↔ ids b = some c ∨ b = a ∧ c = ⟨UInt64.ofNat next⟩)

/-- Ids are not zero, lie below the next one, and belong to one holder each. -/
structure Distinct (ids : Holder κ → Option ContextId) (next : Nat) : Prop where
  issued : ∀ a c, ids a = some c → 0 < c.raw.toNat ∧ c.raw.toNat < next
  apart : ∀ a b c, ids a = some c → ids b = some c → a = b

namespace Issues

variable {ids ids' : Holder κ → Option ContextId} {next next' : Nat}

theorem keeps (h : Issues ids ids' next next') (ha : ids a = some c) : ids' a = some c := by
  cases h with
  | nobody hsame => rw [hsame, ha]
  | somebody b _ _ hgiven => exact (hgiven a c).2 (.inl ha)

theorem next_le (h : Issues ids ids' next next') : next ≤ next' := by
  cases h with
  | nobody _ hnext => exact hnext.ge
  | somebody _ _ hnext => omega

theorem distinct (h : Issues ids ids' next next') (hids : Distinct ids next) (hpos : 0 < next)
    (hnext : next' ≤ 2 ^ 64) : Distinct ids' next' := by
  cases h with
  | nobody hsame hsucc =>
    obtain rfl : ids' = ids := funext hsame
    rwa [hsucc]
  | somebody a hnone hsucc hgiven =>
    have hraw : (⟨UInt64.ofNat next⟩ : ContextId).raw.toNat = next := raw_ofNat (by omega)
    refine ⟨fun b c hb => ?_, fun b d c hb hd => ?_⟩
    · rcases (hgiven b c).1 hb with hb | ⟨-, rfl⟩
      · have hc := hids.issued b c hb
        omega
      · omega
    · rcases (hgiven b c).1 hb with hb | ⟨rfl, hc⟩
      · rcases (hgiven d c).1 hd with hd | ⟨-, rfl⟩
        · exact hids.apart b d c hb hd
        · exact absurd hraw (hids.issued b _ hb).2.ne
      · rcases (hgiven d c).1 hd with hd | ⟨rfl, -⟩
        · exact absurd (hc ▸ hraw) (hids.issued d c hd).2.ne
        · rfl

end Issues

theorem idOf_congr (hrows : ∀ t, (q.threads t).own = (p.threads t).own) (a : Holder κ) :
    n.idOf q a = n.idOf p a := by
  cases a with
  | thread t => exact hrows t
  | scope k => rfl

theorem issues_of_asked (h : Asked p q) (n : Nesting κ) :
    Issues (n.idOf p) (n.idOf q) p.nextContext q.nextContext := by
  cases h with
  | nobody _ hnext hrows => exact .nobody (idOf_congr fun t => congrArg Thread.own (hrows t)) hnext
  | somebody hown _ hnext hrows =>
    refine .somebody (.thread p.thread) hown hnext fun b c => ?_
    cases b with
    | scope k => simp [idOf]
    | thread t =>
      simp only [idOf, hrows, Holder.thread.injEq]
      by_cases ht : t = p.thread
      · subst ht
        simp [hown, eq_comm]
      · simp [ht]

section

variable [DecidableEq κ]

theorem issues_enter (p : Program) (n : Nesting κ) (k : κ) (before : Option ContextId) :
    Issues (n.idOf p) ((n.enter p.thread k (p.taskId (n.ids k)) before).idOf (p.inside (n.ids k)))
      p.nextContext (p.inside (n.ids k)).nextContext := by
  cases hk : n.ids k with
  | some c =>
    refine .nobody (fun a => ?_) rfl
    cases a with
    | thread t => exact withTask_own _ _ t
    | scope l =>
      by_cases hl : l = k
      · subst hl
        simp [idOf, enter, taskId, hk]
      · simp [idOf, enter, hl]
  | none =>
    refine .somebody (.scope k) hk rfl fun b c => ?_
    cases b with
    | thread t =>
      have hown : ((p.inside none).threads t).own = (p.threads t).own := withTask_own _ _ t
      simp [idOf, hown]
    | scope l =>
      by_cases hl : l = k
      · subst hl
        simp [idOf, enter, taskId, hk, eq_comm]
      · simp [idOf, enter, hl]

theorem Step.issues (h : Step p n q n') : Issues (n.idOf p) (n'.idOf q) p.nextContext q.nextContext := by
  cases h with
  | ask _ hon => exact issues_of_asked (currentContext_asked hon).2 n
  | enter k hon =>
    rw [enterTask_on] at hon
    cases hon
    exact issues_enter p n k _
  | leave _ hon =>
    cases hon
    exact .nobody (idOf_congr (withTask_own p _)) rfl
  | begin hon =>
    have hthreads := openThread_rows hon
    cases hon
    exact .nobody (idOf_congr fun t => congrArg Thread.own (hthreads t)) rfl
  | switch t hon =>
    cases hon
    exact .nobody (fun _ => rfl) rfl
  | elsewhere hthreads _ hnext =>
    exact .nobody (idOf_congr fun t => congrArg Thread.own (hthreads t)) hnext

theorem Steps.keeps (h : Steps p n q n') (ha : n.idOf p a = some c) : n'.idOf q a = some c := by
  induction h with
  | start => exact ha
  | next _ hstep ih => exact hstep.issues.keeps ih

theorem Steps.next_le (h : Steps p n q n') : p.nextContext ≤ q.nextContext := by
  induction h with
  | start => exact le_rfl
  | next _ hstep ih => exact ih.trans hstep.issues.next_le

theorem Steps.distinct (h : Steps p n q n') (hids : Distinct (n.idOf p) p.nextContext)
    (hpos : 0 < p.nextContext) (hnext : q.nextContext ≤ 2 ^ 64) : Distinct (n'.idOf q) q.nextContext := by
  induction h with
  | start => exact hids
  | next h hstep ih =>
    exact hstep.issues.distinct (ih (hstep.issues.next_le.trans hnext)) (hpos.trans_le h.next_le) hnext

end

def current (ids : κ → Option ContextId) : List (OpenTask κ) → Option ContextId
  | [] => none
  | x :: _ => ids x.scope

def Restoring (ids : κ → Option ContextId) : List (OpenTask κ) → Prop
  | [] => True
  | x :: rest => (ids x.scope).isSome ∧ x.before = current ids rest ∧ Restoring ids rest

structure Sound (p : Program) (n : Nesting κ) : Prop where
  restoring : ∀ t, Restoring n.ids (n.opened t)
  running : ∀ t, (p.threads t).task = current n.ids (n.opened t)

theorem current_mono {ids ids' : κ → Option ContextId} (hids : ∀ k c, ids k = some c → ids' k = some c)
    {opened : List (OpenTask κ)} (h : Restoring ids opened) : current ids' opened = current ids opened := by
  cases opened with
  | nil => rfl
  | cons x rest =>
    obtain ⟨c, hc⟩ := Option.isSome_iff_exists.1 h.1
    exact (hids x.scope c hc).trans hc.symm

theorem Restoring.mono {ids ids' : κ → Option ContextId} (hids : ∀ k c, ids k = some c → ids' k = some c)
    {opened : List (OpenTask κ)} (h : Restoring ids opened) : Restoring ids' opened := by
  induction opened with
  | nil => trivial
  | cons x rest ih =>
    obtain ⟨hsome, hbefore, hrest⟩ := h
    obtain ⟨c, hc⟩ := Option.isSome_iff_exists.1 hsome
    refine ⟨Option.isSome_iff_exists.2 ⟨c, hids _ _ hc⟩, ?_, ih hrest⟩
    exact hbefore.trans (current_mono hids hrest).symm

namespace Sound

theorem start (pid : UInt32) (installed : Bool) :
    Sound (Program.start pid installed) (empty : Nesting κ) := by
  refine ⟨fun _ => trivial, fun t => ?_⟩
  cases t <;> rfl

theorem of_tasks (h : Sound p n) (htasks : ∀ t, (q.threads t).task = (p.threads t).task) : Sound q n :=
  ⟨h.restoring, fun t => (htasks t).trans (h.running t)⟩

theorem leave (h : Sound p n) {x : OpenTask κ} {rest : List (OpenTask κ)}
    (hopen : n.opened p.thread = x :: rest) : Sound (p.withTask x.before) (n.leave p.thread) := by
  have hinner := h.restoring p.thread
  rw [hopen] at hinner
  obtain ⟨-, hbefore, hrest⟩ := hinner
  refine ⟨fun t => ?_, fun t => ?_⟩
  · by_cases ht : t = p.thread
    · subst ht
      simp only [Nesting.leave, Function.update_self, hopen, List.tail_cons]
      exact hrest
    · simp only [Nesting.leave, Function.update_of_ne ht]
      exact h.restoring t
  · rw [withTask_task]
    by_cases ht : t = p.thread
    · subst ht
      simp only [Nesting.leave, Function.update_self, hopen, List.tail_cons, if_true]
      exact hbefore
    · simp only [Nesting.leave, Function.update_of_ne ht, if_neg ht]
      exact h.running t

theorem asks (h : Sound p n) (hon : (currentContext .task).on p = (.ok c, q)) :
    n.idOf q (n.innermost p.thread) = some c := by
  obtain ⟨hc, hq⟩ := currentContext_asked hon
  obtain rfl := Except.ok.inj hc
  have hrunning := h.running p.thread
  have hrestoring := h.restoring p.thread
  unfold innermost
  cases hopen : n.opened p.thread with
  | nil =>
    rw [hopen] at hrunning
    rw [taskContext_on, hrunning] at hon
    exact threadContext_own hon
  | cons x rest =>
    rw [hopen] at hrunning hrestoring
    obtain ⟨d, hd⟩ := Option.isSome_iff_exists.1 hrestoring.1
    have hd' : (p.threads p.thread).task = some d := hrunning.trans hd
    refine hd.trans (congrArg some ?_)
    unfold contextFor
    rw [hd', Option.getD_some]

variable [DecidableEq κ]

theorem enter (h : Sound p n) (k : κ) :
    Sound (p.inside (n.ids k)) (n.enter p.thread k (p.taskId (n.ids k)) (p.threads p.thread).task) := by
  have hids : ∀ l c, n.ids l = some c →
      (n.enter p.thread k (p.taskId (n.ids k)) (p.threads p.thread).task).ids l = some c := fun l c hl =>
    (issues_enter p n k (p.threads p.thread).task).keeps (a := .scope l) hl
  have htasks : ∀ t, ((p.inside (n.ids k)).threads t).task =
      if t = p.thread then some (p.taskId (n.ids k)) else (p.threads t).task := withTask_task _ _
  refine ⟨fun t => ?_, fun t => ?_⟩
  · by_cases ht : t = p.thread
    · subst ht
      simp only [Nesting.enter, Function.update_self]
      refine ⟨?_, ?_, (h.restoring _).mono hids⟩
      · simp only [Function.update_self, Option.isSome_some]
      · exact (h.running _).trans (current_mono hids (h.restoring _)).symm
    · simp only [Nesting.enter, Function.update_of_ne ht]
      exact (h.restoring t).mono hids
  · rw [htasks]
    by_cases ht : t = p.thread
    · subst ht
      simp only [Nesting.enter, Function.update_self, current, if_true]
    · rw [if_neg ht, h.running]
      simp only [Nesting.enter, Function.update_of_ne ht]
      exact (current_mono hids (h.restoring t)).symm

theorem step (h : Sound p n) (hstep : Step p n q n') : Sound q n' := by
  cases hstep with
  | ask _ hon => exact h.of_tasks (currentContext_asked hon).2.task
  | enter k hon =>
    rw [enterTask_on] at hon
    cases hon
    exact h.enter k
  | leave hopen hon =>
    cases hon
    exact h.leave hopen
  | begin hon => exact h.of_tasks fun t => congrArg Thread.task (openThread_rows hon t)
  | switch _ hon =>
    cases hon
    exact h.of_tasks fun _ => rfl
  | elsewhere hthreads => exact h.of_tasks fun t => congrArg Thread.task (hthreads t)

theorem steps (h : Sound p n) (hsteps : Steps p n q n') : Sound q n' := by
  induction hsteps with
  | start => exact h
  | next _ hstep ih => exact ih.step hstep

end Sound

end Nesting

/-- Whoever asks for the current context is given this one, and nothing changes by it. -/
def Program.Knows (p : Program) (c : ContextId) : Prop := (currentContext .task).on p = (.ok c, p)

namespace Nesting

variable {n n' : Nesting κ}

theorem Sound.knows_iff (h : Sound p n) : p.Knows c ↔ n.idOf p (n.innermost p.thread) = some c := by
  refine ⟨h.asks, fun hid => ?_⟩
  have hrunning := h.running p.thread
  unfold Knows
  rw [taskContext_on, hrunning]
  unfold innermost at hid
  cases hopen : n.opened p.thread with
  | nil =>
    rw [hopen] at hid
    exact threadContext_known hid
  | cons x rest =>
    rw [hopen] at hid
    have hx : n.ids x.scope = some c := hid
    simp only [current, hx]

theorem distinct_start (pid : UInt32) (installed : Bool) :
    Distinct ((empty : Nesting κ).idOf (start pid installed)) (start pid installed).nextContext := by
  have hnone : ∀ a, (empty : Nesting κ).idOf (start pid installed) a = none := by
    intro a
    match a with
    | .thread 0 => rfl
    | .thread (t + 1) => rfl
    | .scope k => rfl
  refine ⟨fun a c ha => ?_, fun a b c ha _ => ?_⟩
  all_goals
    rw [hnone] at ha
    cases ha

section Whole

variable [DecidableEq κ] {k : κ} {body : Act α} {r : Except Halt α}

/-- Where nothing but scopes within was entered and left, the same context is found as before. -/
theorem Sound.lasting (h : Sound p n) (hsteps : Steps p n q n')
    (hinnermost : n'.innermost q.thread = n.innermost p.thread) (hc : p.Knows c) : q.Knows c := by
  rw [(h.steps hsteps).knows_iff, hinnermost]
  exact hsteps.keeps (h.knows_iff.1 hc)

/-- Something runs inside a scope. It begins where the scope was entered, and ends on the same thread
inside the same scopes, perhaps halted. In between, steps of any threads are taken. -/
structure Inside (p : Program) (n : Nesting κ) (k : κ) (body : Act α) (r : Except Halt α) (q : Program)
    (n' : Nesting κ) : Prop where
  ends : body.on (p.inside (n.ids k)) = (r, q)
  steps : Steps (p.inside (n.ids k)) (n.enter p.thread k (p.taskId (n.ids k)) (p.threads p.thread).task) q n'
  thread : q.thread = p.thread
  opened : n'.opened p.thread = ⟨k, (p.threads p.thread).task⟩ :: n.opened p.thread

structure Behind (p : Program) (n : Nesting κ) (q : Program) (n' : Nesting κ) : Prop where
  steps : Steps p n q n'
  thread : q.thread = p.thread
  opened : n'.opened p.thread = n.opened p.thread
  known : ∀ c, p.Knows c → q.Knows c

namespace Inside

theorem behind (h : Inside p n k body r q n') (hp : Sound p n) :
    Behind p n (q.withTask (p.threads p.thread).task) (n'.leave p.thread) := by
  have hentered : Steps p n (p.inside (n.ids k))
      (n.enter p.thread k (p.taskId (n.ids k)) (p.threads p.thread).task) :=
    Steps.start.next (.enter k (enterTask_on _ _))
  have hinner : n'.opened q.thread = ⟨k, (p.threads p.thread).task⟩ :: n.opened p.thread := by
    rw [h.thread]
    exact h.opened
  have hsteps := (hentered.trans h.steps).next (.leave hinner (setTask_on _ _))
  rw [h.thread] at hsteps
  have hopened : (n'.leave p.thread).opened p.thread = n.opened p.thread := by
    simp only [leave, Function.update_self, h.opened, List.tail_cons]
  refine ⟨hsteps, h.thread, hopened, fun c => hp.lasting hsteps ?_⟩
  change (n'.leave p.thread).innermost q.thread = _
  unfold innermost
  rw [h.thread, hopened]

theorem inTask_on (h : Inside p n k body r q n') : (inTask (p.taskId (n.ids k)) body).on
    { p with nextContext := if n.ids k = none then p.nextContext + 1 else p.nextContext } =
      (r, q.withTask (p.threads p.thread).task) := by
  rw [Program.inTask_on]
  change ((body.on (p.inside (n.ids k))).1, (body.on (p.inside (n.ids k))).2.withTask _) = _
  rw [h.ends]

theorem asTask_on (h : Inside p n k body r q n') (hk : n.ids k = none) :
    (asTask body).on p = (r, q.withTask (p.threads p.thread).task) := by
  have hran := h.inTask_on
  rw [hk] at hran
  exact hran

theorem poll_on {t : Task Act α} {r : Except Halt (Routine Act α)} (h : Inside p n k t.routine.poll r q n')
    (hk : t.context = n.ids k) : t.poll.on p =
      (r.map fun routine => ⟨some (p.taskId t.context), routine⟩, q.withTask (p.threads p.thread).task) := by
  have hran := h.inTask_on
  have hpoll : t.poll.on p = ((fun routine => (⟨some (p.taskId t.context), routine⟩ : Task Act α)) <$>
      inTask (p.taskId t.context) t.routine.poll).on
        { p with nextContext := if t.context = none then p.nextContext + 1 else p.nextContext } := by
    unfold Task.poll
    cases t.context <;> rfl
  rw [hpoll, hk, on_map, hran]
  cases r <;> rfl

end Inside

structure WellNested (p : Program) (n : Nesting κ) : Prop where
  found : ∃ c q, (currentContext .task).on p = (.ok c, q) ∧ n.idOf q (n.innermost p.thread) = some c ∧
    Steps p n q n ∧ q.Knows c
  own : ∃ c q, (currentContext .thread).on p = (.ok c, q) ∧ n.idOf q (.thread p.thread) = some c
  /-- Whatever happens, it is the same context when the same scope is innermost, on any thread, or when
  the same thread is outside all scopes. -/
  lasting : ∀ {c : ContextId} {q : Program} {n' : Nesting κ}, p.Knows c → Steps p n q n' →
    n'.innermost q.thread = n.innermost p.thread → q.Knows c
  /-- Something is run in a new scope. -/
  scope : ∀ {α : Type} {k : κ} {x : Act α} {r : Except Halt α} {q : Program} {n' : Nesting κ},
    n.ids k = none → Inside p n k x r q n' →
      ∃ q', (asTask x).on p = (r, q') ∧ Behind p n q' (n'.leave p.thread)
  poll : ∀ {α : Type} {k : κ} {t : Task Act α} {r : Except Halt (Routine Act α)} {q : Program}
    {n' : Nesting κ}, t.context = n.ids k → Inside p n k t.routine.poll r q n' →
      ∃ c q', t.poll.on p = (r.map fun routine => ⟨some c, routine⟩, q') ∧
        Behind p n q' (n'.leave p.thread) ∧ (n'.leave p.thread).ids k = some c
  kept : ∀ {a : Holder κ} {c : ContextId} {q : Program} {n' : Nesting κ}, n.idOf p a = some c →
    Steps p n q n' → n'.idOf q a = some c
  distinct : p.nextContext ≤ 2 ^ 64 → Distinct (n.idOf p) p.nextContext

theorem Inside.id_kept (h : Inside p n k body r q n') :
    (n'.leave p.thread).ids k = some (p.taskId (n.ids k)) := by
  have hentered : (n.enter p.thread k (p.taskId (n.ids k)) (p.threads p.thread).task).idOf
      (p.inside (n.ids k)) (.scope k) = some (p.taskId (n.ids k)) := Function.update_self _ _ _
  exact h.steps.keeps hentered

/-- Threads of a process ask for contexts, and enter and leave scopes, in any order, nested in any way,
and also by panics. Whoever asks is given the id of the innermost scope that is open on the thread, or
else the thread's own; it stays the same, and is the same again when scopes within were left. Ids stay with
whom they were given to, and as long as they are not used up, all are different and not zero. -/
theorem contexts_nest {pid : UInt32} {installed : Bool} (h : Steps (start pid installed) empty p n) :
    WellNested p n := by
  have hp : Sound p n := (Sound.start pid installed).steps h
  refine ⟨?_, ?_, fun hc hsteps hinnermost => hp.lasting hsteps hinnermost hc, fun hk hinside => ?_,
    fun {α k t r q n'} hk hinside => ?_, fun ha hsteps => hsteps.keeps ha, fun hnext => ?_⟩
  · obtain ⟨q, hon, hq, -⟩ := currentContext_on p .task
    have hstep : Step p n q n := .ask .task hon
    have hid := hp.asks hon
    refine ⟨_, q, hon, hid, .next .start hstep, (hp.step hstep).knows_iff.2 ?_⟩
    rwa [hq.thread]
  · obtain ⟨q, hon, -⟩ := currentContext_on p .thread
    exact ⟨_, q, hon, threadContext_own hon⟩
  · exact ⟨_, hinside.asTask_on hk, hinside.behind hp⟩
  · refine ⟨_, _, hinside.poll_on hk, hinside.behind hp, ?_⟩
    rw [hk]
    exact hinside.id_kept
  · exact h.distinct (distinct_start pid installed) Nat.one_pos hnext

/-- A thread is inside a scope. Another one gets an id and enters a scope of its own. Then a panic leaves
two scopes that the first one has entered within, and it is back in its scope. -/
theorem contexts_nest_on_two_threads : ∃ (p : Program) (n : Nesting Nat),
    Steps (start 1 false) empty p n ∧ n.innermost 0 = .scope 0 ∧ n.innermost 1 = .scope 1 ∧ p.thread = 0 ∧
      n.idOf p (.thread 0) = some ⟨1⟩ ∧ n.idOf p (.scope 0) = some ⟨2⟩ ∧
      n.idOf p (.thread 1) = some ⟨3⟩ ∧ n.idOf p (.scope 1) = some ⟨4⟩ ∧
      Distinct (n.idOf p) p.nextContext ∧ p.Knows ⟨2⟩ ∧ ∃ q,
        (asTask (asTask (throw (.panicked "out") : Act Unit))).on p = (.error (.panicked "out"), q) ∧
        q.Knows ⟨2⟩ := by
  have h₁ : Steps (start 1 false) (empty : Nesting Nat) _ _ := .next .start (.ask .task rfl)
  have h₂ := h₁.next (.enter 0 rfl)
  have h₃ := h₂.next (.begin rfl)
  have h₄ := h₃.next (.ask .task rfl)
  have h₅ := h₄.next (.enter 1 rfl)
  have h₆ := h₅.next (.switch 0 rfl)
  have hnest := contexts_nest h₆
  refine ⟨_, _, h₆, rfl, rfl, rfl, rfl, rfl, rfl, rfl, hnest.distinct (by decide), rfl, ?_⟩
  obtain ⟨q, hon, hwithin⟩ := (contexts_nest (h₆.next (.enter 2 rfl))).scope (k := 3)
    (x := (throw (.panicked "out") : Act Unit)) rfl ⟨rfl, .start, rfl, rfl⟩
  obtain ⟨q', hon', hbehind⟩ := hnest.scope (k := 2) rfl
    ⟨hon, hwithin.steps, hwithin.thread, hwithin.opened⟩
  exact ⟨q', hon', hbehind.known _ rfl⟩

end Whole

end Nesting

end ProfilingAgent
