import ProfilingAgent.Host.Calls
import ProfilingAgent.Proofs.OpenScopes
import ProfilingAgent.Proofs.TellingDepth

set_option autoImplicit false

namespace ProfilingAgent

open Act Program

def Program.whileAlive {α : Type} (a : AgentId) (x : Act α) : Act (Option α) := do
  if (← agent a).alive then some <$> x else pure none

inductive HostWork : {α : Type} → Act α → Prop
  | pure {α : Type} (r : α) : HostWork (pure r)
  | bind {α β : Type} {x : Act α} {f : α → Act β} (hx : HostWork x) (hf : ∀ r, HostWork (f r)) :
    HostWork (x >>= f)
  /-- What is done next may depend on anything. -/
  | look {α : Type} (f : Program → α) : HostWork (f <$> get)
  | panic {α : Type} (message : String) : HostWork (throw (.panicked message) : Act α)
  | guarded {α : Type} (fallback : α) {x : Act α} (hx : HostWork x) :
    HostWork (Host.guarded fallback x)
  | use {α : Type} (op : Operation) {x : Act α} (hfits : ∀ p, op.Fits p)
    (hx : discard x = op.perform) : HostWork x
  | ask {α : Type} (a : AgentId) (op : Operation) {x : Act α}
    (hfits : ∀ p, (p.agents a).alive = true → op.Fits p) (hx : discard x = op.perform) :
    HostWork (whileAlive a x)
  | enter (s : StoreId) (provider : Provider) (tags : List Tag) :
    HostWork (Program.enter s provider tags)
  | exit (x : Scope) : HostWork (Program.exit x)
  | withTags {α : Type} (s : StoreId) (provider : Provider) (tags : List Tag) {body : Act α}
    (hbody : HostWork body) : HostWork (Program.withTags s provider tags body)
  | issueContext : HostWork Program.issueContext
  | inTask {α : Type} (c : ContextId) {body : Act α} (hbody : HostWork body) :
    HostWork (Program.inTask c body)
  | onThread {α : Type} {body : Act α} (hbody : HostWork body) : HostWork (Program.onThread body)
  | resume (t : ThreadId) : HostWork (Program.resume t)

namespace Program

variable {α β : Type} {p q : Program} {a : AgentId} {s : StoreId} {x : Act α}

theorem Turned.atRest (h : Turned p q) (hp : p.AtRest) : q.AtRest := by
  obtain ⟨threads, thread, next, rfl⟩ := h
  exact hp.same ⟨rfl, rfl, rfl, rfl, fun _ => rfl⟩ fun _ => .inl rfl

def Bides (x : Act α) : Prop :=
  ∀ p, p.AtRest → Ends x p (fun _ q => q.AtRest) fun h q => (∃ m, h = .panicked m) ∧ q.AtRest

namespace Bides

theorem pure (r : α) : Bides (pure r : Act α) := fun _ hp => hp

theorem bind {f : α → Act β} (hx : Bides x) (hf : ∀ r, Bides (f r)) : Bides (x >>= f) := by
  intro p hp
  rw [ends_bind]
  exact Ends.mono (hx p hp) (fun r q hq => hf r q hq) fun _ _ h => h

theorem protect {after : Act Unit} (hx : Bides x) (hafter : Bides after) :
    Bides (protect x after) := by
  intro p hp
  rw [ends_protect]
  refine Ends.mono (hx p hp) (fun _ q hq => hafter q hq) ?_
  rintro h q ⟨hh, hq⟩
  exact Ends.mono (hafter q hq) (fun _ _ hr => ⟨hh, hr⟩) fun _ _ h => h

theorem of_rests (h : ∀ p, p.AtRest → Rests x p) : Bides x := fun p hp =>
  Ends.mono (h p hp) (fun _ _ h => h.1) fun _ _ h => ⟨h.2.2.1, h.1⟩

theorem of_discard (h : ∀ p, p.AtRest → Rests (discard x) p) : Bides x := by
  refine of_rests fun p hp => ?_
  have hx := h p hp
  unfold Rests at hx ⊢
  rw [ends_discard] at hx
  exact hx

/-- Something that is found out without anything being done to agents or stores. -/
theorem turn (h : ∀ p, ∃ r q, x.on p = (.ok r, q) ∧ Turned p q) : Bides x := by
  intro p hp
  obtain ⟨r, q, hon, hq⟩ := h p
  rw [ends_of_on hon]
  exact hq.atRest hp

theorem note (e : Log.Event) : Bides (note e) := fun _ hp =>
  hp.follows ((Follows.refl hp.sound).annotate _)

theorem guarded (fallback : α) (hx : Bides x) : Bides (Host.guarded fallback x) := by
  intro p hp
  have hends := hx p hp
  unfold Ends at hends ⊢
  unfold Host.guarded
  rw [on_tryCatch]
  rcases hon : x.on p with ⟨h | r, q⟩
  · rw [hon] at hends
    obtain ⟨⟨m, rfl⟩, hq⟩ := hends
    exact hq
  · rw [hon] at hends
    exact hends

theorem whileAlive (h : ∀ p, p.AtRest → (p.agents a).alive = true → Rests (discard x) p) :
    Bides (whileAlive a x) := by
  intro p hp
  unfold Program.whileAlive
  rw [ends_bind, ends_agent]
  split
  · have hx := h p hp ‹_›
    unfold Rests at hx
    rw [ends_discard] at hx
    rw [map_eq_pure_bind, ends_bind]
    exact Ends.mono hx (fun _ _ h => h.1) fun _ _ h => ⟨h.2.2.1, h.1⟩
  · exact hp

theorem enter (s : StoreId) (provider : Provider) (tags : List Tag) :
    Bides (enter s provider tags) := by
  refine .bind (.turn fun p => ?_) fun c => ?_
  · obtain ⟨c, q, hon, hq, -⟩ := currentContext_turned (p := p) provider
    exact ⟨c, q, hon, hq⟩
  · refine .bind (.of_discard fun p hp => (Operation.addTags s c tags).rests hp trivial) fun r => ?_
    cases r with
    | error e => exact .pure _
    | ok _ => exact .bind (.note _) fun _ => .pure _

theorem exit (x : Scope) : Bides (exit x) :=
  .bind (.of_rests fun _ hp => (Operation.removeTags x.store x.context x.tags).rests hp trivial)
    fun _ => .note _

theorem withTags (s : StoreId) (provider : Provider) (tags : List Tag) (hx : Bides x) :
    Bides (withTags s provider tags x) := by
  refine .bind (.enter s provider tags) fun r => ?_
  cases r with
  | error e => exact .pure _
  | ok scope => exact .bind (.protect hx (.exit scope)) fun _ => .pure _

theorem setTask (c : Option ContextId) : Bides (setTask c) :=
  .turn fun p => ⟨(), _, rfl, _, p.thread, p.nextContext, rfl⟩

theorem inTask (c : ContextId) (hx : Bides x) : Bides (inTask c x) := by
  have before : Bides runningTask := .turn fun p => ⟨_, p, rfl, p.threads, p.thread, p.nextContext, rfl⟩
  exact .bind before fun _ => .bind (.setTask _) fun _ => .protect hx (.setTask _)

theorem resume (t : ThreadId) : Bides (resume t) :=
  .turn fun p => ⟨(), _, rfl, p.threads, t, p.nextContext, rfl⟩

theorem onThread (hx : Bides x) : Bides (onThread x) := by
  have opened : Bides openThread := .turn fun p => ⟨_, _, rfl, _, _, p.nextContext, rfl⟩
  exact .bind opened fun _ => .protect hx (.resume _)

end Bides

end Program

theorem HostWork.bides {α : Type} {x : Act α} (h : HostWork x) : Bides x := by
  induction h with
  | pure r => exact .pure r
  | bind _ _ hx hf => exact .bind hx hf
  | look f => exact .turn fun p => ⟨f p, p, rfl, p.threads, p.thread, p.nextContext, rfl⟩
  | panic message => exact fun p hp => ⟨⟨message, rfl⟩, hp⟩
  | guarded fallback _ hx => exact .guarded fallback hx
  | use op hfits hx => exact .of_discard fun p hp => hx ▸ op.rests hp (hfits p)
  | ask a op hfits hx => exact .whileAlive fun p hp halive => hx ▸ op.rests hp (hfits p halive)
  | enter s provider tags => exact .enter s provider tags
  | exit x => exact .exit x
  | withTags s provider tags _ hbody => exact .withTags s provider tags hbody
  | issueContext => exact .turn fun p => ⟨_, _, rfl, p.threads, p.thread, _, rfl⟩
  | inTask c _ hbody => exact .inTask c hbody
  | onThread _ hbody => exact .onThread hbody
  | resume t => exact .resume t

/-- Nobody holds a lock, whatever is asked comes to its end unless a sampler panics, and however deep
agents may tell each other about a fork makes no difference. -/
structure Program.Unhindered (p : Program) : Prop where
  free : ∀ a, (p.agents a).locked = false
  completes : ∀ op : Operation, op.Fits p →
    Ends op.perform p (fun _ _ => True) fun h _ => Broken p h
  deeper : ∀ a, (p.agents a).alive = true → ∀ n,
    (settle (tellingDepth + n) a).on p = (handleFork a).on p

theorem Program.AtRest.unhindered {p : Program} (hp : p.AtRest) : p.Unhindered where
  free := hp.unlocked
  completes op hfits := Ends.mono (op.rests hp hfits) (fun _ _ _ => trivial) fun _ _ h => h.2.2
  deeper _ halive n := settle_deeper hp.sound halive n

/-- Whatever hosts do in a program that operations lead to, only a panic halts it, so that nobody ever
asks for a lock that he holds; and at every moment between two things that hosts do, also inside a
scope, the program is unhindered. -/
theorem no_lock_taken_twice {α : Type} {x : Act α} {p : Program} (hp : Reachable p)
    (hx : HostWork x) :
    Ends x p (fun _ q => q.Unhindered) fun h q => (∃ m, h = .panicked m) ∧ q.Unhindered :=
  Ends.mono (hx.bides p hp.atRest) (fun _ _ h => h.unhindered) fun _ _ h => ⟨h.1, h.2.unhindered⟩

/-- Two agents share a store that tells the second about forks. While a scope is open the process forks,
and then the first agent is stopped, which runs. -/
def Program.entangled : Act (Except TagError (Option (Except AgentError Unit))) := do
  let s ← newStore
  let a ← newAgentOn s (.scripted (.failing fun _ => false))
  let _ ← newAgentOn s (.scripted (.failing fun _ => false))
  let _ ← whileAlive a (startAgent a (.tagged "team" "a"))
  withTags s (.fixed ⟨7⟩) [⟨"zone", "b"⟩] do
    recordFork
    whileAlive a (stopAgent a)

/-- The first agent decides about the fork and retires under its lock. The use of the store by which it
retires has the second agent decide, under its own lock. -/
theorem no_lock_taken_twice_entangled :
    HostWork entangled ∧ Reachable (start 1 false) ∧
      Ends entangled (start 1 false) (fun _ q => q.Unhindered ∧ (q.agents 0).phase = .stopped ∧
        q.calls = [.start 0 (.tagged "team" "a") [⟨"team", "a"⟩], .reset 0, .reset 1])
        fun _ _ => False := by
  have hwork : HostWork entangled := by
    refine .bind (.use .newStore (fun _ => trivial) rfl) fun s => ?_
    refine .bind (.use (.newAgent s (.scripted (.failing fun _ => false))) (fun _ => trivial) rfl) fun a => ?_
    refine .bind (.use (.newAgent s (.scripted (.failing fun _ => false))) (fun _ => trivial) rfl) fun b => ?_
    refine .bind (.ask a (.start a (.tagged "team" "a")) (fun _ h => h) rfl) fun _ => ?_
    refine .withTags s (.fixed ⟨7⟩) [⟨"zone", "b"⟩] ?_
    exact .bind (.use .fork (fun _ => trivial) rfl) fun _ => .ask a (.stop a) (fun _ h => h) rfl
  have hreach : Reachable (start 1 false) := .start 1 false
  have hok : (entangled.on (start 1 false)).1.isOk = true := by decide +kernel
  have hphase : ((entangled.on (start 1 false)).2.agents 0).phase = .stopped := by decide +kernel
  have hcalls : (entangled.on (start 1 false)).2.calls =
      [.start 0 (.tagged "team" "a") [⟨"team", "a"⟩], .reset 0, .reset 1] := by decide +kernel
  -- What was done need not be computed again.
  generalize entangled = x at hwork hok hphase hcalls ⊢
  have hends := no_lock_taken_twice hreach hwork
  refine ⟨hwork, hreach, ?_⟩
  unfold Ends at hends ⊢
  rcases hon : x.on (start 1 false) with ⟨h | r, q⟩
  · rw [hon] at hok
    cases hok
  · rw [hon] at hends hphase hcalls
    exact ⟨hends, hphase, hcalls⟩

end ProfilingAgent
