import ProfilingAgent.Proofs.ForkHistories

set_option autoImplicit false

namespace ProfilingAgent

open Act Program

namespace ForkWork

variable {α β : Type} {x : Act α} {tell : AgentId → Act Unit} {a : AgentId} {s : StoreId}

theorem pure (r : α) : ForkWork (pure r : Act α) := .aside fun _ => rfl

theorem throw (h : Halt) : ForkWork (throw h : Act α) := .aside fun _ => rfl

theorem agent (a : AgentId) : ForkWork (agent a) := .aside fun _ => rfl

theorem store (s : StoreId) : ForkWork (store s) := .aside fun _ => rfl

theorem note (e : Log.Event) : ForkWork (note e) := .aside fun _ => rfl

theorem configuredTags (c : Settings) : ForkWork (configuredTags c) := .aside fun _ => rfl

theorem discard (hx : ForkWork x) : ForkWork (discard x) := by
  change ForkWork (x >>= fun _ => Pure.pure ())
  exact .bind hx fun _ => .pure ()

theorem protect {after : Act Unit} (hx : ForkWork x) (hafter : ForkWork after) :
    ForkWork (protect x after) := by
  unfold ProfilingAgent.protect
  refine .bind (.tryCatch (.bind hx fun r => .pure _) fun e => .pure _) fun r => .bind hafter fun _ => ?_
  cases r with
  | ok r => exact .pure r
  | error e => exact .throw e

theorem updateAgent {f : Agent → Agent} (hf : ∀ x, (f x).seen = x.seen ∧ (f x).alive = x.alive) :
    ForkWork (updateAgent a f) := by
  refine .aside fun p => (vigil_agents (Table.update_row p.agents a · f)).trans ?_
  rw [(hf _).1, (hf _).2]
  exact Vigil.setAgent_self p.vigil a

theorem setTags (tags : TagStore) : ForkWork (setTags s tags) := by
  refine .aside fun p => (vigil_stores (Table.update_row p.stores s · _)).trans ?_
  exact Vigil.setHook_self p.vigil (.store s)

theorem claim (a : AgentId) : ForkWork (claim a) := by
  refine .aside fun p => ?_
  have hclaim : Ends (Program.claim a) p (fun _ q => q.vigil = p.vigil) fun _ q => q.vigil = p.vigil := by
    rw [ends_claim]
    split <;> rfl
  exact hclaim.left

theorem release (a : AgentId) : ForkWork (release a) := by
  refine .aside fun p => ?_
  change (if p.slot = some a then { p with slot := none } else p).vigil = p.vigil
  split <;> rfl

theorem stopping (hx : ForkWork x) : ForkWork (do setPhase a .stopped; Program.release a; x) :=
  .bind (.updateAgent (by simp)) fun _ => .bind (.release a) fun _ => hx

theorem locking (hx : ForkWork x) : ForkWork (locking a x) := by
  have locked : ForkWork (do
      Program.updateAgent a fun x => { x with locked := true }
      ProfilingAgent.protect x (Program.updateAgent a fun x => { x with locked := false })) :=
    .bind (.updateAgent (by simp)) fun _ => .protect hx (.updateAgent (by simp))
  unfold Program.locking
  refine .bind (.agent a) fun x => ?_
  split
  · exact .bind (.throw _) fun _ => locked
  · exact locked

section Telling

variable (htell : ∀ a, ForkWork (tell a))

include htell

theorem checkStore (s : StoreId) : ForkWork (checkStore tell s) := .check (.store s) htell

theorem revise (s : StoreId) (use : TagStore → Except TagError TagStore) : ForkWork (revise tell s use) := by
  refine .bind (.checkStore htell s) fun _ => .bind (.store s) fun x => ?_
  cases use x.tags with
  | error e => exact .pure _
  | ok tags => exact .bind (.setTags tags) fun _ => .pure _

theorem addTags (s : StoreId) (c : ContextId) (tags : List Tag) : ForkWork (addTagsWith tell s c tags) := by
  refine .bind (.revise htell s _) fun r => ?_
  cases r with
  | error e => exact .pure _
  | ok _ =>
    dsimp only
    split
    · exact .bind (.note _) fun _ => .pure _
    · exact .pure _

theorem removeTags (s : StoreId) (c : ContextId) (tags : List Tag) :
    ForkWork (removeTagsWith tell s c tags) := by
  refine .bind (.checkStore htell s) fun _ => .bind (.store s) fun x => .bind (.setTags _) fun _ => ?_
  split
  · exact .bind (.note _) fun _ => .pure _
  · exact .pure _

theorem addGlobal (s : StoreId) (t : Tag) : ForkWork (addGlobalWith tell s t) := .revise htell s _

theorem exchange (s : StoreId) (old new : List Tag) : ForkWork (replaceGlobalsWith tell s old new) :=
  .revise htell s _

theorem removeGlobal (s : StoreId) (t : Tag) : ForkWork (removeGlobalWith tell s t) :=
  .bind (.checkStore htell s) fun _ => .bind (.store s) fun _ => .bind (.setTags _) fun _ => .pure _

theorem snapshot (s : StoreId) (c : ContextId) : ForkWork (snapshotWith tell s c) :=
  .bind (.checkStore htell s) fun _ => .bind (.store s) fun _ => .pure _

theorem clearContext (s : StoreId) (c : ContextId) : ForkWork (clearContextWith tell s c) :=
  .bind (.checkStore htell s) fun _ => .bind (.store s) fun _ => .bind (.setTags _) fun _ => .pure _

theorem useOnce (a : AgentId) (s : StoreId) (u : Use) : ForkWork (useOnce tell a s u) := by
  cases u with
  | addTags c tags => exact .discard (.addTags htell s c tags)
  | removeTags c tags => exact .discard (.removeTags htell s c tags)
  | addGlobal t => exact .discard (.addGlobal htell s t)
  | removeGlobal t => exact .discard (.removeGlobal htell s t)
  | replaceGlobals old new => exact .discard (.exchange htell s old new)
  | snapshot c => exact .discard (.snapshot htell s c)
  | clearContext c => exact .discard (.clearContext htell s c)
  | state => exact htell a

theorem useAll (a : AgentId) (s : StoreId) (us : List Use) : ForkWork (useAll tell a s us) := by
  induction us with
  | nil => exact .pure ()
  | cons u us ih => exact .bind (.useOnce htell a s u) fun _ => ih

theorem carryOut (a : AgentId) (r : Reply) : ForkWork (carryOut tell a r) := by
  refine .bind (.agent a) fun x => .bind (.useAll htell a x.store r.uses) fun _ => ?_
  cases r.ending with
  | succeeds => exact .pure true
  | fails => exact .pure false
  | panics message => exact .throw _

theorem callStart (a : AgentId) (c : Settings) : ForkWork (callStart tell a c) := by
  refine .bind (.agent a) fun x => ?_
  cases x.sampler with
  | idle => exact .bind (.note _) fun _ => .pure true
  | scripted script =>
    exact .bind (.updateAgent (by simp)) fun _ => .bind (.aside fun _ => rfl) fun _ =>
      .bind (.aside fun _ => rfl) fun _ => .carryOut htell a _

theorem callStop (a : AgentId) : ForkWork (callStop tell a) := by
  refine .bind (.agent a) fun x => ?_
  cases x.sampler with
  | idle => exact .pure true
  | scripted script =>
    exact .bind (.updateAgent (by simp)) fun _ => .bind (.aside fun _ => rfl) fun _ =>
      .bind (.aside fun _ => rfl) fun _ => .carryOut htell a _

theorem callReset (a : AgentId) : ForkWork (callReset tell a) := by
  refine .bind (.agent a) fun x => ?_
  cases x.sampler with
  | idle => exact .pure ()
  | scripted script =>
    exact .bind (.updateAgent (by simp)) fun _ => .bind (.aside fun _ => rfl) fun _ =>
      .discard (.carryOut htell a _)

theorem retire (a : AgentId) : ForkWork (retire tell a) := by
  have last : ForkWork (do setPhase a .stopped; Program.release a) :=
    .bind (.updateAgent (by simp)) fun _ => .release a
  refine .bind (.agent a) fun x => ?_
  cases x.settings with
  | none => exact last
  | some c =>
    refine .bind (.configuredTags c) fun old => .bind (.exchange htell x.store old []) fun r => ?_
    cases r with
    | ok _ => exact last
    | error e => exact .bind (.note _) fun _ => last

theorem carryOn (a : AgentId) : ForkWork (carryOn tell a) := by
  refine .bind (.agent a) fun x => ?_
  split
  · exact .bind (.note _) fun _ => .pure none
  · cases x.settings with
    | none => exact .pure none
    | some c =>
      have retired (level : Level) (message : String) (action : ForkAction) : ForkWork (do
          say level message
          Program.retire tell a
          Pure.pure (some action)) :=
        .bind (.note _) fun _ => .bind (.retire htell a) fun _ => .pure _
      dsimp only
      cases ForkAction.decide c.detectSubprocesses with
      | inert => exact retired _ _ _
      | restart =>
        refine .bind (.callStart htell a c) fun started => ?_
        cases started with
        | true => exact .bind (.note _) fun _ => .pure _
        | false => exact retired _ _ _

theorem applyFork (a : AgentId) : ForkWork (applyFork tell a) := by
  refine .bind (.look (.agent a)) fun behind => ?_
  cases behind with
  | true => exact .locking (.bind (.callReset htell a) fun _ => .carryOn htell a)
  | false => exact .pure none

end Telling

theorem settle (n : Nat) (a : AgentId) : ForkWork (settle n a) := by
  induction n generalizing a with
  | zero => exact .throw _
  | succ n ih => exact .applyFork (fun b => .discard (ih b)) a

/-- Agents are watchers that may do what they do when they are told. -/
theorem tellAgent (a : AgentId) : ForkWork (tellAgent a) := .discard (.settle tellingDepth a)

theorem previousTags (c : Option Settings) : ForkWork (previousTags c) := by
  cases c with
  | none => exact .pure []
  | some c => exact .configuredTags c

theorem launch (a : AgentId) (c : Settings) : ForkWork (launch a c) := by
  refine .bind (.note _) fun _ => .bind (.agent a) fun x => .bind (.configuredTags c) fun initial =>
    .bind (.exchange .tellAgent x.store _ _) fun r => ?_
  cases r with
  | error e => exact .pure _
  | ok _ =>
    refine .bind (.callStart .tellAgent a c) fun started => ?_
    cases started with
    | true => exact .bind (.note _) fun _ => .bind (.updateAgent (by simp)) fun _ => .pure _
    | false =>
      refine .bind (.exchange .tellAgent x.store _ _) fun r => ?_
      cases r with
      | error e => exact .pure _
      | ok _ => exact .bind (.release a) fun _ => .bind (.note _) fun _ => .pure _

theorem startFrom (a : AgentId) (phase : Phase) (c : Settings) : ForkWork (startFrom a phase c) := by
  refine .bind (.claim a) fun claimed => ?_
  cases claimed with
  | false => exact .pure _
  | true =>
    change ForkWork (if phase = .fresh then _ else _)
    split
    · exact .bind (.updateAgent (by simp)) fun _ => .launch a c
    · exact .launch a c

theorem relaunch (a : AgentId) (s : StoreId) (old : List Tag) (c : Settings) :
    ForkWork (relaunch a s old c) := by
  refine .bind (.configuredTags c) fun new => .bind (.exchange .tellAgent s _ _) fun r => ?_
  cases r with
  | error e => exact .pure _
  | ok _ =>
    refine .bind (.callStart .tellAgent a c) fun started => ?_
    cases started with
    | true => exact .bind (.updateAgent (by simp)) fun _ => .bind (.note _) fun _ => .pure _
    | false =>
      refine .bind (.exchange .tellAgent s _ _) fun r => ?_
      cases r with
      | error e => exact .pure _
      | ok _ => exact .stopping (.bind (.note _) fun _ => .pure _)

theorem swap (a : AgentId) (c : Settings) : ForkWork (swap a c) := by
  refine .bind (.agent a) fun x => .bind (.callStop .tellAgent a) fun flushed => ?_
  have last : ForkWork (do
      let old ← Program.previousTags x.settings
      Program.relaunch a x.store old c) :=
    .bind (.previousTags x.settings) fun old => .relaunch a x.store old c
  cases flushed with
  | true => exact last
  | false => exact .bind (.note _) fun _ => last

theorem startAgent (a : AgentId) (c : Settings) : ForkWork (startAgent a c) := by
  refine .bind (.tellAgent a) fun _ => .locking (.bind (.agent a) fun x => ?_)
  split
  · split
    · exact .bind (.note _) fun _ => .pure _
    · exact .swap a c
  · exact .startFrom a x.phase c

theorem stopAgent (a : AgentId) : ForkWork (stopAgent a) := by
  refine .bind (.tellAgent a) fun _ => .locking (.bind (.agent a) fun x => ?_)
  cases x.phase with
  | running =>
    refine .bind (.callStop .tellAgent a) fun flushed => .bind (.retire .tellAgent a) fun _ => ?_
    cases flushed with
    | true => exact .bind (.note _) fun _ => .pure _
    | false => exact .pure _
  | stopped => exact .bind (.note _) fun _ => .pure _
  | fresh => exact .pure _
  | configured => exact .pure _

theorem dropAgent (a : AgentId) : ForkWork (dropAgent a) := by
  refine .protect (.bind (.agent a) fun x => ?_) (.leave (.agent a))
  split
  · refine .bind (.stopAgent a) fun r => ?_
    cases r with
    | ok _ => exact .release a
    | error e => exact .bind (.note _) fun _ => .release a
  · exact .release a

/-- Whatever operation it is, except that the process goes on as the child of a fork. -/
theorem operation (op : Operation) (h : op ≠ .child) : ForkWork op.perform := by
  have told (a : AgentId) {α : Type} (f : Agent → α) : ForkWork (do
      Program.tellAgent a
      return f (← Program.agent a)) :=
    .bind (.tellAgent a) fun _ => .bind (.agent a) fun _ => .pure _
  cases op with
  | newStore => exact .discard .newStore
  | newAgent s sampler => exact .discard (.newAgent s sampler)
  | start a c => exact .discard (.startAgent a c)
  | reconfigure a c => exact .discard (.bind (.note _) fun _ => .startAgent a c)
  | stop a => exact .discard (.stopAgent a)
  | handleFork a => exact .tellAgent a
  | drop a => exact .dropAgent a
  | state a => exact .discard (told a Agent.phase)
  | tags a => exact .discard (told a Agent.store)
  | fork => exact .fork
  | child => exact absurd rfl h
  | watch s c => exact .watch (.store s) (.counter c)
  | addTags s c tags => exact .discard (.addTags .tellAgent s c tags)
  | removeTags s c tags => exact .discard (.removeTags .tellAgent s c tags)
  | addGlobal s t => exact .discard (.addGlobal .tellAgent s t)
  | removeGlobal s t => exact .discard (.removeGlobal .tellAgent s t)
  | replaceGlobals s old new => exact .discard (.exchange .tellAgent s old new)
  | snapshot s c => exact .discard (.snapshot .tellAgent s c)
  | clearContext s c => exact .discard (.clearContext .tellAgent s c)

end ForkWork

/-- A child remembers its parent's forks and the one that made it. -/
theorem Beyond.child {es : List ForkEvent} {p : Program} (h : Beyond es p) : Beyond es p.child :=
  h.trans fun _ h => .cons (h.fork.aside rfl)

theorem Beyond.after {es : List ForkEvent} {p : Program} (h : Beyond es p) (op : Operation) :
    Beyond es (op.after p) := by
  by_cases hop : op = .child
  · subst hop
    exact h.child
  · exact (ForkWork.operation op hop).beyond h

/-- Every program that operations lead to has a history of its forks. -/
theorem Reachable.history {p : Program} (h : Reachable p) : ∃ es, History es p := by
  have hbeyond : Beyond [] p := by
    induction h with
    | start pid handler => exact .refl (.start pid handler)
    | perform _ op _ ih => exact ih.after op
  obtain ⟨es, -, hes⟩ := hbeyond
  exact ⟨es, hes⟩

/-- Forks are counted once for all, and still each burst is reported once to each who looks. A boundary says
whether there was a fork since it was built or last asked. A hook tells a watcher if there was a fork since
it was built or last checked, the watcher is the one that it got last, and that one is still there. What
the watcher does then happens after the check, to whatever it leads. Without a newer fork a second check
does nothing, be it made by the watcher itself or after another watcher came. So every answer in a history
was right, and counters count what they were told. -/
theorem forks_reported_once {es : List ForkEvent} {p : Program} (h : History es p) :
    (∀ b : BoundarySite, ∃ answer q, b.look.on p = (.ok answer, q) ∧
      (answer = true ↔ ForkedSince (.boundary b) es)) ∧
    (∀ k : HookSite, ∃ told q, Checks k p told q ∧ (∀ w, told = some w ↔ Due k w es) ∧
      History (.checked k told :: es) q ∧
      ∀ tell, (∀ a, ForkWork (tell a)) → Beyond (.checked k told :: es) ((k.check tell).on p).2) ∧
    (∀ k told later earlier, es = later ++ .checked k told :: earlier → .forked ∉ later →
      ∀ tell, (k.check tell).on p = (.ok (), p)) ∧
    Faithful es ∧ ∀ c, (p.counters c).count = es.countP (·.tells c) := by
  refine ⟨h.looks, fun k => ?_, ?_, h.faithful, h.count⟩
  · obtain ⟨told, q, hchecks, hdue⟩ := h.checks k
    have hq := h.check hchecks
    refine ⟨told, q, hchecks, hdue, hq, fun tell htell => ?_⟩
    exact hchecks.beyond (.refl hq) fun a => (htell a).beyond (.refl hq)
  · intro k told later earlier hes hlater tell
    apply h.check_idle
    rw [hes]
    exact not_forkedSince_of_looked rfl hlater

def Script.reentrant : Script where
  onStart _ := {}
  onStop _ := {}
  onReset _ := { uses := [.snapshot ⟨7⟩, .state] }

/-- A hook was checked after a fork, when its watcher was gone. It got another one, whose store was not used
since the fork. -/
def Program.belated : Program :=
  let built := (newHook.on ((newAgentOn 0 (.scripted .reentrant)).on (newStore.on (.start 1 false)).2).2).2
  let left := (dropCounter 0).on ((watchHook 0 (.counter 0)).on (newCounter.on built).2).2
  let checked := (checkHook tellAgent 0).on (recordFork.on left.2).2
  ((watchHook 0 (.agent 0)).on checked.2).2

def belatedEvents : List ForkEvent :=
  [.assigned (.alone 0) (.agent 0), .checked (.alone 0) none, .forked, .left (.counter 0),
    .assigned (.alone 0) (.counter 0), .arrived (.counter 0), .built (.hook (.alone 0)),
    .assigned (.store 0) (.agent 0), .built (.boundary (.agent 0)), .arrived (.agent 0),
    .built (.hook (.store 0))]

/-- The store tells its agent once, although the store is used again meanwhile. The hook never tells its new
watcher about the fork. -/
theorem forks_reported_once_belated :
    History belatedEvents belated ∧ Due (.store 0) (.agent 0) belatedEvents ∧
      (∃ q, Checks (.store 0) belated (some (.agent 0)) q) ∧
      Beyond (.checked (.store 0) (some (.agent 0)) :: belatedEvents)
        ((checkStore tellAgent 0).on belated).2 ∧
      (((checkStore tellAgent 0).on belated).2.agents 0).resets = 1 ∧
      (checkHook tellAgent 0).on belated = (.ok (), belated) := by
  have hbuilt := ((History.start 1 false).newStore rfl).newAgent 0 (.scripted .reentrant) rfl
  have hleft := (((hbuilt.newHook rfl).newCounter rfl).watch (.alone 0) (.counter 0)).leave (.counter 0)
  have hchecked := hleft.fork.check (k := .alone 0) (.nobody (fun _ => rfl) rfl)
  have h : History belatedEvents belated := hchecked.watch (.alone 0) (.agent 0)
  obtain ⟨-, hchecks, hidle, -⟩ := forks_reported_once h
  have hdue : Due (.store 0) (.agent 0) belatedEvents := by decide
  obtain ⟨told, q, htold, hiff, -, hbeyond⟩ := hchecks (.store 0)
  cases (hiff (.agent 0)).2 hdue
  refine ⟨h, hdue, ⟨q, htold⟩, hbeyond tellAgent .tellAgent, rfl, ?_⟩
  exact hidle (.alone 0) none [.assigned (.alone 0) (.agent 0)] _ rfl (by decide) tellAgent

end ProfilingAgent
