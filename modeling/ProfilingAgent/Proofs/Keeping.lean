import ProfilingAgent.Proofs.Operations

set_option autoImplicit false

/-!
# What operations keep

Operations change a program by few kinds of steps. What is kept by each kind of step is kept by every
operation, however it ends. A licence says which steps have to be considered: which agents may be
started, which samplers may join, which stores may be used freely, and which agents may do anything.
-/
namespace ProfilingAgent

open Act

structure License where
  start : AgentId → Prop
  join : Sampler → Prop
  use : StoreId → Prop
  act : AgentId → Prop

def License.any : License := ⟨fun _ => True, fun _ => True, fun _ => True, fun _ => True⟩

def Operation.Licensed (l : License) : Operation → Prop
  | newAgent _ sampler => l.join sampler
  | start a _ | reconfigure a _ => l.start a
  | stop a | handleFork a | drop a | state a | tags a => l.act a
  | addTags s _ _ | removeTags s _ _ | clearContext s _ => l.use s
  | _ => True

namespace Program

variable {α β : Type} {l : License} {I : Program → Prop} {tell : AgentId → Act Unit} {p : Program}
  {a b : AgentId} {s : StoreId}

def GoesOn (p : Program) (a : AgentId) (c : Settings) : Prop :=
  (p.agents a).phase = .running ∧ (p.agents a).settings = some c ∧ c.detectSubprocesses = true

/-- Something is kept by each kind of step within a process that a licence permits. Only an agent that
may be started gets the slot, and one that is stopped gives it back. -/
structure StepFrame (l : License) (I : Program → Prop) : Prop where
  starter : ∀ {a}, l.start a → l.act a := by exact fun _ => trivial
  told : ∀ {p a}, I p → (p.agents a).alive = true → l.act a := by exact fun _ _ => trivial
  annotate : ∀ {p} notes, I p → I (p.annotate notes)
  mark : ∀ {p} s, I p → I (p.mark s)
  count : ∀ {p} counters, I p → I (p.count counters)
  granted : ∀ {p a}, l.start a → I p → I (p.give (some a))
  yielded : ∀ {p} a, I p → I (p.yieldSlot a)
  /-- A change of an agent that leaves its phase and its settings. -/
  amend : ∀ {p} a (f : Agent → Agent), l.act a → (∀ x, (f x).sampler = x.sampler ∧
    (f x).settings = x.settings ∧ (f x).phase = x.phase) → I p → I (p.amend a f)
  prepared : ∀ {p a}, l.start a → I p → I (p.amend a fun x => { x with phase := .configured })
  stopped : ∀ {p} a, l.act a → I p → I ((p.amend a fun x => { x with phase := .stopped }).yieldSlot a)
  /-- Any change of an agent that may be started, as long as it gets settings. -/
  adopt : ∀ {p a} (f : Agent → Agent), l.start a →
    (∀ x, (f x).sampler = x.sampler ∧ (f x).settings ≠ none) → I p → I (p.amend a f)
  call : ∀ {p} k, l.act k.agent → (∀ a c g, k = .start a c g → l.start a ∨ p.GoesOn a c) → I p →
    I (p.call k)
  globals : ∀ {p} s tags, I p → I (p.retag s { (p.stores s).tags with globals := tags })
  retag : ∀ {p s} tags, l.use s → I p → I (p.retag s tags)
  uses : ∀ {p a script}, I p → (p.agents a).sampler = .scripted script →
    script.Quiet ∨ ∀ s, l.use s
  install : ∀ {p} installed, I p → I { p with handlerInstalled := installed }
  store : ∀ {p}, I p → I { p with stores := p.stores.push ⟨.empty, ⟨p.generation, none⟩⟩ }
  watched : ∀ {p} s w, I p → I (p.watched s w)
  housed : ∀ {p} s sampler, l.join sampler → I p → I (p.housed s sampler)

structure LocalFrame (l : License) (I : Program → Prop) : Prop extends StepFrame l I where
  give : ∀ {p} slot, I p → I (p.give slot)
  /-- A change of an agent that does not set it running or give it other settings. -/
  alter : ∀ {p} a (f : Agent → Agent), (∀ x, (f x).sampler = x.sampler ∧
    (f x).settings = x.settings ∧ ((f x).phase = .running → x.phase = .running)) → I p →
    I (p.amend a f)
  granted := fun _ hp => give _ hp
  yielded := fun a hp => by
    unfold Program.yieldSlot
    split
    · exact give none hp
    · exact hp
  amend := fun a f _ hf hp => alter a f (fun x => ⟨(hf x).1, (hf x).2.1, fun h => (hf x).2.2 ▸ h⟩) hp
  prepared := fun _ hp => alter _ _ (by simp) hp
  stopped := fun a _ hp => yielded a (alter a _ (by simp) hp)

structure Frame (l : License) (I : Program → Prop) : Prop extends LocalFrame l I where
  fork : ∀ {p} pid n, I p → I { p with pid := pid, generation := n }

def Keeps (I : Program → Prop) (x : Act α) : Prop :=
  ∀ p, I p → Ends x p (fun _ q => I q) fun _ q => I q

namespace Keeps

theorem pure (r : α) : Keeps I (pure r) := fun _ hp => hp

theorem throw (h : Halt) : Keeps I (throw h : Act α) := fun _ hp => hp

theorem agent (a : AgentId) : Keeps I (agent a) := fun _ hp => hp

theorem get : Keeps I (get : Act Program) := fun _ hp => hp

theorem bind {x : Act α} {f : α → Act β} (hx : Keeps I x) (hf : ∀ r, Keeps I (f r)) :
    Keeps I (x >>= f) := by
  intro p hp
  rw [ends_bind]
  exact Ends.mono (hx p hp) (fun r q hq => hf r q hq) fun _ _ h => h

theorem discard {x : Act α} (hx : Keeps I x) : Keeps I (discard x) := by
  intro p hp
  rw [ends_discard]
  exact hx p hp

theorem protect {x : Act α} {after : Act Unit} (hx : Keeps I x) (hafter : Keeps I after) :
    Keeps I (protect x after) := by
  intro p hp
  rw [ends_protect]
  exact Ends.mono (hx p hp) (fun _ q hq => hafter q hq) fun _ q hq => hafter q hq

end Keeps

namespace StepFrame

variable (F : StepFrame l I)

include F

theorem note (e : Log.Event) : Keeps I (note e) := fun _ hp => F.annotate _ hp

theorem configuredTags (c : Settings) : Keeps I (configuredTags c) := fun _ hp => F.annotate _ hp

theorem previousTags (c : Option Settings) : Keeps I (previousTags c) := by
  cases c with
  | none => exact .pure []
  | some c => exact F.configuredTags c

theorem updateAgent {f : Agent → Agent} (ha : l.act a) (hf : ∀ x, (f x).sampler = x.sampler ∧
    (f x).settings = x.settings ∧ (f x).phase = x.phase) :
    Keeps I (updateAgent a f) := fun _ hp => F.amend a f ha hf hp

theorem release : Keeps I (release a) := fun _ hp => F.yielded a hp

theorem claim (ha : l.start a) : Keeps I (claim a) := by
  intro p hp
  rw [ends_claim]
  split
  · exact F.granted ha hp
  · exact hp

theorem stopping {x : Act α} (ha : l.act a) (hx : Keeps I x) : Keeps I (do
    setPhase a .stopped
    Program.release a
    x) := by
  intro p hp
  rw [ends_bind, ends_setPhase, ends_bind, ends_release]
  exact hx _ (F.stopped a ha hp)

theorem locking {x : Act α} (ha : l.act a) (hx : Keeps I x) : Keeps I (locking a x) := by
  have locked : Keeps I (do
      Program.updateAgent a fun x => { x with locked := true }
      ProfilingAgent.protect x (Program.updateAgent a fun x => { x with locked := false })) :=
    .bind (F.updateAgent ha (by simp)) fun _ => .protect hx (F.updateAgent ha (by simp))
  unfold Program.locking
  refine .bind (.agent a) fun x => ?_
  split
  · exact .bind (.throw _) fun _ => locked
  · exact locked

section Telling

variable (htell : ∀ a, l.act a → Keeps I (tell a))

include htell

theorem inform (w : Watcher) : Keeps I (inform tell w) := by
  cases w with
  | agent a =>
    intro p hp
    simp only [Program.inform, ends_bind, ends_get]
    split
    · exact htell a (F.told hp ‹_›) p hp
    · exact hp
  | counter c =>
    intro p hp
    unfold Program.inform
    rw [ends_modify]
    dsimp only
    split
    · exact F.count _ hp
    · exact hp

theorem checkStore (s : StoreId) : Keeps I (checkStore tell s) := by
  intro p hp
  unfold Program.checkStore
  simp only [ends_bind, ends_get]
  split
  · rw [ends_bind]
    change Ends _ (p.mark s) _ _
    have hmark := F.mark s hp
    cases (p.stores s).hook.watcher with
    | none => exact hmark
    | some w => exact F.inform htell w _ hmark
  · exact hp

theorem revise {use : TagStore → Except TagError TagStore}
    (huse : ∀ p tags, I p → use (p.stores s).tags = .ok tags → I (p.retag s tags)) :
    Keeps I (revise tell s use) := by
  refine .bind (F.checkStore htell s) fun _ p hp => ?_
  simp only [ends_bind, ends_store]
  cases hr : use (p.stores s).tags with
  | error e => exact hp
  | ok tags => exact huse p tags hp hr

theorem exchange (old new : List Tag) : Keeps I (replaceGlobalsWith tell s old new) := by
  refine F.revise htell fun p tags hp hr => ?_
  unfold TagStore.replaceGlobals at hr
  split at hr
  · cases hr
  · cases hr
    exact F.globals s _ hp

theorem addGlobal (t : Tag) : Keeps I (addGlobalWith tell s t) := by
  refine F.revise htell fun p tags hp hr => ?_
  unfold TagStore.addGlobal at hr
  split at hr
  · cases hr
  · cases hr
    exact F.globals s _ hp

theorem removeGlobal (t : Tag) : Keeps I (removeGlobalWith tell s t) :=
  .bind (F.checkStore htell s) fun _ _ hp => F.globals s _ hp

theorem snapshot (c : ContextId) : Keeps I (snapshotWith tell s c) :=
  .bind (F.checkStore htell s) fun _ _ hp => hp

theorem addTags (hs : l.use s) (c : ContextId) (tags : List Tag) :
    Keeps I (addTagsWith tell s c tags) := by
  refine .bind (F.revise htell fun _ _ hp _ => F.retag _ hs hp) fun r => ?_
  cases r with
  | error e => exact .pure _
  | ok _ =>
    dsimp only
    split
    · exact .bind (F.note _) fun _ => .pure _
    · exact .pure _

theorem removeTags (hs : l.use s) (c : ContextId) (tags : List Tag) :
    Keeps I (removeTagsWith tell s c tags) := by
  refine .bind (F.checkStore htell s) fun _ p hp => ?_
  simp only [ends_bind, ends_store, ends_setTags]
  have hleft := F.retag ((p.stores s).tags.removeTags c tags).1 hs hp
  split
  · exact F.annotate _ hleft
  · exact hleft

theorem clearContext (hs : l.use s) (c : ContextId) : Keeps I (clearContextWith tell s c) :=
  .bind (F.checkStore htell s) fun _ _ hp => F.retag _ hs hp

theorem useOnce (ha : l.act a) (u : Use) (hu : u = .state ∨ l.use s) : Keeps I (useOnce tell a s u) := by
  have hs : u ≠ .state → l.use s := fun h => hu.resolve_left h
  cases u with
  | addTags c tags => exact .discard (F.addTags htell (hs (by simp)) c tags)
  | removeTags c tags => exact .discard (F.removeTags htell (hs (by simp)) c tags)
  | addGlobal t => exact .discard (F.addGlobal htell t)
  | removeGlobal t => exact .discard (F.removeGlobal htell t)
  | replaceGlobals old new => exact .discard (F.exchange htell old new)
  | snapshot c => exact .discard (F.snapshot htell c)
  | clearContext c => exact .discard (F.clearContext htell (hs (by simp)) c)
  | state => exact htell a ha

theorem useAll (ha : l.act a) (us : List Use) (hus : ∀ u ∈ us, u = .state ∨ l.use s) :
    Keeps I (useAll tell a s us) := by
  induction us with
  | nil => exact .pure ()
  | cons u us ih =>
    exact .bind (F.useOnce htell ha u (hus u List.mem_cons_self)) fun _ =>
      ih fun v hv => hus v (List.mem_cons_of_mem u hv)

theorem carryOut (ha : l.act a) (r : Reply) (hr : (∀ u ∈ r.uses, u = .state) ∨ ∀ s, l.use s) :
    Keeps I (carryOut tell a r) := by
  refine .bind (.agent a) fun x => .bind (F.useAll htell ha r.uses fun u hu => ?_) fun _ => ?_
  · exact hr.imp (fun h => h u hu) fun h => h _
  · cases r.ending with
    | succeeds => exact .pure true
    | fails => exact .pure false
    | panics message => exact .throw _

theorem answered {f : Agent → Agent} {k : SamplerCall} {r : Reply} (ha : l.act a) (hka : k.agent = a)
    (hp : I p)
    (hf : ∀ x, (f x).sampler = x.sampler ∧ (f x).settings = x.settings ∧ (f x).phase = x.phase)
    (hk : ∀ a c g, k = .start a c g → l.start a ∨ p.GoesOn a c)
    (hr : (∀ u ∈ r.uses, u = .state) ∨ ∀ s, l.use s) :
    Ends (Program.carryOut tell a r) ((p.amend a f).call k) (fun _ q => I q) fun _ q => I q := by
  refine F.carryOut htell ha r hr _ (F.call k (hka ▸ ha) (fun b c g hkb => (hk b c g hkb).imp_right ?_)
    (F.amend a f ha hf hp))
  intro hgo
  unfold GoesOn
  rw [amend_field p a b f Agent.phase (hf _).2.2, amend_field p a b f Agent.settings (hf _).2.1]
  exact hgo

theorem callStart {c : Settings} (hact : l.act a) (hp : I p) (ha : l.start a ∨ p.GoesOn a c) :
    Ends (callStart tell a c) p (fun _ q => I q) fun _ q => I q := by
  unfold Program.callStart
  rw [ends_bind, ends_agent]
  cases hs : (p.agents a).sampler with
  | idle => exact F.annotate _ hp
  | scripted script =>
    simp only [ends_bind, ends_updateAgent, ends_globals, ends_record]
    refine F.answered htell hact rfl hp (by simp) ?_ ((F.uses hp hs).imp_left fun h => (h _).1)
    rintro b d g ⟨rfl, rfl, rfl⟩
    exact ha

theorem callStop (ha : l.act a) : Keeps I (callStop tell a) := by
  intro p hp
  unfold Program.callStop
  rw [ends_bind, ends_agent]
  cases hs : (p.agents a).sampler with
  | idle => exact hp
  | scripted script =>
    simp only [ends_bind, ends_updateAgent, ends_globals, ends_record]
    exact F.answered htell ha rfl hp (by simp) (by simp) ((F.uses hp hs).imp_left fun h => (h _).2.1)

theorem callReset (ha : l.act a) : Keeps I (callReset tell a) := by
  intro p hp
  unfold Program.callReset
  rw [ends_bind, ends_agent]
  cases hs : (p.agents a).sampler with
  | idle => exact hp
  | scripted script =>
    simp only [ends_bind, ends_updateAgent, ends_record, ends_discard]
    exact F.answered htell ha rfl hp (by simp) (by simp) ((F.uses hp hs).imp_left fun h => (h _).2.2)

theorem retire (ha : l.act a) : Keeps I (retire tell a) := by
  have last : Keeps I (do setPhase a .stopped; Program.release a) := F.stopping ha (.pure ())
  refine .bind (.agent a) fun x => ?_
  cases x.settings with
  | none => exact last
  | some c =>
    refine .bind (F.configuredTags c) fun old => .bind (F.exchange htell old []) fun r => ?_
    cases r with
    | ok _ => exact last
    | error e => exact .bind (F.note _) fun _ => last

theorem carryOn (ha : l.act a) : Keeps I (carryOn tell a) := by
  intro p hp
  unfold Program.carryOn
  rw [ends_bind, ends_agent]
  by_cases hrun : (p.agents a).phase = .running
  · rw [if_neg (by simpa using hrun)]
    cases hc : (p.agents a).settings with
    | none => exact hp
    | some c =>
      dsimp only
      cases hdetect : c.detectSubprocesses with
      | true =>
        simp only [ForkAction.decide, if_true, ends_bind]
        refine Ends.mono (F.callStart htell ha hp (.inr ⟨hrun, hc, hdetect⟩)) ?_ fun _ _ h => h
        intro b q hq
        cases b with
        | true => exact F.annotate _ hq
        | false => exact (Keeps.bind (F.note _) fun _ => .bind (F.retire htell ha) fun _ => .pure _) q hq
      | false =>
        simp only [ForkAction.decide, Bool.false_eq_true, if_false]
        exact (Keeps.bind (F.note _) fun _ => .bind (F.retire htell ha) fun _ => .pure _) p hp
  · rw [if_pos hrun]
    exact F.annotate _ hp

theorem decideFork (ha : l.act a) : Keeps I (decideFork tell a) :=
  .bind (F.callReset htell ha) fun _ => F.carryOn htell ha

theorem applyFork (ha : l.act a) : Keeps I (applyFork tell a) := by
  have notices : Keeps I (noticed a) := by
    intro p hp
    unfold noticed
    rw [ends_bind, ends_get]
    split
    · exact hp
    · exact F.annotate _ (F.amend a _ ha (by simp) hp)
  refine .bind notices fun r => ?_
  cases r with
  | true => exact F.locking ha (F.decideFork htell ha)
  | false => exact .pure none

end Telling

theorem settle (n : Nat) (a : AgentId) (ha : l.act a) : Keeps I (settle n a) := by
  induction n generalizing a with
  | zero => exact .throw _
  | succ n ih => exact F.applyFork (fun b hb => .discard (ih b hb)) ha

theorem handleFork (a : AgentId) (ha : l.act a) : Keeps I (handleFork a) := F.settle tellingDepth a ha

theorem tellAgent (a : AgentId) (ha : l.act a) : Keeps I (tellAgent a) := .discard (F.handleFork a ha)

theorem calledStart (ha : l.start a) (c : Settings) : Keeps I (Program.callStart Program.tellAgent a c) :=
  fun _ hp => F.callStart F.tellAgent (F.starter ha) hp (.inl ha)

theorem adopts {f : Agent → Agent} (ha : l.start a)
    (hf : ∀ x, (f x).sampler = x.sampler ∧ (f x).settings ≠ none) :
    Keeps I (Program.updateAgent a f) := fun _ hp => F.adopt f ha hf hp

theorem launch (ha : l.start a) (c : Settings) : Keeps I (launch a c) := by
  refine .bind (F.note _) fun _ => .bind (.agent a) fun x => .bind (F.configuredTags c) fun initial =>
    .bind (F.exchange F.tellAgent [] initial) fun r => ?_
  cases r with
  | error e => exact .pure _
  | ok _ =>
    refine .bind (F.calledStart ha c) fun started => ?_
    cases started with
    | true => exact .bind (F.note _) fun _ => .bind (F.adopts ha (by simp)) fun _ => .pure _
    | false =>
      refine .bind (F.exchange F.tellAgent initial []) fun r => ?_
      cases r with
      | error e => exact .pure _
      | ok _ => exact .bind F.release fun _ => .bind (F.note _) fun _ => .pure _

theorem startFrom (ha : l.start a) (phase : Phase) (c : Settings) : Keeps I (startFrom a phase c) := by
  refine .bind (F.claim ha) fun claimed => ?_
  cases claimed with
  | false => exact .pure _
  | true =>
    change Keeps I (if phase = .fresh then _ else _)
    split
    · exact .bind (fun _ hp => F.prepared ha hp) fun _ => F.launch ha c
    · exact F.launch ha c

theorem relaunch (ha : l.start a) (old : List Tag) (c : Settings) : Keeps I (relaunch a s old c) := by
  refine .bind (F.configuredTags c) fun new => .bind (F.exchange F.tellAgent old new) fun r => ?_
  cases r with
  | error e => exact .pure _
  | ok _ =>
    refine .bind (F.calledStart ha c) fun started => ?_
    cases started with
    | true => exact .bind (F.adopts ha (by simp)) fun _ => .bind (F.note _) fun _ => .pure _
    | false =>
      refine .bind (F.exchange F.tellAgent new []) fun r => ?_
      cases r with
      | error e => exact .pure _
      | ok _ => exact F.stopping (F.starter ha) (.bind (F.note _) fun _ => .pure _)

theorem swap (ha : l.start a) (c : Settings) : Keeps I (swap a c) := by
  refine .bind (.agent a) fun x => .bind (F.callStop F.tellAgent (F.starter ha)) fun flushed => ?_
  have last : Keeps I (do
      let old ← Program.previousTags x.settings
      Program.relaunch a x.store old c) :=
    .bind (F.previousTags x.settings) fun old => F.relaunch ha old c
  cases flushed with
  | true => exact last
  | false => exact .bind (F.note _) fun _ => last

theorem startAgent (ha : l.start a) (c : Settings) : Keeps I (startAgent a c) := by
  refine .bind (F.tellAgent a (F.starter ha)) fun _ =>
    F.locking (F.starter ha) (.bind (.agent a) fun x => ?_)
  split
  · split
    · exact .bind (F.note _) fun _ => .pure _
    · exact F.swap ha c
  · exact F.startFrom ha x.phase c

theorem stopAgent (ha : l.act a) : Keeps I (stopAgent a) := by
  refine .bind (F.tellAgent a ha) fun _ => F.locking ha (.bind (.agent a) fun x => ?_)
  cases x.phase with
  | running =>
    refine .bind (F.callStop F.tellAgent ha) fun flushed => .bind (F.retire F.tellAgent ha) fun _ => ?_
    cases flushed with
    | true => exact .bind (F.note _) fun _ => .pure _
    | false => exact .pure _
  | stopped => exact .bind (F.note _) fun _ => .pure _
  | fresh => exact .pure _
  | configured => exact .pure _

theorem dropAgent (ha : l.act a) : Keeps I (dropAgent a) := by
  refine .protect (.bind (.agent a) fun x => ?_) (F.updateAgent ha (by simp))
  split
  · refine .bind (F.stopAgent ha) fun r => ?_
    cases r with
    | ok _ => exact F.release
    | error e => exact .bind (F.note _) fun _ => F.release
  · exact F.release

theorem newAgentOn {sampler : Sampler} (h : l.join sampler) (s : StoreId) :
    Keeps I (newAgentOn s sampler) := by
  intro p hp
  unfold Program.newAgentOn Program.install
  simp only [ends_bind, ends_discard, ends_get]
  split
  · rw [ends_bind, ends_modify, ends_bind, ends_say]
    exact F.housed s sampler h (F.annotate _ (F.install true hp))
  · exact F.housed s sampler h hp

end StepFrame

end Program

/-- The process does not fork. -/
def Operation.Local : Operation → Prop
  | fork | child => False
  | _ => True

theorem Program.StepFrame.operation {l : License} {I : Program → Prop} (F : StepFrame l I)
    (op : Operation) (h : op.Licensed l) (hlocal : op.Local) : Keeps I op.perform := by
  cases op with
  | newStore => exact fun _ hp => F.store hp
  | newAgent s sampler => exact .discard (F.newAgentOn h s)
  | start a c => exact .discard (F.startAgent h c)
  | reconfigure a c => exact .discard (.bind (F.note _) fun _ => F.startAgent h c)
  | stop a => exact .discard (F.stopAgent h)
  | handleFork a => exact .discard (F.handleFork a h)
  | drop a => exact F.dropAgent h
  | state a => exact .discard (.bind (F.tellAgent a h) fun _ => .bind (.agent a) fun _ => .pure _)
  | tags a => exact .discard (.bind (F.tellAgent a h) fun _ => .bind (.agent a) fun _ => .pure _)
  | fork => exact hlocal.elim
  | child => exact hlocal.elim
  | watch s c => exact fun _ hp => F.watched s _ hp
  | addTags s c tags => exact .discard (F.addTags F.tellAgent h c tags)
  | removeTags s c tags => exact .discard (F.removeTags F.tellAgent h c tags)
  | addGlobal s t => exact .discard (F.addGlobal F.tellAgent t)
  | removeGlobal s t => exact .discard (F.removeGlobal F.tellAgent t)
  | replaceGlobals s old new => exact .discard (F.exchange F.tellAgent old new)
  | snapshot s c => exact .discard (F.snapshot F.tellAgent c)
  | clearContext s c => exact .discard (F.clearContext F.tellAgent h c)

theorem Program.Frame.operation {l : License} {I : Program → Prop} (F : Frame l I) (op : Operation)
    (h : op.Licensed l) : Keeps I op.perform := by
  cases op with
  | fork => exact fun _ hp => F.fork _ _ hp
  | child => exact fun _ hp => F.fork _ _ hp
  | _ => exact F.toStepFrame.operation _ h trivial

namespace Program

inductive Leads (ok : Operation → Prop) (p : Program) : Program → Prop
  | refl : Leads ok p p
  | step {q : Program} (h : Leads ok p q) (op : Operation) (hop : ok op) : Leads ok p (op.after q)

theorem Frame.leads {l : License} {I : Program → Prop} (F : Frame l I) {p q : Program} (hp : I p)
    (h : Leads (·.Licensed l) p q) : I q := by
  induction h with
  | refl => exact hp
  | step _ op hop ih => exact (F.operation op hop _ ih).left

end Program
end ProfilingAgent
