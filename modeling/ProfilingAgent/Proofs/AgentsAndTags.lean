import ProfilingAgent.Program.HostAgent
import ProfilingAgent.Proofs.StoresAside

set_option autoImplicit false

namespace ProfilingAgent

open Act Program

def Sampler.Quiet (sampler : Sampler) : Prop := ∀ script, sampler = .scripted script → script.Quiet

def License.abstaining : License := 
  ⟨fun _ => True, Sampler.Quiet, fun _ => False, fun _ => True⟩

namespace Program

variable {α β : Type} {l : License} {I : Program → Prop} {p p' q q' : Program} {s : StoreId}

def SameContexts (p q : Program) : Prop :=
  ∀ s, (∀ c, (q.stores s).tags.contexts.tagsOf c = (p.stores s).tags.contexts.tagsOf c) ∧
    (q.stores s).tags.contextCount = (p.stores s).tags.contextCount

def SamePlace (p q : Program) : Prop :=
  q.threads = p.threads ∧ q.thread = p.thread ∧ q.nextContext = p.nextContext

/-- The tags of contexts and the threads are as they were, no fork has become pending, and no sampler
uses a store. -/
structure Apart (p q : Program) : Prop where
  contexts : ∀ s, (q.stores s).tags.contexts = (p.stores s).tags.contexts
  place : SamePlace p q
  aware : (∀ s, p.Aware s) → ∀ s, q.Aware s
  quiet : q.Quiet

namespace Apart

theorem refl (hp : p.Quiet) : Apart p p := ⟨fun _ => rfl, ⟨rfl, rfl, rfl⟩, id, hp⟩

theorem sameContexts (h : Apart p q) : SameContexts p q := fun s =>
  ⟨fun c => by rw [h.contexts], by rw [TagStore.contextCount, h.contexts]; rfl⟩

theorem congr (h : Apart p q) (hstores : ∀ s, (q'.stores s).tags.contexts = (q.stores s).tags.contexts)
    (hplace : SamePlace q q') (haware : ∀ s, q.Aware s → q'.Aware s)
    (hsampler : ∀ b, (q'.agents b).sampler = (q.agents b).sampler) : Apart p q' where
  contexts t := (hstores t).trans (h.contexts t)
  place := ⟨hplace.1.trans h.place.1, hplace.2.1.trans h.place.2.1, hplace.2.2.trans h.place.2.2⟩
  aware hp t := haware t (h.aware hp t)
  quiet := by
    unfold Quiet
    simp only [hsampler]
    exact h.quiet

end Apart

theorem apart_frame (p : Program) : LocalFrame .abstaining (Apart p) where
  annotate _ h := h.congr (fun _ => rfl) ⟨rfl, rfl, rfl⟩ (fun _ => id) fun _ => rfl
  mark s h := by
    refine h.congr (fun t => ?_) ⟨rfl, rfl, rfl⟩ (fun t ht => ?_) fun _ => rfl
    · by_cases hs : t = s <;> simp [hs]
    · unfold Aware at ht ⊢
      by_cases hs : t = s
      · simp [hs]
      · simpa [hs] using ht
  count _ h := h.congr (fun _ => rfl) ⟨rfl, rfl, rfl⟩ (fun _ => id) fun _ => rfl
  give _ h := h.congr (fun _ => rfl) ⟨rfl, rfl, rfl⟩ (fun _ => id) fun _ => rfl
  alter a f hf h := h.congr (fun _ => rfl) ⟨rfl, rfl, rfl⟩ (fun _ => id) fun b =>
    amend_field _ a b f Agent.sampler (hf _).1
  adopt f _ hf h := h.congr (fun _ => rfl) ⟨rfl, rfl, rfl⟩ (fun _ => id) fun b =>
    amend_field _ _ b f Agent.sampler (hf _).1
  call _ _ _ h := h.congr (fun _ => rfl) ⟨rfl, rfl, rfl⟩ (fun _ => id) fun _ => rfl
  globals {q} s tags h := by
    have hr := Retagged.retag q s { (q.stores s).tags with globals := tags }
    refine h.congr (fun t => ?_) ⟨rfl, rfl, rfl⟩ (fun t => hr.aware.2) fun _ => rfl
    by_cases hs : t = s <;> simp [hs]
  retag _ hs _ := hs.elim
  uses h hs := .inl (h.quiet _ _ hs)
  install _ h := h.congr (fun _ => rfl) ⟨rfl, rfl, rfl⟩ (fun _ => id) fun _ => rfl
  store {q} h := by
    refine h.congr (fun t => ?_) ⟨rfl, rfl, rfl⟩ (fun t ht => ?_) fun _ => rfl
    · dsimp only
      rw [Table.push_row]
      by_cases hs : t = q.stores.size
      · rw [if_pos hs, hs, Table.row_size]
        rfl
      · rw [if_neg hs]
    · unfold Aware at ht ⊢
      dsimp only
      rw [Table.push_row]
      by_cases hs : t = q.stores.size
      · rw [if_pos hs]
      · rw [if_neg hs]
        exact ht
  watched s w h := by
    refine h.congr (fun t => ?_) ⟨rfl, rfl, rfl⟩ (fun t ht => ?_) fun _ => rfl
    · by_cases hs : t = s <;> simp [hs]
    · unfold Aware at ht ⊢
      by_cases hs : t = s
      · simpa [hs] using ht
      · simpa [hs] using ht
  housed {q} s sampler hjoin h := by
    refine ⟨fun t => ?_, h.place, fun hp t => ?_, fun b script hb => ?_⟩
    · rw [← h.contexts, housed_stores]
      by_cases hs : t = s <;> simp [hs]
    · have ht := h.aware hp t
      unfold Aware at ht ⊢
      rw [housed_stores]
      by_cases hs : t = s
      · rw [if_pos hs]
        exact hs ▸ ht
      · rw [if_neg hs]
        exact ht
    · by_cases hnew : b = q.agents.size
      · rw [hnew, housed_new] at hb
        exact hjoin script hb
      · rw [housed_old hnew] at hb
        exact h.quiet b script hb

namespace StepFrame

variable (F : StepFrame l I)

include F

theorem newAgent {sampler : Sampler} (h : l.join sampler) : Keeps I (newAgent sampler) :=
  .bind (fun _ hp => F.store hp) fun s => F.newAgentOn h s

theorem state (a : AgentId) (ha : l.act a) : Keeps I (state a) :=
  .bind (F.tellAgent a ha) fun _ => .bind (.agent a) fun _ => .pure _

theorem storeOf (a : AgentId) (ha : l.act a) : Keeps I (storeOf a) :=
  .bind (F.tellAgent a ha) fun _ => .bind (.agent a) fun _ => .pure _

theorem registerSampler {sampler : Sampler} (hact : ∀ a, l.act a) (hidle : l.join .idle)
    (h : l.join sampler)
    (hhost : ∀ {p} host, I p → I { p with hostAgent := host }) : Keeps I (registerSampler sampler) := by
  have hosted : Keeps I hosted := by
    refine .bind .get fun p => ?_
    cases p.hostAgent with
    | some a => exact .pure a
    | none => exact .bind (F.newAgent hidle) fun a => .bind (fun _ hp => hhost _ hp) fun _ => .pure a
  refine .bind hosted fun current => .bind (F.state current (hact _)) fun phase => ?_
  split
  · exact .pure _
  · exact .bind (F.storeOf current (hact _)) fun s => .bind (F.newAgentOn h s) fun a =>
      .bind (fun _ hp => hhost _ hp) fun _ => .bind (F.dropAgent (hact _)) fun _ =>
        .bind (F.note _) fun _ => .pure _

end StepFrame

structure Alongside (p q : Program) : Prop where
  contexts : ∀ s, (q.stores s).tags.contexts = (p.stores s).tags.contexts
  place : SamePlace p q
  aware : (∀ s, p.Aware s) ∧ ∀ s, q.Aware s
  quiet : p.Quiet ∧ q.Quiet

namespace Alongside

theorem left (h : Alongside p q) (hp : Apart p p') : Alongside p' q where
  contexts s := (h.contexts s).trans (hp.contexts s).symm
  place := ⟨h.place.1.trans hp.place.1.symm, h.place.2.1.trans hp.place.2.1.symm,
    h.place.2.2.trans hp.place.2.2.symm⟩
  aware := ⟨hp.aware h.aware.1, h.aware.2⟩
  quiet := ⟨hp.quiet, h.quiet.2⟩

theorem right (h : Alongside p q) (hq : Apart q q') : Alongside p q' where
  contexts s := (hq.contexts s).trans (h.contexts s)
  place := ⟨hq.place.1.trans h.place.1, hq.place.2.1.trans h.place.2.1, hq.place.2.2.trans h.place.2.2⟩
  aware := ⟨h.aware.1, hq.aware h.aware.2⟩
  quiet := ⟨h.quiet.1, hq.quiet⟩

end Alongside

def InStep (x : Act α) : Prop :=
  ∀ p q, Alongside p q → ∃ r p' q', x.on p = (.ok r, p') ∧ x.on q = (.ok r, q') ∧ Alongside p' q'

namespace InStep

theorem pure (r : α) : InStep (pure r : Act α) := fun p q h => ⟨r, p, q, rfl, rfl, h⟩

theorem bind {x : Act α} {f : α → Act β} (hx : InStep x) (hf : ∀ r, InStep (f r)) :
    InStep (x >>= f) := by
  intro p q h
  obtain ⟨r, p', q', hp, hq, h'⟩ := hx p q h
  obtain ⟨r', p'', q'', hp', hq', h''⟩ := hf r p' q' h'
  exact ⟨r', p'', q'', by rw [on_bind, hp]; exact hp', by rw [on_bind, hq]; exact hq', h''⟩

theorem discard {x : Act α} (hx : InStep x) : InStep (discard x) := by
  intro p q h
  obtain ⟨r, p', q', hp, hq, h'⟩ := hx p q h
  exact ⟨(), p', q', by rw [on_discard, hp], by rw [on_discard, hq], h'⟩

theorem modify {f : Program → Program} (hf : ∀ p q, Alongside p q → Alongside (f p) (f q)) :
    InStep (modify f) := fun p q h => ⟨(), f p, f q, rfl, rfl, hf p q h⟩

theorem note (e : Log.Event) : InStep (note e) :=
  modify fun _ _ h => ⟨h.contexts, h.place, h.aware, h.quiet⟩

theorem of_yields {x : Act α} (f : ContextTags → α × ContextTags)
    (hkeeps : ∀ p, Keeps (SamePlace p) x)
    (hx : ∀ p, p.Aware s → ∃ tags, Yields x p s (f (p.stores s).tags.contexts).1 tags ∧
      tags.contexts = (f (p.stores s).tags.contexts).2) : InStep x := by
  intro p q h
  obtain ⟨tags, ⟨p', hp, hp'⟩, htags⟩ := hx p (h.aware.1 s)
  obtain ⟨tags', ⟨q', hq, hq'⟩, htags'⟩ := hx q (h.aware.2 s)
  have hplace : SamePlace p p' := (ends_of_on hp).1 (hkeeps p p ⟨rfl, rfl, rfl⟩)
  have hplace' : SamePlace q q' := (ends_of_on hq).1 (hkeeps q q ⟨rfl, rfl, rfl⟩)
  rw [h.contexts] at hq htags'
  refine ⟨_, p', q', hp, hq, fun t => ?_, ?_, ⟨fun t => hp'.aware.2 (h.aware.1 t), fun t =>
    hq'.aware.2 (h.aware.2 t)⟩, ?_, ?_⟩
  · by_cases ht : t = s
    · rw [ht, hp'.tags, hq'.tags, htags, htags']
    · rw [hp'.others t ht, hq'.others t ht, h.contexts]
  · exact ⟨(hplace'.1.trans h.place.1).trans hplace.1.symm,
      (hplace'.2.1.trans h.place.2.1).trans hplace.2.1.symm,
      (hplace'.2.2.trans h.place.2.2).trans hplace.2.2.symm⟩
  · unfold Quiet
    rw [hp'.same.agents]
    exact h.quiet.1
  · unfold Quiet
    rw [hq'.same.agents]
    exact h.quiet.2

theorem addTags (s : StoreId) (c : ContextId) (tags : List Tag) : InStep (addTags s c tags) := by
  refine of_yields (s := s) (fun contexts =>
    let tried := attempted ⟨[], contexts⟩ (TagStore.addTags ⟨[], contexts⟩ c tags)
    (tried.1, tried.2.contexts)) (fun p => (placed_frame p).addTags (placed_frame p).tellAgent trivial c tags) ?_
  intro p hp
  have hsame : (attempted (p.stores s).tags ((p.stores s).tags.addTags c tags)).1 =
      (attempted ⟨[], (p.stores s).tags.contexts⟩
        (TagStore.addTags ⟨[], (p.stores s).tags.contexts⟩ c tags)).1 ∧
      (attempted (p.stores s).tags ((p.stores s).tags.addTags c tags)).2.contexts =
      (attempted ⟨[], (p.stores s).tags.contexts⟩
        (TagStore.addTags ⟨[], (p.stores s).tags.contexts⟩ c tags)).2.contexts := by
    unfold TagStore.addTags
    cases Tag.checkAll tags with
    | error e => exact ⟨rfl, rfl⟩
    | ok _ =>
      dsimp only
      split <;> exact ⟨rfl, rfl⟩
  exact ⟨_, hsame.1 ▸ addTags_yields hp c tags, hsame.2⟩

theorem removeTags (s : StoreId) (c : ContextId) (tags : List Tag) : InStep (removeTags s c tags) :=
  of_yields (s := s) (fun contexts =>
    let removed := TagStore.removeTags ⟨[], contexts⟩ c tags
    (removed.2, removed.1.contexts))
    (fun p => (placed_frame p).removeTags (placed_frame p).tellAgent trivial c tags)
    fun _ hp => ⟨_, removeTags_yields hp c tags, rfl⟩

theorem clearContext (s : StoreId) (c : ContextId) : InStep (clearContext s c) :=
  of_yields (s := s) (fun contexts =>
    let cleared := TagStore.clearContext ⟨[], contexts⟩ c
    (cleared.2, cleared.1.contexts))
    (fun p => (placed_frame p).clearContext (placed_frame p).tellAgent trivial c)
    fun _ hp => ⟨_, clearContext_yields hp c, rfl⟩

theorem issueContext : InStep issueContext := by
  intro p q h
  refine ⟨⟨UInt64.ofNat p.nextContext⟩, { p with nextContext := p.nextContext + 1 },
    { q with nextContext := q.nextContext + 1 }, rfl, by rw [← h.place.2.2]; rfl, h.contexts, ?_,
    h.aware, h.quiet⟩
  exact ⟨h.place.1, h.place.2.1, congrArg (· + 1) h.place.2.2⟩

theorem updateThread (f : Thread → Thread) : InStep (updateThread f) := by
  refine modify fun p q h => ⟨h.contexts, ⟨?_, h.place.2⟩, h.aware, h.quiet⟩
  change q.threads.update q.thread f = p.threads.update p.thread f
  rw [h.place.1, h.place.2.1]

theorem threadContext : InStep threadContext := by
  intro p q h
  have hget : ∀ p : Program, (get : Act Program).on p = (.ok p, p) := fun _ => rfl
  unfold Program.threadContext
  rw [on_bind, hget, on_bind, hget]
  dsimp only
  rw [h.place.1, h.place.2.1]
  cases (p.threads p.thread).own with
  | some c => exact pure c p q h
  | none => exact bind issueContext (fun c => bind (updateThread _) fun _ => pure c) p q h

theorem taskContext : InStep taskContext := by
  intro p q h
  have hget : ∀ p : Program, (get : Act Program).on p = (.ok p, p) := fun _ => rfl
  unfold Program.taskContext
  rw [on_bind, hget, on_bind, hget]
  dsimp only
  rw [h.place.1, h.place.2.1]
  cases (p.threads p.thread).task with
  | some c => exact pure c p q h
  | none => exact threadContext p q h

theorem currentContext (provider : Provider) : InStep (currentContext provider) := by
  cases provider with
  | fixed c => exact pure c
  | thread => exact threadContext
  | task => exact taskContext

theorem enter (s : StoreId) (provider : Provider) (tags : List Tag) : InStep (enter s provider tags) := by
  refine bind (currentContext provider) fun c => bind (addTags s c tags) fun r => ?_
  cases r with
  | error e => exact pure _
  | ok _ => exact bind (note _) fun _ => pure _

theorem exit (x : Scope) : InStep (exit x) :=
  bind (discard (removeTags x.store x.context x.tags)) fun _ => note _

end InStep

end Program

inductive Move
  | operate (op : Operation)
  | register (sampler : Sampler)
  | enter (s : StoreId) (provider : Provider) (tags : List Tag)
  | exit (x : Scope)
  | turn (threads : Table Thread) (thread : ThreadId) (next : Nat)

def Operation.onAgents : Operation → Bool
  | newAgent .. | start .. | reconfigure .. | stop _ | handleFork _ | drop _ | state _ | tags _ => true
  | _ => false

namespace Move

def perform : Move → Act Unit
  | operate op => op.perform
  | register sampler => discard (registerSampler sampler)
  | enter s provider tags => discard (Program.enter s provider tags)
  | exit x => Program.exit x
  | turn threads thread next =>
    modify fun p => { p with threads := threads, thread := thread, nextContext := next }

def after (m : Move) (p : Program) : Program := (m.perform.on p).2

def onAgents : Move → Bool
  | operate op => op.onAgents
  | register _ => true
  | _ => false

def Local : Move → Prop
  | operate op => op.Local
  | _ => True

def Quiet : Move → Prop
  | operate (.newAgent _ sampler) => sampler.Quiet
  | register sampler => sampler.Quiet
  | _ => True

theorem Quiet.licensed {op : Operation} (h : (operate op).Quiet) (hon : op.onAgents = true) :
    op.Licensed .abstaining := by
  cases op with
  | newAgent s sampler => exact h
  | start a c => trivial
  | reconfigure a c => trivial
  | addTags s c tags => cases hon
  | removeTags s c tags => cases hon
  | clearContext s c => cases hon
  | _ => trivial

theorem apart_of_onAgents {m : Move} {p : Program} (hp : p.Quiet) (hm : m.Quiet)
    (hon : m.onAgents = true) : Apart p (m.after p) := by
  cases m with
  | operate op =>
    have hlocal : op.Local := by cases op <;> trivial
    exact ((apart_frame p).operation op (hm.licensed hon) hlocal p (.refl hp)).left
  | register sampler =>
    have hidle : Sampler.Quiet .idle := fun _ h => by cases h
    have hkeeps := (apart_frame p).registerSampler (fun _ => trivial) hidle hm fun _ h =>
      h.congr (fun _ => rfl) ⟨rfl, rfl, rfl⟩ (fun _ => id) fun _ => rfl
    exact (Keeps.discard hkeeps p (.refl hp)).left
  | enter s provider tags => cases hon
  | exit x => cases hon
  | turn threads thread next => cases hon

end Move

theorem Move.alongside {m : Move} {p q : Program} (h : Alongside p q) (hlocal : m.Local)
    (hquiet : m.Quiet) (hon : m.onAgents = false) : Alongside (m.after p) (m.after q) := by
  have inStep : InStep m.perform → Alongside (m.after p) (m.after q) := by
    intro hm
    obtain ⟨r, p', q', hp, hq, h'⟩ := hm p q h
    unfold after
    rw [hp, hq]
    exact h'
  cases m with
  | operate op =>
    have aside : op.Licensed .abstaining → Alongside ((operate op).after p) ((operate op).after q) :=
      fun hlicensed =>
        (h.left ((apart_frame p).operation op hlicensed hlocal p (.refl h.quiet.1)).left).right
          ((apart_frame q).operation op hlicensed hlocal q (.refl h.quiet.2)).left
    cases op with
    | addTags s c tags => exact inStep (InStep.addTags s c tags).discard
    | removeTags s c tags => exact inStep (InStep.removeTags s c tags).discard
    | clearContext s c => exact inStep (InStep.clearContext s c).discard
    | newAgent s sampler => exact aside hquiet
    | start a c => exact aside trivial
    | reconfigure a c => exact aside trivial
    | _ => exact aside trivial
  | register sampler => cases hon
  | enter s provider tags => exact inStep (InStep.enter s provider tags).discard
  | exit x => exact inStep (InStep.exit x)
  | turn threads thread next =>
    exact inStep (.modify fun _ _ h => ⟨h.contexts, ⟨rfl, rfl, rfl⟩, h.aware, h.quiet⟩)

def ran (run : List Move) (p : Program) : Program := run.foldl (fun p m => m.after p) p

theorem ran_alongside {run : List Move} {p q : Program} (h : Alongside p q)
    (hrun : ∀ m ∈ run, m.Local ∧ m.Quiet) :
    Alongside (ran run p) (ran (run.filter fun m => !m.onAgents) q) := by
  induction run generalizing p q with
  | nil => exact h
  | cons m rest ih =>
    obtain ⟨hlocal, hquiet⟩ := hrun m List.mem_cons_self
    have hrest := fun n hn => hrun n (List.mem_cons_of_mem m hn)
    cases hon : m.onAgents with
    | true =>
      rw [List.filter_cons_of_neg (by simp [hon])]
      exact ih (h.left (m.apart_of_onAgents h.quiet.1 hquiet hon)) hrest
    | false =>
      rw [List.filter_cons_of_pos (by simp [hon])]
      exact ih (m.alongside h hlocal hquiet hon) hrest

/-- A sample of this context shows these tags behind the global ones. -/
def Program.Shows (p : Program) (s : StoreId) (c : ContextId) (tags : List Tag) : Prop :=
  ∃ q, (snapshot s c).on p = (.ok ((p.stores s).tags.globals ++ tags), q)

theorem Program.Aware.shows {p : Program} {s : StoreId} (h : p.Aware s) (c : ContextId) :
    p.Shows s c ((p.stores s).tags.contexts.tagsOf c) := by
  have hyields : Yields (snapshot s c) p s _ _ := snapshot_yields h c
  obtain ⟨q, hon, -⟩ := hyields
  exact ⟨q, hon⟩

/-- What is done to agents leaves the tags of all contexts alone, however it ends, if samplers do not
use stores. What is done to a store for which no fork is pending comes to its end and leaves agents,
their calls and the slot alone. So in a run without forks, samples show the same tags of contexts as in
the run without anything that is done to agents. -/
theorem agents_and_context_tags_apart :
    (∀ p : Program, p.Quiet → ∀ m : Move, m.onAgents = true → m.Quiet → SameContexts p (m.after p)) ∧
    (∀ (p : Program) (s : StoreId), p.Still s → ∀ {α : Type} {x : Act α}, StoreUse s x → Aside x p) ∧
    ∀ pid handler, ∀ run : List Move, (∀ m ∈ run, m.Local ∧ m.Quiet) → ∀ s,
      (∀ c, ∃ tags, (ran run (.start pid handler)).Shows s c tags ∧
        (ran (run.filter fun m => !m.onAgents) (.start pid handler)).Shows s c tags) ∧
      ((ran run (.start pid handler)).stores s).tags.contextCount =
        ((ran (run.filter fun m => !m.onAgents) (.start pid handler)).stores s).tags.contextCount := by
  refine ⟨fun p hp m hon hm => (m.apart_of_onAgents hp hm hon).sameContexts,
    fun p s hp _ _ hx => hx.aside hp, fun pid handler run hrun s => ?_⟩
  have hquiet := (start_peaceful pid handler).quiet
  have hstart : Alongside (.start pid handler) (.start pid handler) :=
    ⟨fun _ => rfl, ⟨rfl, rfl, rfl⟩, ⟨fun _ => rfl, fun _ => rfl⟩, hquiet, hquiet⟩
  have h := ran_alongside hstart hrun
  refine ⟨fun c => ⟨_, (h.aware.1 s).shows c, ?_⟩, ?_⟩
  · rw [← h.contexts]
    exact (h.aware.2 s).shows c
  · unfold TagStore.contextCount
    rw [h.contexts]

def Script.panicking : Script := ⟨fun _ => ⟨[.state], .panics "no"⟩, fun _ => {}, fun _ => {}⟩

theorem Script.panicking_quiet : panicking.Quiet := fun _ => ⟨by simp [panicking], by simp [panicking],
  by simp [panicking]⟩

def underScope : List Move :=
  [.operate (.newAgent 0 (.scripted .panicking)), .enter 0 (.fixed ⟨7⟩) [⟨"zone", "a"⟩]]

/-- While a scope is open, an agent fails to start with a panic and another sampler joins. -/
theorem agents_and_context_tags_apart_panic :
    ((startAgent 0 (.tagged "team" "b")).on (ran underScope (.start 1 false))).1 = .error (.panicked "no") ∧
    SameContexts (ran underScope (.start 1 false))
      (ran (underScope ++ [.operate (.start 0 (.tagged "team" "b"))]) (.start 1 false)) ∧
    Aside (exit ⟨0, ⟨7⟩, [⟨"zone", "a"⟩]⟩) (ran underScope (.start 1 false)) ∧
    (ran (underScope ++ [.operate (.start 0 (.tagged "team" "b")), .register .idle]) (.start 1 false)).Shows
      0 ⟨7⟩ [⟨"zone", "a"⟩] := by
  have hquiet : (ran underScope (.start 1 false)).Quiet := by
    intro a script hs
    cases a with
    | zero =>
      cases hs
      exact Script.panicking_quiet
    | succ a => cases hs
  have hstill : (ran underScope (.start 1 false)).Still 0 := .inl rfl
  have hrun : ∀ m ∈ underScope ++ [.operate (.start 0 (.tagged "team" "b")), .register .idle],
      m.Local ∧ m.Quiet := by
    simp [underScope, Move.Local, Move.Quiet, Operation.Local, Sampler.Quiet, Script.panicking_quiet]
  obtain ⟨tags, hfull, q, hpart⟩ := (agents_and_context_tags_apart.2.2 1 false _ hrun 0).1 ⟨7⟩
  have htags : Except.ok tags = (.ok [⟨"zone", "a"⟩] : Except Halt (List Tag)) :=
    (congrArg Prod.fst hpart).symm
  cases htags
  exact ⟨rfl, agents_and_context_tags_apart.1 _ hquiet (.operate (.start 0 (.tagged "team" "b"))) rfl
    trivial, agents_and_context_tags_apart.2.1 _ 0 hstill (.exit _ _), hfull⟩

end ProfilingAgent
