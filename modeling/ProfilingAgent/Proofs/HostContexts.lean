import ProfilingAgent.Host.Calls
import ProfilingAgent.Proofs.EntryPoints
import ProfilingAgent.Proofs.SingleScopes

set_option autoImplicit false

namespace ProfilingAgent

open Act Program

namespace Program

variable {α : Type} {p p₀ q r : Program} {a : AgentId} {s : StoreId} {lists : ContextId → List Tag}

structure InPlace (p q : Program) : Prop where
  pid : q.pid = p.pid
  host : q.hostAgent = p.hostAgent
  threads : q.threads = p.threads
  thread : q.thread = p.thread
  next : q.nextContext = p.nextContext

theorem InPlace.refl (p : Program) : InPlace p p := ⟨rfl, rfl, rfl, rfl, rfl⟩

theorem InPlace.asked (h : InPlace p q) : Asked p q := .of_same h.threads h.thread h.next

theorem inPlace_frame (p : Program) : LocalFrame .any (InPlace p) where
  annotate _ h := ⟨h.pid, h.host, h.threads, h.thread, h.next⟩
  mark _ h := ⟨h.pid, h.host, h.threads, h.thread, h.next⟩
  count _ h := ⟨h.pid, h.host, h.threads, h.thread, h.next⟩
  give _ h := ⟨h.pid, h.host, h.threads, h.thread, h.next⟩
  alter _ _ _ h := ⟨h.pid, h.host, h.threads, h.thread, h.next⟩
  adopt _ _ _ h := ⟨h.pid, h.host, h.threads, h.thread, h.next⟩
  call _ _ _ h := ⟨h.pid, h.host, h.threads, h.thread, h.next⟩
  globals _ _ h := ⟨h.pid, h.host, h.threads, h.thread, h.next⟩
  retag _ _ h := ⟨h.pid, h.host, h.threads, h.thread, h.next⟩
  uses _ _ := .inr fun _ => trivial
  install _ h := ⟨h.pid, h.host, h.threads, h.thread, h.next⟩
  store h := ⟨h.pid, h.host, h.threads, h.thread, h.next⟩
  watched _ _ h := ⟨h.pid, h.host, h.threads, h.thread, h.next⟩
  housed _ _ _ h := ⟨h.pid, h.host, h.threads, h.thread, h.next⟩

def hostLists (p : Program) : ContextId → List Tag :=
  match p.hostAgent with
  | none => fun _ => []
  | some a => p.tagsOn (p.agents a).store

def hostGlobals (p : Program) : List Tag :=
  match p.hostAgent with
  | none => []
  | some a => (p.stores (p.agents a).store).tags.globals

def hostContext (p : Program) (thread : UInt64) : ContextId :=
  if thread = 0 then p.threadId else .ofHostThread thread p.pid

def hostTags (p : Program) (thread : UInt64) : List Tag := p.hostLists (p.hostContext thread)

theorem hostLists_of_host (h : p.hostAgent = some a) : p.hostLists = p.tagsOn (p.agents a).store := by
  unfold hostLists
  rw [h]

/-- The agent that hosts talk to and its store have seen every fork. -/
def Settled (p : Program) : Prop := ∀ a, p.hostAgent = some a → p.Abreast a ∧ p.Aware (p.agents a).store

/-- Nobody is in transition, and the agent that hosts talk to has not been dropped. No fork is pending
for it, or no sampler panics or touches a store. -/
structure Hosting (p : Program) : Prop where
  rest : p.AtRest
  alive : ∀ a, p.hostAgent = some a → (p.agents a).alive = true
  easy : p.Settled ∨ p.Peaceful

structure Hosts (p₀ : Program) (lists : ContextId → List Tag) (p : Program) : Prop extends Hosting p where
  pid : p.pid = p₀.pid
  asked : Asked p₀ p
  tags : p.hostLists = lists

theorem Hosting.hosts (h : p.Hosting) : Hosts p p.hostLists p := ⟨h, rfl, .refl p, rfl⟩

theorem newAgentOn_on (p : Program) (s : StoreId) (sampler : Sampler) : ∃ installed notes,
    (newAgentOn s sampler).on p = (.ok p.agents.size,
      { p with handlerInstalled := installed, notes := notes }.housed s sampler) := by
  have hinstalled : ∃ installed notes, (discard install).on p =
      (.ok (), { p with handlerInstalled := installed, notes := notes }) := by
    have hget : (get : Act Program).on p = (.ok p, p) := rfl
    unfold install
    rw [on_discard, on_bind, hget]
    dsimp only
    cases p.handlerInstalled with
    | true => exact ⟨_, _, rfl⟩
    | false => exact ⟨_, _, rfl⟩
  obtain ⟨installed, notes, hon⟩ := hinstalled
  refine ⟨installed, notes, ?_⟩
  unfold newAgentOn
  rw [on_bind, hon]
  rfl

/-- A new agent has a store of its own, without tags, and both have seen every fork. -/
theorem newAgent_on (hp : p.AtRest) : ∃ q, (newAgent .idle).on p = (.ok p.agents.size, q) ∧
    q.AtRest ∧ InPlace p q ∧ (q.agents p.agents.size).alive = true ∧ q.Abreast p.agents.size ∧
      q.Aware (q.agents p.agents.size).store ∧
      q.tagsOn (q.agents p.agents.size).store = fun _ => [] := by
  generalize hstored : Operation.newStore.after p = stored
  have hrest : stored.AtRest :=
    hstored ▸ (Ends.mono (Operation.newStore.rests hp trivial) (fun _ _ h => h.1) fun _ _ h => h.1).left
  have hon : newStore.on p = (.ok p.stores.size, stored) := hstored ▸ rfl
  have hstore : stored.stores p.stores.size = ⟨.empty, ⟨p.generation, none⟩⟩ := by
    rw [← hstored]
    exact (Table.push_row _ _ _).trans (if_pos rfl)
  have hsize : stored.agents.size = p.agents.size := hstored ▸ rfl
  have hgeneration : stored.generation = p.generation := hstored ▸ rfl
  have hplace : InPlace p stored := hstored ▸ ⟨rfl, rfl, rfl, rfl, rfl⟩
  obtain ⟨installed, notes, hon'⟩ := newAgentOn_on stored p.stores.size .idle
  have hbefore : Program.AtRest { stored with handlerInstalled := installed, notes := notes } :=
    hrest.same ⟨rfl, rfl, rfl, rfl, fun _ => rfl⟩ fun _ => .inl rfl
  let before := { stored with handlerInstalled := installed, notes := notes }
  have hrow : (before.housed p.stores.size .idle).agents before.agents.size =
      ⟨p.stores.size, true, before.generation, .fresh, none, false, .idle, 0, 0, 0⟩ := housed_new
  have hhome := congrArg Agent.store hrow
  rw [← hsize]
  refine ⟨_, ?_, hbefore.housed, ⟨hplace.pid, hplace.host, hplace.threads, hplace.thread, hplace.next⟩,
    congrArg Agent.alive hrow, congrArg Agent.seen hrow, ?_, ?_⟩
  · unfold Program.newAgent
    rw [on_bind, hon]
    exact hon'
  · rw [show Agent.store _ = _ from hhome]
    unfold Aware
    rw [housed_stores, if_pos rfl]
    exact (congrArg (fun x => x.hook.seen) hstore).trans hgeneration.symm
  · rw [show Agent.store _ = _ from hhome]
    unfold tagsOn
    rw [housed_stores, if_pos rfl]
    exact congrArg (fun x => x.tags.contexts.tagsOf) hstore

theorem removeBatch_one (t : Tag) (tags : List Tag) :
    (removeBatch [t] tags).1 = removeLatest t tags := by
  change (if t ∈ tags then (removeLatest t tags, 0 + 1) else (tags, 0) : List Tag × Nat).1 = _
  split
  · rfl
  · rename_i hmem
    unfold removeLatest
    rw [List.erase_of_not_mem (by simpa using hmem), List.reverse_reverse]

theorem threadOf_on (p : Program) (thread : UInt64) : ∃ q,
    (Host.threadOf thread).on p = (.ok (p.hostContext thread), q) ∧ Turned p q ∧ Asked p q := by
  unfold Host.threadOf hostContext
  by_cases hthread : thread = 0
  · rw [if_pos hthread, if_pos hthread]
    obtain ⟨q, hon, hasked, -⟩ := threadContext_on p
    obtain ⟨c, q', hon', hturn, -⟩ := currentContext_turned (p := p) .thread
    rw [show (currentContext .thread).on p = _ from hon] at hon'
    cases hon'
    exact ⟨q, hon, hturn, hasked⟩
  · rw [if_neg hthread, if_neg hthread]
    exact ⟨p, rfl, ⟨_, _, _, rfl⟩, .refl p⟩

namespace Looked

variable (h : Looked s p q)

include h

theorem addTag (c : ContextId) (t : Tag) : ∃ result r, (addTag s c t).on p = (.ok result, r) ∧
    Retagged s ((Use.addTags c [t]).leaves (q.stores s).tags) q r := by
  have hyields : Yields (addTags s c [t]) q s _ _ := addTags_yields h.aware c [t]
  obtain ⟨r, hon, hr⟩ := hyields
  have hlook : (Program.addTag s c t).on p = (Program.addTag s c t).on q := by
    unfold Program.addTag addTags addTagsWith revise
    rw [bind_assoc]
    exact h.use
  exact ⟨_, r, hlook.trans hon, hr⟩

theorem removeTag (c : ContextId) (t : Tag) : ∃ found r, (removeTag s c t).on p = (.ok found, r) ∧
    Retagged s ((Use.removeTags c [t]).leaves (q.stores s).tags) q r := by
  have hyields : Yields (removeTags s c [t]) q s _ _ := removeTags_yields h.aware c [t]
  obtain ⟨r, hon, hr⟩ := hyields.bind_pure fun n => decide (n = 1)
  have hlook : (Program.removeTag s c t).on p = (Program.removeTag s c t).on q := by
    unfold Program.removeTag removeTags removeTagsWith
    rw [bind_assoc]
    exact h.use
  exact ⟨_, r, hlook.trans hon, hr⟩

end Looked

end Program

namespace Use

theorem tagsOf_leaves_addTag (c : ContextId) (t : Tag) (x : TagStore) :
    ((addTags c [t]).leaves x).contexts.tagsOf = Function.update x.contexts.tagsOf c
      (if t.isValid then x.contexts.tagsOf c ++ [t] else x.contexts.tagsOf c) := by
  by_cases ht : t.isValid = true
  · have hvalid : ∀ u ∈ [t], u.isValid = true := by simpa using ht
    obtain ⟨-, htags⟩ := x.addTags_valid c hvalid
    funext d
    rw [if_pos ht, Function.update_apply]
    exact htags d
  · have hblank : ∃ u ∈ [t], u.isValid = false := by simpa using ht
    obtain ⟨e, he⟩ := x.addTags_blank c hblank
    rw [if_neg ht, Function.update_eq_self]
    change (attempted x (x.addTags c [t])).2.contexts.tagsOf = _
    rw [he]
    rfl

theorem tagsOf_leaves_removeTag (c : ContextId) (t : Tag) (x : TagStore) :
    ((removeTags c [t]).leaves x).contexts.tagsOf =
      Function.update x.contexts.tagsOf c (removeLatest t (x.contexts.tagsOf c)) := by
  funext d
  rw [Function.update_apply, ← removeBatch_one]
  exact x.removeTags_tagsOf c d

end Use

namespace Program

variable {α : Type} {p p₀ q : Program} {a : AgentId} {lists : ContextId → List Tag}

namespace Hosts

variable (h : Hosts p₀ lists p)

include h

theorem hostContext (thread : UInt64) : p.hostContext thread = p₀.hostContext thread := by
  unfold Program.hostContext
  rw [h.pid, h.asked.threadId]

theorem annotate (notes : List (ThreadId × Log.Event)) : Hosts p₀ lists (p.annotate notes) where
  rest := h.rest.same (Same.annotate p notes) fun _ => .inl rfl
  alive := h.alive
  easy := h.easy.imp_right fun hp =>
    ⟨hp.rest.same (Same.annotate p notes) fun _ => .inl rfl, hp.calm, hp.quiet⟩
  pid := h.pid
  asked := h.asked.trans (.of_same rfl rfl rfl)
  tags := h.tags

theorem hosted : ∃ a q, hosted.on p = (.ok a, q) ∧ Hosts p₀ lists q ∧ q.hostAgent = some a := by
  have hget : (get : Act Program).on p = (.ok p, p) := rfl
  unfold Program.hosted
  rw [on_bind, hget]
  dsimp only
  cases hhost : p.hostAgent with
  | some a => exact ⟨a, p, rfl, h, hhost⟩
  | none =>
    obtain ⟨q, hon, hrest, hplace, halive, habreast, haware, hlists⟩ := newAgent_on h.rest
    dsimp only
    rw [on_bind, hon]
    have hnone : p.hostLists = fun _ => [] := by
      unfold hostLists
      rw [hhost]
    refine ⟨p.agents.size, { q with hostAgent := some p.agents.size }, rfl, ?_, rfl⟩
    exact
      { rest := hrest.same ⟨rfl, rfl, rfl, rfl, fun _ => rfl⟩ fun _ => .inl rfl
        alive := fun a ha => Option.some.inj ha ▸ halive
        easy := .inl fun a ha => Option.some.inj ha ▸ ⟨habreast, haware⟩
        pid := hplace.pid.trans h.pid
        asked := h.asked.trans (.of_same hplace.threads hplace.thread hplace.next)
        tags := hlists.trans (hnone.symm.trans h.tags) }

theorem served {x : Act α} {result : α} {after : ContextId → List Tag} {free : Option AgentId}
    (ha : p.hostAgent = some a) (hkeeps : Keeps (InPlace p) x)
    (hon : x.on p = (.ok result, q)) (hfollows : Follows none free p q)
    (hpeace : p.Peaceful → q.Peaceful) (hlists : q.tagsOn (p.agents a).store = after) :
    Hosts p₀ after q ∧ q.hostAgent = some a := by
  have hplace : InPlace p q := (ends_of_on hon).1 (hkeeps p (.refl p))
  have hhost : q.hostAgent = some a := hplace.host.trans ha
  have hstore := hfollows.store a
  refine ⟨?_, hhost⟩
  exact
    { rest := h.rest.follows hfollows
      alive := fun b hb => by
        rw [hfollows.alive]
        exact h.alive b (hplace.host ▸ hb)
      easy := h.easy.imp (fun hsettled b hb => by
        obtain ⟨habreast, haware⟩ := hsettled b (hplace.host ▸ hb)
        refine ⟨hfollows.abreast b habreast, ?_⟩
        unfold Aware
        rw [hfollows.store, hfollows.generation]
        exact (hfollows.told _).elim (fun hseen => hseen.trans haware) And.left) hpeace
      pid := hplace.pid.trans h.pid
      asked := h.asked.trans hplace.asked
      tags := by rw [hostLists_of_host hhost, hstore, hlists] }

theorem told (ha : p.hostAgent = some a) :
    ∃ q, (tellAgent a).on p = (.ok (), q) ∧ Hosts p₀ lists q ∧ q.hostAgent = some a := by
  rcases h.easy with hsettled | hpeace
  · refine ⟨p, ?_, h, ha⟩
    unfold tellAgent
    rw [on_discard, handleFork_abreast (hsettled a ha).1]
  · obtain ⟨hon, hpeace', hcontexts⟩ := hpeace.operate (s := (p.agents a).store) (.handleFork a)
      (h.alive a ha) trivial
    generalize (Operation.handleFork a).after p = q at hon hpeace' hcontexts
    have hgoes := tellAgent_goes h.rest.sound (h.alive a ha) (h.rest.unlocked a)
    obtain ⟨hfollows, -⟩ := (ends_of_on hon).1 hgoes
    have hlists : q.tagsOn (p.agents a).store = lists := by
      rw [← h.tags, hostLists_of_host ha]
      unfold tagsOn
      rw [hcontexts]
    exact ⟨q, hon, h.served ha ((inPlace_frame p).tellAgent a trivial) hon hfollows (fun _ => hpeace') hlists⟩

theorem storeOf (ha : p.hostAgent = some a) : ∃ q,
    (storeOf a).on p = (.ok (q.agents a).store, q) ∧ Hosts p₀ lists q ∧ q.hostAgent = some a := by
  obtain ⟨q, hon, hq, hhost⟩ := h.told ha
  refine ⟨q, ?_, hq, hhost⟩
  unfold Program.storeOf
  rw [on_bind, hon]
  rfl

theorem callStore : ∃ a q, Host.callStore.on p = (.ok (q.agents a).store, q) ∧ Hosts p₀ lists q ∧
    q.hostAgent = some a := by
  obtain ⟨a, q, hon, hq, ha⟩ := h.hosted
  obtain ⟨r, hon', hr, ha'⟩ := hq.told ha
  obtain ⟨t, hon'', ht⟩ := hr.storeOf ha'
  refine ⟨a, t, ?_, ht⟩
  unfold Host.callStore
  rw [on_bind, hon]
  dsimp only
  rw [on_bind, show (discard (handleFork a)).on q = _ from hon']
  exact hon''

theorem hostedStore : ∃ a q, hostedStore.on p = (.ok (q.agents a).store, q) ∧ Hosts p₀ lists q ∧
    q.hostAgent = some a := by
  obtain ⟨a, q, hon, hq, ha⟩ := h.hosted
  obtain ⟨r, hon', hr⟩ := hq.storeOf ha
  refine ⟨a, r, ?_, hr⟩
  unfold Program.hostedStore
  rw [on_bind, hon]
  exact hon'

theorem threadOf (thread : UInt64) : ∃ q, (Host.threadOf thread).on p = (.ok (p₀.hostContext thread), q) ∧
    Hosts p₀ lists q ∧ q.hostAgent = p.hostAgent ∧ q.agents = p.agents := by
  obtain ⟨q, hon, hturn, hasked⟩ := threadOf_on p thread
  rw [h.hostContext] at hon
  obtain ⟨hpeace, -, -⟩ := hturn.still (s := 0)
  obtain ⟨threads, thread, next, rfl⟩ := hturn
  refine ⟨_, hon, ?_, rfl, rfl⟩
  exact
    { rest := h.rest.same ⟨rfl, rfl, rfl, rfl, fun _ => rfl⟩ fun _ => .inl rfl
      alive := h.alive
      easy := h.easy.imp_right hpeace
      pid := h.pid
      asked := h.asked.trans hasked
      tags := h.tags }

theorem undisturbed (ha : p.hostAgent = some a) : Undisturbed (p.agents a).store p :=
  h.easy.imp_left fun hsettled => (hsettled a ha).2

theorem tagsOn_host (ha : p.hostAgent = some a) : p.tagsOn (p.agents a).store = lists :=
  (hostLists_of_host ha).symm.trans h.tags

theorem addTag (ha : p.hostAgent = some a) (c : ContextId) (t : Tag) : ∃ r q,
    (addTag (p.agents a).store c t).on p = (.ok r, q) ∧
      Hosts p₀ (Function.update lists c (if t.isValid then lists c ++ [t] else lists c)) q := by
  obtain ⟨q, hq⟩ := (h.undisturbed ha).look
  obtain ⟨result, r, hon, hr⟩ := hq.addTag c t
  have hafter : r.tagsOn (p.agents a).store =
      Function.update lists c (if t.isValid then lists c ++ [t] else lists c) := by
    unfold tagsOn
    rw [hr.tags, Use.tagsOf_leaves_addTag, hq.contexts, ← h.tagsOn_host ha]
    rfl
  have hgoes := (EntryPoint.addTag (a := a) (s := (p.agents a).store) c t).goes h.rest.sound
    (h.alive a ha) (h.rest.unlocked a)
  have hkeeps := (inPlace_frame p).addTags (inPlace_frame p).tellAgent (s := (p.agents a).store)
    trivial c [t]
  exact ⟨result, r, hon, (h.served ha hkeeps hon ((ends_of_on hon).1 hgoes).1
    (fun hp => hr.peaceful (hq.peaceful hp)) hafter).1⟩

theorem removeTag (ha : p.hostAgent = some a) (c : ContextId) (t : Tag) : ∃ r q,
    (removeTag (p.agents a).store c t).on p = (.ok r, q) ∧
      Hosts p₀ (Function.update lists c (removeLatest t (lists c))) q := by
  obtain ⟨q, hq⟩ := (h.undisturbed ha).look
  obtain ⟨found, r, hon, hr⟩ := hq.removeTag c t
  have hafter : r.tagsOn (p.agents a).store = Function.update lists c (removeLatest t (lists c)) := by
    unfold tagsOn
    rw [hr.tags, Use.tagsOf_leaves_removeTag, hq.contexts, ← h.tagsOn_host ha]
    rfl
  have hgoes := (EntryPoint.removeTag (a := a) (s := (p.agents a).store) c t).goes
    h.rest.sound (h.alive a ha) (h.rest.unlocked a)
  have hkeeps : Keeps (InPlace p) (Program.removeTag (p.agents a).store c t) :=
    .bind ((inPlace_frame p).removeTags (inPlace_frame p).tellAgent trivial c [t]) fun _ => .pure _
  exact ⟨found, r, hon, (h.served ha hkeeps hon ((ends_of_on hon).1 hgoes).1
    (fun hp => hr.peaceful (hq.peaceful hp)) hafter).1⟩

theorem snapshot (ha : p.hostAgent = some a) (c : ContextId) : ∃ q,
    (snapshot (p.agents a).store c).on p = (.ok (q.hostGlobals ++ lists c), q) := by
  obtain ⟨q, hq⟩ := (h.undisturbed ha).look
  have hyields : Yields (Program.snapshot (p.agents a).store c) q (p.agents a).store _ _ :=
    snapshot_yields hq.aware c
  obtain ⟨r, hon, hr⟩ := hyields
  have hlook : (Program.snapshot (p.agents a).store c).on p = _ := hq.use.trans hon
  have hgoes := (EntryPoint.snapshot (a := a) (s := (p.agents a).store) c).goes h.rest.sound
    (h.alive a ha) (h.rest.unlocked a)
  have hstore := ((ends_of_on hlook).1 hgoes).1.store a
  have hplace : InPlace p r := (ends_of_on hlook).1
    ((inPlace_frame p).snapshot (inPlace_frame p).tellAgent c p (.refl p))
  have hglobals : r.hostGlobals = (q.stores (p.agents a).store).tags.globals := by
    unfold hostGlobals
    rw [hplace.host, ha]
    dsimp only
    rw [hstore, hr.tags]
  refine ⟨r, ?_⟩
  rw [hlook, hglobals, ← h.tagsOn_host ha]
  unfold TagStore.snapshot tagsOn
  rw [hq.contexts]

end Hosts

end Program
end ProfilingAgent
