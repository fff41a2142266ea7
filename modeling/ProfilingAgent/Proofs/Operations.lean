import ProfilingAgent.Proofs.Resting

set_option autoImplicit false

namespace ProfilingAgent

open Act Program

inductive Operation
  | newStore
  | newAgent (s : StoreId) (sampler : Sampler)
  | start (a : AgentId) (settings : Settings)
  | reconfigure (a : AgentId) (settings : Settings)
  | stop (a : AgentId)
  | handleFork (a : AgentId)
  | drop (a : AgentId)
  | state (a : AgentId)
  | tags (a : AgentId)
  | fork
  | child
  | watch (s : StoreId) (c : CounterId)
  | addTags (s : StoreId) (c : ContextId) (tags : List Tag)
  | removeTags (s : StoreId) (c : ContextId) (tags : List Tag)
  | addGlobal (s : StoreId) (t : Tag)
  | removeGlobal (s : StoreId) (t : Tag)
  | replaceGlobals (s : StoreId) (old new : List Tag)
  | snapshot (s : StoreId) (c : ContextId)
  | clearContext (s : StoreId) (c : ContextId)

namespace Operation

def perform : Operation → Act Unit
  | newStore => discard Program.newStore
  | newAgent s sampler => discard (newAgentOn s sampler)
  | start a settings => discard (startAgent a settings)
  | reconfigure a settings => discard (Program.reconfigure a settings)
  | stop a => discard (stopAgent a)
  | handleFork a => discard (Program.handleFork a)
  | drop a => dropAgent a
  | state a => discard (Program.state a)
  | tags a => discard (storeOf a)
  | fork => recordFork
  | child => modify Program.child
  | watch s c => watchStore s (.counter c)
  | addTags s c ts => discard (Program.addTags s c ts)
  | removeTags s c ts => discard (Program.removeTags s c ts)
  | addGlobal s t => discard (Program.addGlobal s t)
  | removeGlobal s t => discard (Program.removeGlobal s t)
  | replaceGlobals s old new => discard (Program.replaceGlobals s old new)
  | snapshot s c => discard (Program.snapshot s c)
  | clearContext s c => discard (Program.clearContext s c)

/-- Only agents that are there and not dropped can be moved. -/
def Fits (p : Program) : Operation → Prop
  | start a _ | reconfigure a _ | stop a | handleFork a | drop a | state a | tags a =>
    (p.agents a).alive = true
  | _ => True

def after (op : Operation) (p : Program) : Program := (op.perform.on p).2

end Operation

inductive Reachable : Program → Prop
  | start (pid : UInt32) (handler : Bool) : Reachable (.start pid handler)
  | perform {p : Program} (h : Reachable p) (op : Operation) (hfits : op.Fits p) :
    Reachable (op.after p)

def Settings.tagged (key value : String) : Settings :=
  Layer.resolve { tags := some (Dict.empty.insert key value) }

namespace Program

def manned (script : Script) : Program :=
  (Operation.newAgent 0 (.scripted script)).after (.start 1 false)

theorem manned_reachable (script : Script) : Reachable (manned script) :=
  .perform (.start 1 false) _ trivial

variable {α : Type} {p q : Program} {a : AgentId}

def Stepped (p q : Program) : Prop :=
  ∀ a, Phase.Steps (p.agents a).phase (q.agents a).phase

def Staffed (p q : Program) : Prop :=
  ∀ a script, (p.agents a).sampler = .scripted script → (q.agents a).sampler = .scripted script

theorem Follows.staffed {free : Option AgentId} (h : Follows none free p q) : Staffed p q := by
  intro b script hs
  rw [h.sampler b, hs]

theorem Staffed.calm (h : Staffed p q) (hq : q.Calm) : p.Calm :=
  fun b script hs => hq b script (h b script hs)

theorem Staffed.quiet (h : Staffed p q) (hq : q.Quiet) : p.Quiet :=
  fun b script hs => hq b script (h b script hs)

theorem Staffed.modest (h : Staffed p q) (hq : q.Modest) : p.Modest :=
  fun b script hs => hq b script (h b script hs)

def Rests (x : Act α) (p : Program) : Prop :=
  Ends x p (fun _ q => q.AtRest ∧ Staffed p q ∧ Stepped p q)
    fun h q => q.AtRest ∧ Staffed p q ∧ Broken p h

theorem Rests.discard {x : Act α} (h : Rests x p) : Rests (discard x) p := by
  unfold Rests
  rw [ends_discard]
  exact h

theorem Goes.rests {x : Act α} {post : α → Program → Prop} (h : Goes none none p x p post)
    (hp : p.AtRest) : Rests x p := by
  refine Ends.mono h ?_ fun h q ⟨hq, hbroken⟩ => ⟨hp.follows hq, hq.staffed, hbroken⟩
  exact fun _ q ⟨hq, _⟩ => ⟨hp.follows hq, hq.staffed, fun b => .of_ebb (hq.phase b (by simp))⟩

theorem startAgent_rests (hp : p.AtRest) (halive : (p.agents a).alive = true) (c : Settings) :
    Rests (startAgent a c) p := by
  refine Ends.mono (startAgent_goes hp.sound halive (hp.unlocked a)) ?_ ?_
  · rintro r t ⟨ht, -, q, -, hq, -, hend⟩
    refine ⟨hp.follows ht, ht.staffed, fun b => ?_⟩
    by_cases hb : b = a
    · subst hb
      exact hend.steps.after_ebb (hq.phase b (by simp))
    · exact .of_ebb (ht.phase b (by simpa using hb))
  · exact fun h t ⟨ht, hbroken⟩ => ⟨hp.follows ht, ht.staffed, hbroken⟩

theorem reconfigure_rests (hp : p.AtRest) (halive : (p.agents a).alive = true) (c : Settings) :
    Rests (reconfigure a c) p := by
  unfold Rests reconfigure
  rw [ends_bind, ends_say]
  generalize _ :: p.notes = notes
  have hp' : (p.annotate notes).AtRest :=
    hp.follows ((Follows.refl hp.sound).annotate notes)
  exact startAgent_rests hp' halive c

theorem dropAgent_rests (hp : p.AtRest) (halive : (p.agents a).alive = true) :
    Rests (dropAgent a) p := by
  refine Ends.mono (dropAgent_ends hp.sound halive (hp.unlocked a)) ?_ ?_
  · rintro _ _ ⟨q, hq, hrun, rfl⟩
    have hidle : ((q.yieldSlot a).agents a).phase ≠ .running := by
      rw [yieldSlot_agents]
      exact hrun
    refine ⟨((hp.follows hq).yielded hrun).dropped (.inl hidle), fun b script hs => ?_, fun b => ?_⟩
    · rw [gone_field q a b Agent.sampler fun _ => rfl]
      exact hq.staffed b script hs
    · rw [gone_field q a b Agent.phase fun _ => rfl]
      exact .of_ebb (hq.phase b (by simp))
  · rintro h _ ⟨q, hq, hbroken, rfl⟩
    refine ⟨(hp.follows hq).dropped (.inr fun hc => hbroken.2 (hq.calm.1 hc)), fun b script hs => ?_,
      hbroken⟩
    rw [dropped_field q a b Agent.sampler fun _ => rfl]
    exact hq.staffed b script hs

theorem newAgentOn_rests (hp : p.AtRest) (s : StoreId) (sampler : Sampler) :
    Rests (newAgentOn s sampler) p := by
  have added : ∀ q, Same p q → (∀ t, (q.stores t).hook.seen = (p.stores t).hook.seen) →
      (q.housed s sampler).AtRest ∧ Staffed p (q.housed s sampler) ∧
        Stepped p (q.housed s sampler) := by
    intro q hq hseen
    refine ⟨(hp.same hq fun t => .inl (hseen t)).housed, fun b script hs => ?_, fun b => .inl ?_⟩
    · have hb : b ≠ q.agents.size := by
        rintro rfl
        rw [← hq.agents, agents_size] at hs
        cases hs
      rw [housed_old hb, hq.agents, hs]
    · by_cases hb : b = q.agents.size
      · rw [hb, housed_new, ← hq.agents, agents_size]
        rfl
      · rw [housed_old hb, hq.agents]
  unfold Rests newAgentOn install
  simp only [ends_bind, ends_discard, ends_get]
  by_cases hi : (!p.handlerInstalled) = true
  · rw [if_pos hi, ends_bind, ends_modify, ends_bind, ends_say]
    exact added (annotate { p with handlerInstalled := true } _) ⟨rfl, rfl, rfl, rfl, fun _ => rfl⟩
      fun _ => rfl
  · rw [if_neg hi]
    exact added p ⟨rfl, rfl, rfl, rfl, fun _ => rfl⟩ fun _ => rfl

theorem useOnce_rests (hp : p.AtRest) (s : StoreId) (u : Use) (hu : u ≠ .state) :
    Rests (useOnce tellAgent a s u) p :=
  (useOnce_goes teller hp.sound (.inl trivial) u fun h => absurd h hu).rests hp

end Program

theorem Operation.rests {p : Program} (hp : p.AtRest) (op : Operation) (hfits : op.Fits p) :
    Rests op.perform p := by
  cases op with
  | newStore => exact ⟨hp.newStore, fun _ _ h => h, fun _ => .inl rfl⟩
  | newAgent s sampler => exact (newAgentOn_rests hp s sampler).discard
  | start a c => exact (startAgent_rests hp hfits c).discard
  | reconfigure a c => exact (reconfigure_rests hp hfits c).discard
  | stop a => exact ((stopAgent_goes hp.sound hfits (hp.unlocked a)).rests hp).discard
  | handleFork a => exact ((handleFork_goes hp.sound hfits (hp.unlocked a)).1.rests hp).discard
  | drop a => exact dropAgent_rests hp hfits
  | state a =>
    have go := (tellAgent_goes hp.sound hfits (hp.unlocked a)).rests hp
    unfold Rests perform Program.state
    rw [ends_discard, ends_bind]
    exact go
  | tags a =>
    have go := (tellAgent_goes hp.sound hfits (hp.unlocked a)).rests hp
    unfold Rests perform storeOf
    rw [ends_discard, ends_bind]
    exact go
  | fork => exact ⟨hp.forked p.pid, fun _ _ h => h, fun _ => .inl rfl⟩
  | child => exact ⟨hp.forked (p.pid + 1), fun _ _ h => h, fun _ => .inl rfl⟩
  | watch s c => exact ⟨hp.watched, fun _ _ h => h, fun _ => .inl rfl⟩
  | addTags s c tags => exact useOnce_rests (a := 0) hp s (.addTags c tags) (by simp)
  | removeTags s c tags => exact useOnce_rests (a := 0) hp s (.removeTags c tags) (by simp)
  | addGlobal s t => exact useOnce_rests (a := 0) hp s (.addGlobal t) (by simp)
  | removeGlobal s t => exact useOnce_rests (a := 0) hp s (.removeGlobal t) (by simp)
  | replaceGlobals s old new => exact useOnce_rests (a := 0) hp s (.replaceGlobals old new) (by simp)
  | snapshot s c => exact useOnce_rests (a := 0) hp s (.snapshot c) (by simp)
  | clearContext s c => exact useOnce_rests (a := 0) hp s (.clearContext c) (by simp)

theorem Reachable.atRest {p : Program} (h : Reachable p) : p.AtRest := by
  induction h with
  | start pid handler => exact start_atRest pid handler
  | perform _ op hfits ih =>
    have hop := op.rests ih hfits
    exact (Ends.mono hop (fun _ _ h => h.1) fun _ _ h => h.1).left

theorem Operation.staffed {p : Program} (hp : p.AtRest) (op : Operation) (hfits : op.Fits p) :
    Staffed p (op.after p) :=
  (Ends.mono (op.rests hp hfits) (fun _ _ h => h.2.1) fun _ _ h => h.2.1).left

theorem Operation.returns {p : Program} (hp : p.AtRest) (hc : p.Calm) (op : Operation)
    (hfits : op.Fits p) : op.perform.on p = (.ok (), op.after p) ∧ Stepped p (op.after p) := by
  have hop := (op.rests hp hfits).here
  unfold Ends at hop
  unfold after
  rcases hx : op.perform.on p with ⟨r | r, q⟩
  · rw [hx] at hop
    exact absurd hc hop.1.2.2.2
  · rw [hx] at hop
    exact ⟨rfl, hop.1.2.2⟩

end ProfilingAgent
