import ProfilingAgent.Proofs.ForkOutcome
import ProfilingAgent.Proofs.HostCalls

set_option autoImplicit false

namespace ProfilingAgent

open Act Program

namespace Host

variable {p q r : Program} {a : AgentId} {E U V : Multiset Tag}

inductive Call
  | start (options : Option Options) (vs : Environment.Variables)
  | stop
  | thread (k : ThreadCall)
  | addGlobal (key value : HostText)
  | removeGlobal (key value : HostText)
  | register (sampler : Sampler)
  | fork
  | child

namespace Call

def perform : Call → Act Unit
  | start options vs => discard (Host.start options vs)
  | stop => discard Host.stop
  | thread k => discard k.perform
  | addGlobal key value => discard (addGlobalTag key value)
  | removeGlobal key value => discard (removeGlobalTag key value)
  | register sampler => discard (registerSampler sampler)
  | fork => recordFork
  | child => modify Program.child

def after (k : Call) (p : Program) : Program := (k.perform.on p).2

/-- The global tags that are added and not removed, once the call has been made. -/
def entered (E : Multiset Tag) : Call → Multiset Tag
  | addGlobal key value =>
    match tagOf key value with
    | some t => if t.isValid then t ::ₘ E else E
    | none => E
  | removeGlobal key value =>
    match tagOf key value with
    | some t => E.erase t
    | none => E
  | _ => E

/-- Only global tags that are added and not removed are removed, and no sampler panics. -/
def Fair (E : Multiset Tag) : Call → Prop
  | removeGlobal key value => ∀ t, tagOf key value = some t → t ∈ E
  | register sampler => sampler.Calm
  | _ => True

def Modest : Call → Prop
  | register sampler => sampler.Modest
  | _ => True

end Call

inductive Runs (p : Program) (E : Multiset Tag) : Program → Multiset Tag → Prop
  | refl : Runs p E p E
  | call {q : Program} {U : Multiset Tag} (h : Runs p E q U) (k : Call) (hfair : k.Fair U) :
    Runs p E (k.after q) (k.entered U)

def inFirst (E : Multiset Tag) : Ledger := fun s => if s = 0 then E else 0

theorem addGlobal_inFirst (t : Tag) : (Operation.addGlobal 0 t).entered (inFirst E) =
    inFirst (if t.isValid then t ::ₘ E else E) := by
  funext s
  unfold Operation.entered inFirst
  by_cases hs : s = 0 <;> by_cases ht : t.isValid = true <;> simp [hs, ht]

theorem removeGlobal_inFirst (t : Tag) :
    (Operation.removeGlobal 0 t).entered (inFirst E) = inFirst (E.erase t) := by
  funext s
  unfold Operation.entered inFirst
  by_cases hs : s = 0 <;> simp [hs]

theorem addGlobal_minds (h : p.Sole) (key value : HostText) :
    Minds (inFirst E) (inFirst ((Call.addGlobal key value).entered E)) (addGlobalTag key value) p := by
  refine .of_tag h (fun ht => by simp only [Call.entered, ht]) fun t q ht hq => ?_
  refine .of_callStore hq fun a r hr ha => ?_
  have hadd := hr.addGlobal (E := inFirst E) ha t
  rw [addGlobal_inFirst] at hadd
  simp only [Call.entered, ht]
  exact .of_result hadd rfl fun _ => ⟨_, rfl⟩

theorem removeGlobal_minds (h : p.Sole) {key value : HostText} (hfair : (Call.removeGlobal key value).Fair E) :
    Minds (inFirst E) (inFirst ((Call.removeGlobal key value).entered E)) (removeGlobalTag key value) p := by
  refine .of_tag h (fun ht => by simp only [Call.entered, ht]) fun t q ht hq => ?_
  refine .of_callStore hq fun a r hr ha => ?_
  have hremove := hr.removeGlobal (E := inFirst E) ha t (hfair t ht)
  rw [removeGlobal_inFirst] at hremove
  simp only [Call.entered, ht]
  exact hremove

theorem forked_minds {F : Ledger} (h : p.Sole) (pid : UInt32) :
    Minded F F p { p with pid := pid, generation := p.generation + 1 } where
  sole := ⟨h.rest.forked pid, h.calm, h.alone, h.alive, h.home, h.watcher, h.fresh⟩
  bygone := ⟨Nat.le_refl _, fun _ _ _ => ⟨rfl, rfl⟩⟩
  modest := id
  accounts _ hE := hE.congr (fun _ => rfl) (fun _ => rfl) (fun _ => rfl) fun _ => rfl
  host _ ha := ha
  tamed := id

namespace Call

/-- Every call but a registration leaves hosts the agent that they talk to. -/
theorem minds (k : Call) (h : p.Sole) (hfair : k.Fair E) (hk : ∀ sampler, k ≠ register sampler) :
    Minds (inFirst E) (inFirst (k.entered E)) k.perform p := by
  cases k with
  | start options vs => exact (h.start options vs).discard
  | stop => exact h.stop.discard
  | thread k => exact (h.thread k).discard
  | addGlobal key value => exact (addGlobal_minds h key value).discard
  | removeGlobal key value => exact (removeGlobal_minds h hfair).discard
  | register sampler => exact absurd rfl (hk sampler)
  | fork => exact ⟨(), _, rfl, forked_minds h p.pid⟩
  | child => exact ⟨(), _, rfl, forked_minds h (p.pid + 1)⟩

theorem upkeep (k : Call) (h : p.Sole) (hfair : k.Fair E) :
    k.perform.on p = (.ok (), k.after p) ∧ Upkeep (inFirst E) (inFirst (k.entered E)) p (k.after p) := by
  by_cases hk : ∃ sampler, k = register sampler
  · obtain ⟨sampler, rfl⟩ := hk
    obtain ⟨a, q, hon, hq, ha, hab⟩ := h.current (E := inFirst E)
    obtain ⟨hregistered, hupkeep, -⟩ := hq.registers hfair hon ha hab
    have hafter : (register sampler).after p = ((registerSampler sampler).on p).2 := on_discard_snd _
    refine ⟨?_, hafter ▸ hupkeep⟩
    rw [hafter]
    unfold perform
    rw [on_discard]
    rcases hresult : (registerSampler sampler).on p with ⟨result, r⟩
    rw [hresult] at hregistered
    cases hregistered <;> rfl
  · obtain ⟨⟨⟩, q, hon, hq⟩ := k.minds h hfair fun sampler hs => hk ⟨sampler, hs⟩
    have hafter : k.after p = q := congrArg Prod.snd hon
    exact ⟨hafter ▸ hon, hafter ▸ hq.toUpkeep⟩

theorem modest (k : Call) (h : p.Sole) (hfair : k.Fair E) (hk : k.Modest) (hp : p.Modest) :
    (k.after p).Modest := by
  by_cases hregister : ∃ sampler, k = register sampler
  · obtain ⟨sampler, rfl⟩ := hregister
    obtain ⟨a, q, hon, hq, ha, hab⟩ := h.current (E := inFirst E)
    have hafter : (register sampler).after p = ((registerSampler sampler).on p).2 := on_discard_snd _
    rw [hafter]
    exact (hq.registers hfair hon ha hab).2.2 hk hp
  · obtain ⟨⟨⟩, q, hon, hq⟩ := k.minds h hfair fun sampler hs => hregister ⟨sampler, hs⟩
    have hafter : k.after p = q := congrArg Prod.snd hon
    exact hafter ▸ hq.tamed hp

end Call

theorem Runs.upkeep (hp : p.Sole) (h : Runs p E q U) : Upkeep (inFirst E) (inFirst U) p q := by
  induction h with
  | refl => exact .refl hp
  | call _ k hfair ih => exact ih.trans (k.upkeep ih.sole hfair).2

theorem start_sole (pid : UInt32) (handler : Bool) : (Program.start pid handler).Sole where
  rest := start_atRest pid handler
  calm := fun _ _ h => by cases h
  alone _ h := by cases h
  alive _ h := by cases h
  home _ h := by cases h
  watcher _ h := by cases h
  fresh _ := rfl

theorem start_accounts (pid : UInt32) (handler : Bool) : Accounts (inFirst 0) (Program.start pid handler) where
  running _ h := by cases h
  others s _ := by
    unfold inFirst
    split <;> rfl

theorem Runs.sole {pid : UInt32} {handler : Bool} (h : Runs (.start pid handler) 0 p E) : p.Sole :=
  (h.upkeep (start_sole pid handler)).sole

theorem Runs.accounts {pid : UInt32} {handler : Bool} (h : Runs (.start pid handler) 0 p E) (hmodest : p.Modest) :
    Accounts (inFirst E) p := (h.upkeep (start_sole pid handler)).accounts hmodest (start_accounts pid handler)

/-- The global tags of the first store are these, and the valid tags of the settings of the agent if it
is running. -/
def Tallied (E : Multiset Tag) (a : AgentId) (p : Program) : Prop :=
  ((p.agents a).phase ≠ .running → p.tagsAt 0 = E) ∧
    ∀ c, (p.agents a).phase = .running → (p.agents a).settings = some c → p.tagsAt 0 = E + c.validTags

theorem tallied (hp : p.Sole) (hE : Accounts (inFirst E) p) (ha : p.hostAgent = some a) : Tallied E a p := by
  refine ⟨fun hrun => hE.others 0 fun b hb _ => hrun ?_, fun c hrun hset => ?_⟩
  · have halive := (hp.rest.holder hp.calm (hp.rest.sound.slotted b hb)).2
    obtain rfl : b = a := Option.some.inj ((hp.alone b halive).symm.trans ha)
    exact hb
  · obtain ⟨c', hset', htags⟩ := hE.running a hrun
    obtain rfl : c = c' := Option.some.inj (hset.symm.trans hset')
    rw [hp.home a ha] at htags
    exact htags

end Host
end ProfilingAgent
