import ProfilingAgent.Proofs.AgentsAndTags
import ProfilingAgent.Proofs.HostContexts

set_option autoImplicit false

namespace ProfilingAgent

open Act Program

namespace Program

variable {p q r : Program} {a b : AgentId} {s : StoreId} {sampler : Sampler}

theorem size_of_alive (h : (p.agents a).alive = true) : a < p.agents.size := by
  by_contra hlt
  rw [Table.row_of_size_le _ (Nat.le_of_not_lt hlt)] at h
  cases h

def current : Act AgentId := do
  let a ← hosted
  tellAgent a
  pure a

def joined (p : Program) (s : StoreId) (sampler : Sampler) : Program :=
  { p with hostAgent := some p.agents.size }.housed s sampler

theorem joined_new : (p.joined s sampler).agents p.agents.size =
    ⟨s, true, p.generation, .fresh, none, false, sampler, 0, 0, 0⟩ := housed_new

theorem joined_old (hb : b ≠ p.agents.size) : (p.joined s sampler).agents b = p.agents b := housed_old hb

theorem joined_rest (hp : p.AtRest) : (p.joined s sampler).AtRest := by
  have hhost : AtRest { p with hostAgent := some p.agents.size } :=
    hp.same ⟨rfl, rfl, rfl, rfl, fun _ => rfl⟩ fun _ => .inl rfl
  exact hhost.housed

theorem joined_staffed : Staffed p (p.joined s sampler) := by
  intro b script hs
  have hb : b ≠ p.agents.size := by
    rintro rfl
    rw [agents_size] at hs
    cases hs
  rw [joined_old hb, hs]

def replaced (p : Program) (a : AgentId) (sampler : Sampler) : Program :=
  (p.joined (p.agents a).store sampler).gone a

theorem replaced_new (h : a < p.agents.size) : (p.replaced a sampler).agents p.agents.size =
    ⟨(p.agents a).store, true, p.generation, .fresh, none, false, sampler, 0, 0, 0⟩ := by
  unfold replaced gone
  rw [amend_of_ne _ _ _ _ (Nat.ne_of_gt h), yieldSlot_agents]
  exact joined_new

theorem replaced_old (hb : b ≠ a) (h : b ≠ p.agents.size) :
    (p.replaced a sampler).agents b = p.agents b := by
  unfold replaced gone
  rw [amend_of_ne _ _ _ _ hb, yieldSlot_agents]
  exact joined_old h

theorem replaced_gone (h : a < p.agents.size) :
    (p.replaced a sampler).agents a = { p.agents a with alive := false } := by
  unfold replaced gone
  rw [amend_agents, if_pos rfl, yieldSlot_agents]
  exact congrArg (fun x : Agent => { x with alive := false }) (joined_old (Nat.ne_of_lt h))

theorem replaced_stores : (p.replaced a sampler).stores =
    (p.watched (p.agents a).store (.agent p.agents.size)).stores := by
  unfold replaced gone
  rw [amend_stores, yieldSlot_stores]
  rfl

theorem replaced_calls : (p.replaced a sampler).calls = p.calls := by
  unfold replaced gone
  rw [amend_calls, yieldSlot_calls]
  rfl

theorem replaced_tags (t : StoreId) : ((p.replaced a sampler).stores t).tags = (p.stores t).tags := by
  rw [replaced_stores, watched_stores]
  by_cases ht : t = (p.agents a).store
  · rw [if_pos ht, ht]
  · rw [if_neg ht]

theorem replaced_rest (hp : p.AtRest) (h : a < p.agents.size) (hrun : (p.agents a).phase ≠ .running) :
    (p.replaced a sampler).AtRest := by
  have hidle : ((p.joined (p.agents a).store sampler).agents a).phase ≠ .running := by
    rw [joined_old (Nat.ne_of_lt h)]
    exact hrun
  refine ((joined_rest hp).yielded hidle).dropped (.inl ?_)
  rw [yieldSlot_agents]
  exact hidle

theorem replaced_staffed : Staffed p (p.replaced a sampler) := by
  intro b script hs
  unfold replaced
  rw [gone_field _ a b Agent.sampler fun _ => rfl]
  exact joined_staffed b script hs

theorem dropAgent_idle (h : (p.agents a).phase ≠ .running) : (dropAgent a).on p = (.ok (), p.gone a) := by
  have hagent : (agent a).on p = (.ok (p.agents a), p) := rfl
  unfold dropAgent
  rw [on_protect, on_bind, hagent]
  dsimp only
  rw [if_neg h]
  rfl

def relieve (a : AgentId) (sampler : Sampler) : Act (Except AgentError Unit) := do
  if (← agent a).phase = .running then pure (.error .alreadyRunning)
  else
    let s ← storeOf a
    let b ← newAgentOn s sampler
    modify fun p => { p with hostAgent := some b }
    dropAgent a
    say .debug "Registered native sampler"
    pure (.ok ())

theorem registerSampler_eq (sampler : Sampler) :
    registerSampler sampler = current >>= fun a => relieve a sampler := by
  unfold registerSampler current relieve state
  simp only [bind_assoc, pure_bind]

theorem relieve_running (h : (p.agents a).phase = .running) :
    (relieve a sampler).on p = (.ok (.error .alreadyRunning), p) := by
  have hagent : (agent a).on p = (.ok (p.agents a), p) := rfl
  unfold relieve
  rw [on_bind, hagent]
  dsimp only
  rw [if_pos h]
  rfl

theorem relieve_idle (sampler : Sampler) (ha : p.Abreast a) (hsize : a < p.agents.size)
    (hrun : (p.agents a).phase ≠ .running) : ∃ installed notes notes', (relieve a sampler).on p = (.ok (.ok ()),
      ({ p with handlerInstalled := installed, notes := notes }.replaced a sampler).annotate notes') := by
  have hagent : (agent a).on p = (.ok (p.agents a), p) := rfl
  have hstore : (storeOf a).on p = (.ok (p.agents a).store, p) := by
    unfold storeOf
    rw [on_bind, teller.abreast ha]
    rfl
  obtain ⟨installed, notes, hnew⟩ := newAgentOn_on p (p.agents a).store sampler
  let before : Program := { p with handlerInstalled := installed, notes := notes }
  have hrow : (before.joined (p.agents a).store sampler).agents a = p.agents a :=
    joined_old (Nat.ne_of_lt hsize)
  have hidle : ((before.joined (p.agents a).store sampler).agents a).phase ≠ .running := by
    rw [hrow]
    exact hrun
  have hjoin : (modify fun p => { p with hostAgent := some before.agents.size } : Act Unit).on
      (before.housed (p.agents a).store sampler) = (.ok (), before.joined (p.agents a).store sampler) :=
    rfl
  unfold relieve
  rw [on_bind, hagent]
  dsimp only
  rw [if_neg hrun, on_bind, hstore]
  dsimp only
  rw [on_bind, hnew]
  dsimp only
  rw [on_bind, hjoin]
  dsimp only
  rw [on_bind, dropAgent_idle hidle]
  exact ⟨installed, notes, _, rfl⟩

theorem current_goes (hp : p.AtRest) (halive : ∀ a, p.hostAgent = some a → (p.agents a).alive = true) :
    Ends current p (fun a q => q.AtRest ∧ q.Abreast a ∧ a < q.agents.size) fun h q =>
      (∃ m, h = .panicked m) ∧ q.AtRest := by
  have decided : ∀ a q, q.AtRest → (q.agents a).alive = true → Ends (do tellAgent a; pure a) q
      (fun a q => q.AtRest ∧ q.Abreast a ∧ a < q.agents.size) fun h q =>
        (∃ m, h = .panicked m) ∧ q.AtRest := by
    intro a q hq ha
    rw [ends_bind]
    refine Ends.mono (tellAgent_goes hq.sound ha (hq.unlocked a)) ?_ fun h r ⟨hr, hh, _⟩ =>
      ⟨hh, hq.follows hr⟩
    exact fun _ r ⟨hr, hab⟩ => ⟨hq.follows hr, hab, size_of_alive ((hr.alive a).trans ha)⟩
  unfold current hosted
  rw [ends_bind, ends_bind, ends_get]
  cases hhost : p.hostAgent with
  | some a => exact decided a p hp (halive a hhost)
  | none =>
    obtain ⟨q, hon, hrest, -, ha, -⟩ := newAgent_on hp
    dsimp only
    rw [ends_bind, ends_of_on hon]
    exact decided _ _ (hrest.same ⟨rfl, rfl, rfl, rfl, fun _ => rfl⟩ fun _ => .inl rfl) ha

theorem relieve_rests (hp : p.AtRest) (ha : p.Abreast a) (hsize : a < p.agents.size) :
    Ends (relieve a sampler) p (fun _ q => q.AtRest) fun _ _ => False := by
  by_cases hrun : (p.agents a).phase = .running
  · exact (ends_of_on (relieve_running hrun)).2 hp
  · obtain ⟨installed, notes, notes', hon⟩ := relieve_idle sampler ha hsize hrun
    have hbefore : AtRest { p with handlerInstalled := installed, notes := notes } :=
      hp.same ⟨rfl, rfl, rfl, rfl, fun _ => rfl⟩ fun _ => .inl rfl
    rw [ends_of_on hon]
    exact (replaced_rest hbefore hsize hrun).same (Same.annotate _ _) fun _ => .inl rfl

theorem registerSampler_rests (hp : p.AtRest)
    (halive : ∀ a, p.hostAgent = some a → (p.agents a).alive = true) :
    Ends (registerSampler sampler) p (fun _ q => q.AtRest) fun h q => (∃ m, h = .panicked m) ∧ q.AtRest := by
  rw [registerSampler_eq, ends_bind]
  refine Ends.mono (current_goes hp halive) (fun a q ⟨hq, hab, hsize⟩ => ?_) fun _ _ h => h
  exact Ends.mono (relieve_rests hq hab hsize) (fun _ _ h => h) fun _ _ h => h.elim

end Program
end ProfilingAgent
