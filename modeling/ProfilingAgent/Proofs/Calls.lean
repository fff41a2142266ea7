import ProfilingAgent.Proofs.Telling

set_option autoImplicit false

namespace ProfilingAgent.Program

open Act

variable {tell : AgentId → Act Unit} {able : Prop} {free : Option AgentId} {p₀ p q : Program}
  {a : AgentId}

structure Kept (a : AgentId) (p q : Program) : Prop where
  phase : (q.agents a).phase = (p.agents a).phase
  settings : (q.agents a).settings = (p.agents a).settings
  locked : (q.agents a).locked = (p.agents a).locked
  slot : q.slot = some a ↔ p.slot = some a

namespace Kept

theorem trans {r : Program} (h : Kept a p q) (h' : Kept a q r) : Kept a p r where
  phase := h'.phase.trans h.phase
  settings := h'.settings.trans h.settings
  locked := h'.locked.trans h.locked
  slot := h'.slot.trans h.slot

theorem ebbs (h : Kept a p q) : Ebbs a p q := ⟨h.settings, .inl h.phase, h.slot.1⟩

theorem of_row (h : q.agents a = p.agents a) (hs : q.slot = some a ↔ p.slot = some a) :
    Kept a p q := ⟨by rw [h], by rw [h], by rw [h], hs⟩

end Kept

theorem Follows.kept (h : Follows none none p q) (hl : (p.agents a).locked = true) :
    q.agents a = p.agents a ∧ q.callsOf a = p.callsOf a ∧ Kept a p q := by
  obtain ⟨hrow, hcalls, hslot⟩ := h.spared a (by simp) hl
  exact ⟨hrow, hcalls, Kept.of_row hrow ⟨h.slot a (by simp), hslot⟩⟩

theorem exchange_goes (T : Teller tell able) (h : Follows (some a) free p₀ p)
    (hl : (p.agents a).locked = true) {s : StoreId} (hs : Ready able p s) {old new : List Tag}
    (hnew : ∀ t ∈ new, t.isValid = true) :
    Goes (some a) free p₀ (replaceGlobalsWith tell s old new) p (fun r q =>
      r = .ok () ∧ q.agents a = p.agents a ∧ q.callsOf a = p.callsOf a ∧ Kept a p q) :=
  ((replaceGlobals_goes T h.sound hs hnew).amid h).mono fun _ _ _ ⟨hq, hr, _⟩ => ⟨hr, hq.kept hl⟩

theorem carryOut_goes (T : Teller tell able) (hp : p.Sound) (ha : p.Abreast a)
    (hs : Ready able p (p.agents a).store) {r : Reply}
    (hr : ∀ m, r.ending = .panics m → ¬ p.Calm) :
    Goes none none p (carryOut tell a r) p (fun b _ => b = true ↔ r.ending = .succeeds) := by
  unfold carryOut
  have here : Goes none none p (agent a) p fun x q => x = p.agents a ∧ q = p :=
    ⟨Follows.refl hp, rfl, rfl⟩
  apply here.bind
  rintro x _ - ⟨rfl, rfl⟩
  apply (useAll_goes T hp hs ha r.uses).bind
  intro _ q hq _
  cases h : r.ending with
  | succeeds => exact ⟨hq, by simp⟩
  | fails => exact ⟨hq, by simp⟩
  | panics m => exact ⟨hq, ⟨m, rfl⟩, hr m h⟩

theorem answer_goes (T : Teller tell able) (h : Follows (some a) free p₀ p)
    (hl : (p.agents a).locked = true) (hs : Ready able p (p.agents a).store)
    {f : Agent → Agent} {c : SamplerCall} {r : Reply}
    (hf : ∀ x, (f x).store = x.store ∧ (f x).sampler = x.sampler ∧ (f x).alive = x.alive ∧
      (f x).seen = x.seen ∧ (f x).locked = x.locked)
    (hfp : ∀ x, (f x).phase = x.phase ∧ (f x).settings = x.settings) (hc : c.agent = a)
    (hreset : p₀.Abreast a → c ≠ .reset a) (hr : ∀ m, r.ending = .panics m → ¬ p.Calm) :
    Goes (some a) free p₀ (carryOut tell a r) ((p.amend a f).call c) (fun b q =>
      Kept a p q ∧ q.agents a = f (p.agents a) ∧ q.callsOf a = p.callsOf a ++ [c] ∧
        (b = true ↔ r.ending = .succeeds)) := by
  have ho : Own a p ((p.amend a f).call c) := (Own.amend hf).trans (Own.call hc)
  have hk : Kept a p ((p.amend a f).call c) := by
    refine ⟨?_, ?_, ?_, Iff.rfl⟩ <;> simp [hf, hfp]
  have hq : Follows (some a) free p₀ ((p.amend a f).call c) := by
    refine h.own hl ho (fun hrun => ?_) (fun _ => hk.ebbs) ?_
    · rw [hk.phase] at hrun
      exact h.sound.slotted a hrun
    · intro new hnew ha hmem
      have hn : [c] = new := by simpa using hnew
      subst hn
      exact hreset ha (List.mem_singleton.1 hmem).symm
  have hl' : (((p.amend a f).call c).agents a).locked = true := hk.locked.trans hl
  have hstore : (((p.amend a f).call c).agents a).store = (p.agents a).store := by simp [hf]
  have hs' : Ready able ((p.amend a f).call c) (((p.amend a f).call c).agents a).store := by
    rw [hstore]
    exact hs
  have go := carryOut_goes T hq.sound (hq.sound.held a hl') hs' (r := r)
    fun m hm hcalm => hr m hm (ho.calm.1 hcalm)
  refine (go.amid hq).mono fun b s _ ⟨hs', hb⟩ => ?_
  obtain ⟨hrow, hcalls, hk'⟩ := hs'.kept hl'
  refine ⟨hk.trans hk', hrow.trans (by simp), hcalls.trans ?_, hb⟩
  rw [callsOf_of_append (show ((p.amend a f).call c).calls = p.calls ++ [c] from rfl)]
  simp [hc]

theorem Calm.reply {script : Script} (h : (p.agents a).sampler = .scripted script) (n : Nat) :
    (∀ m, (script.onStart n).ending = .panics m → ¬ p.Calm) ∧
      (∀ m, (script.onStop n).ending = .panics m → ¬ p.Calm) ∧
        ∀ m, (script.onReset n).ending = .panics m → ¬ p.Calm :=
  ⟨fun m hm hc => (hc a script h n m).1 hm, fun m hm hc => (hc a script h n m).2.1 hm,
    fun m hm hc => (hc a script h n m).2.2 hm⟩

theorem Stands.scripted {script : Script} {st : Standing}
    (h : (p.agents a).sampler = .scripted script) :
    p.Stands a st ↔ Standing.Obeyed script (p.callsOf a) ∧
      Standing.ofCalls script (p.callsOf a) = st := by
  unfold Stands
  rw [h]

theorem Stands.call {script : Script} {st : Standing} {c : SamplerCall}
    (hsampler : (p.agents a).sampler = .scripted script) (h : p.Stands a st)
    (hsame : (q.agents a).sampler = (p.agents a).sampler)
    (hcalls : q.callsOf a = p.callsOf a ++ [c]) (hc : st.Permits c) :
    q.Stands a (st.after script c) := by
  rw [Stands.scripted hsampler] at h
  obtain ⟨hob, rfl⟩ := h
  rw [Stands.scripted (hsame.trans hsampler), hcalls]
  exact ⟨hob.concat hc, Standing.ofCalls_concat script _ c⟩

theorem callStart_goes (T : Teller tell able) (h : Follows (some a) free p₀ p)
    (hl : (p.agents a).locked = true) (hs : Ready able p (p.agents a).store) (c : Settings) :
    Goes (some a) free p₀ (callStart tell a c) p (fun b q => Kept a p q ∧
      ∀ applied, p.Stands a ⟨(p.agents a).starts, false, applied⟩ →
        q.Stands a ⟨(q.agents a).starts, b, if b = true then some c else applied⟩) := by
  unfold Goes callStart
  simp only [ends_bind, ends_agent]
  cases hsampler : (p.agents a).sampler with
  | idle =>
    refine ⟨h.annotate _, Kept.of_row rfl Iff.rfl, fun applied hst => ?_⟩
    unfold Stands at hst ⊢
    simp only [hsampler] at hst ⊢
    exact hst
  | scripted script =>
    simp only [ends_bind, ends_updateAgent, ends_globals, ends_record]
    refine (answer_goes T h hl hs (by simp) (by simp) rfl (by simp)
      (Calm.reply hsampler _).1).mono ?_
    rintro b q - ⟨hk, hrow, hcalls, hb⟩
    refine ⟨hk, fun applied hst => ?_⟩
    have hst' := hst.call hsampler (by rw [hrow]) hcalls rfl
    rw [hrow]
    by_cases hsucc : (script.onStart (p.agents a).starts).ending = .succeeds
    · rw [hb.2 hsucc]
      simpa [Standing.after, hsucc] using hst'
    · have hb' : b = false := Bool.eq_false_iff.2 fun h => hsucc (hb.1 h)
      rw [hb']
      simpa [Standing.after, hsucc] using hst'

theorem callStop_goes (T : Teller tell able) (h : Follows (some a) free p₀ p)
    (hl : (p.agents a).locked = true) (hs : Ready able p (p.agents a).store) :
    Goes (some a) free p₀ (callStop tell a) p (fun _ q => Kept a p q ∧
      ∀ applied, p.Stands a ⟨(p.agents a).starts, true, applied⟩ →
        q.Stands a ⟨(q.agents a).starts, false, applied⟩) := by
  unfold Goes callStop
  simp only [ends_bind, ends_agent]
  cases hsampler : (p.agents a).sampler with
  | idle =>
    refine ⟨h, Kept.of_row rfl Iff.rfl, fun applied hst => ?_⟩
    unfold Stands at hst ⊢
    rw [hsampler] at hst ⊢
    exact hst
  | scripted script =>
    simp only [ends_bind, ends_updateAgent, ends_globals, ends_record]
    refine (answer_goes T h hl hs (by simp) (by simp) rfl (by simp)
      (Calm.reply hsampler _).2.1).mono ?_
    rintro b q - ⟨hk, hrow, hcalls, -⟩
    refine ⟨hk, fun applied hst => ?_⟩
    have hst' := hst.call hsampler (by rw [hrow]) hcalls rfl
    rw [hrow]
    simpa [Standing.after] using hst'

theorem callReset_goes (T : Teller tell able) (h : Follows (some a) free p₀ p)
    (hl : (p.agents a).locked = true) (hs : Ready able p (p.agents a).store)
    (hnew : ¬ p₀.Abreast a) :
    Goes (some a) free p₀ (callReset tell a) p (fun _ q => Kept a p q ∧
      ∀ active applied, p.Stands a ⟨(p.agents a).starts, active, applied⟩ →
        q.Stands a ⟨(q.agents a).starts, false, applied⟩) := by
  unfold Goes callReset
  simp only [ends_bind, ends_agent]
  cases hsampler : (p.agents a).sampler with
  | idle =>
    refine ⟨h, Kept.of_row rfl Iff.rfl, fun active applied hst => ?_⟩
    unfold Stands at hst ⊢
    rw [hsampler] at hst ⊢
    exact hst
  | scripted script =>
    simp only [ends_bind, ends_updateAgent, ends_record, ends_discard]
    refine (answer_goes T h hl hs (by simp) (by simp) rfl (fun h => absurd h hnew)
      (Calm.reply hsampler _).2.2).mono ?_
    rintro b q - ⟨hk, hrow, hcalls, -⟩
    refine ⟨hk, fun active applied hst => ?_⟩
    have hst' := hst.call hsampler (by rw [hrow]) hcalls trivial
    rw [hrow]
    simpa [Standing.after] using hst'

end ProfilingAgent.Program
