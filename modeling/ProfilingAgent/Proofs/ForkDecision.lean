import ProfilingAgent.Proofs.EntryPoints

set_option autoImplicit false

namespace ProfilingAgent

open Act Program

namespace Program

variable {α : Type} {tell : AgentId → Act Unit} {able : Prop} {p p₀ q : Program} {a : AgentId}
  {s : StoreId} {x : Act α} {script : Script}

def warned (p : Program) (a : AgentId) : Program :=
  (p.amend a fun x => { x with resets := x.resets + 1 }).call (.reset a)

theorem decideFork_resets (N : Teller tell able) (hp : p.Sound) (hl : (p.agents a).locked = true)
    (hs : Ready able p (p.agents a).store) (hsampler : (p.agents a).sampler = .scripted script) :
    Goes (some a) none (p.warned a) (decideFork tell a) p fun _ _ => True := by
  have ho : Own a p (p.warned a) := (Own.amend (by simp)).trans (Own.call rfl)
  have hphase : ((p.warned a).agents a).phase = (p.agents a).phase := by simp [warned]
  have hsound : (p.warned a).Sound := by
    refine ho.sound hp hl fun hrun => hp.slotted a ?_
    rw [← hphase, hrun]
  have hl' : ((p.warned a).agents a).locked = true := ho.locked.trans hl
  have hs' : Ready able (p.warned a) ((p.warned a).agents a).store := by
    rw [ho.store]
    exact hs
  have hsampler' : ((p.warned a).agents a).sampler = .scripted script := ho.sampler.trans hsampler
  have habreast : (p.warned a).Abreast a := hsound.held a hl'
  have hown : Follows (some a) none (p.warned a) (p.warned a) := by
    apply Follows.here hsound
    intro b hb
    rw [Option.some.inj hb]
    exact habreast
  unfold Goes decideFork callReset
  simp only [ends_bind, ends_agent]
  rw [hsampler]
  simp only [ends_bind, ends_updateAgent, ends_record, ends_discard]
  have go := carryOut_goes N hsound habreast hs' (Calm.reply hsampler' (p.agents a).resets).2.2
  refine Ends.mono (go.amid hown) ?_ fun _ _ h => h
  rintro _ r ⟨hr, hfree, -⟩
  have hlr : (r.agents a).locked = true := (hfree.kept hl').2.2.locked.trans hl'
  exact (carryOn_goes N hr hlr hs').mono fun _ _ _ _ => trivial

/-- Handling a fork that is pending resets the sampler, and does so once. -/
theorem handleFork_resets (hp : p.Sound) (hl : (p.agents a).locked = false) (ha : ¬ p.Abreast a)
    (hsampler : (p.agents a).sampler = .scripted script) :
    ∃ rest, ((handleFork a).on p).2.calls = p.calls ++ .reset a :: rest ∧
      SamplerCall.reset a ∉ rest := by
  have hq : Follows (some a) none p (p.deciding a) := .deciding hp
  have hdecide := decideFork_resets teller_two hq.sound (by simp [deciding]) (.inl trivial)
    ((hq.sampler a).trans hsampler)
  have told : ∀ r, Follows (some a) none ((p.deciding a).warned a) r →
      ∃ rest, r.calls = p.calls ++ .reset a :: rest ∧ SamplerCall.reset a ∉ rest := by
    intro r hr
    obtain ⟨rest, hrest, hnone⟩ := hr.calls
    refine ⟨rest, ?_, hnone a ?_⟩
    · rw [hrest]
      unfold warned
      rw [call_calls, amend_calls, List.append_assoc]
      rfl
    · simp [Abreast, warned, deciding]
  have hends : Ends (handleFork a) p
      (fun _ r => ∃ rest, r.calls = p.calls ++ .reset a :: rest ∧ SamplerCall.reset a ∉ rest)
      fun _ r => ∃ rest, r.calls = p.calls ++ .reset a :: rest ∧ SamplerCall.reset a ∉ rest := by
    refine (ends_applyFork ha hl).2 ?_
    exact Ends.mono hdecide (fun _ r hr => told r hr.1) fun _ r hr => told r hr.1
  exact hends.left

def forked (p : Program) : Nat → Program
  | 0 => p
  | k + 1 => Operation.fork.after (p.forked k)

theorem forked_eq (p : Program) (k : Nat) :
    p.forked k = { p with generation := p.generation + k } := by
  induction k with
  | zero => rfl
  | succ k ih =>
    unfold forked
    rw [ih]
    rfl

theorem forked_reachable (hp : Reachable p) (k : Nat) : Reachable (p.forked k) := by
  induction k with
  | zero => exact hp
  | succ k ih => exact ih.perform .fork trivial

theorem forked_not_abreast (ha : p.Abreast a) (k : Nat) : ¬ (p.forked (k + 1)).Abreast a := by
  have hseen : (p.agents a).seen = p.generation := ha
  rw [forked_eq]
  unfold Abreast
  dsimp only
  omega

/-- An action applies the decision about a fork before anything else, and once. -/
structure DecidesFirst (a : AgentId) (p : Program) (x : Act α) : Prop where
  result : (x.on p).1 = ((handleFork a >>= fun _ => x).on p).1
  calls : (x.on p).2.calls = ((handleFork a >>= fun _ => x).on p).2.calls
  /-- What is left is the same as well, except that after a panic the store may have looked for
  forks. -/
  left : Alike (x.on p).2 ((handleFork a >>= fun _ => x).on p).2 ∨
    (∃ h, ((handleFork a).on p).1 = .error h) ∧
      (x.on p).2 = ((handleFork a >>= fun _ => x).on p).2.mark (p.agents a).store
  returns : p.Calm → (∃ r, (x.on p).1 = .ok r) ∧
    Alike (x.on p).2 ((handleFork a >>= fun _ => x).on p).2
  settled : (handleFork a).on (x.on p).2 = (.ok none, (x.on p).2)
  spared : p.Abreast a → ∃ new, (x.on p).2.calls = p.calls ++ new ∧ SamplerCall.reset a ∉ new
  /-- If one is, the sampler is reset once, when the fork is handled and before any other call. -/
  once : ¬ p.Abreast a → ∀ script, (p.agents a).sampler = .scripted script → ∃ rest more,
    ((handleFork a).on p).2.calls = p.calls ++ .reset a :: rest ∧
      (x.on p).2.calls = p.calls ++ .reset a :: (rest ++ more) ∧
      SamplerCall.reset a ∉ rest ++ more

theorem handleFork_follows (hp : p.AtRest) (halive : (p.agents a).alive = true) :
    Follows none none p ((handleFork a).on p).2 := by
  have hgo := (handleFork_goes hp.sound halive (hp.unlocked a)).1
  exact (Ends.mono hgo (fun _ _ h => h.1) fun _ _ h => h.1).left

theorem handled_goes (hx : EntryPoint a s x) (hp : p.AtRest) (halive : (p.agents a).alive = true) :
    Goes none (some a) ((handleFork a).on p).2 (handleFork a >>= fun _ => x) p fun _ _ => True := by
  have ht := handleFork_follows hp halive
  have hgo := (handleFork_goes hp.sound halive (hp.unlocked a)).1
  unfold Goes Ends at hgo ⊢
  rw [on_bind]
  rcases hon : (handleFork a).on p with ⟨h | r, t⟩
  · rw [hon] at hgo ht
    obtain ⟨-, hh, hc⟩ := hgo
    exact ⟨(Follows.refl ht.sound).widen _, hh, fun h => hc (ht.calm.1 h)⟩
  · rw [hon] at ht
    have hl : (t.agents a).locked = false := (ht.locked a (by simp)).trans (hp.unlocked a)
    exact hx.goes ht.sound ((ht.alive a).trans halive) hl

end Program

/-- Entry points decide first, and leave what is left if the fork is handled first. -/
theorem EntryPoint.decides {α : Type} {x : Act α} {p : Program} {a : AgentId} {s : StoreId}
    (hx : EntryPoint a s x) (hp : p.AtRest) (halive : (p.agents a).alive = true)
    (hw : (p.stores s).hook.watcher = some (.agent a)) (hs : (p.agents a).store = s) :
    DecidesFirst a p x ∧ Same ((handleFork a >>= fun _ => x).on p).2 (x.on p).2 ∧
      Follows none (some a) ((handleFork a).on p).2 ((handleFork a >>= fun _ => x).on p).2 := by
  obtain ⟨r, q, q', hon, hfirst, hq⟩ := hx.forestalls hp halive hw hs
  have hgo := handled_goes hx hp halive
  have hfollow := (Ends.mono hgo (fun _ _ h => h.1) fun _ _ h => h.1).left
  rw [hfirst] at hfollow
  obtain ⟨hforked, habreast⟩ := handleFork_goes hp.sound halive (hp.unlocked a)
  have hhandled := handleFork_follows hp halive
  have hsame : Same q' q := by
    rcases hq with hq | ⟨-, rfl⟩
    · exact hq.same
    · exact Same.mark q' s
  obtain ⟨more, hmore, hnone⟩ := hfollow.calls
  have hcalls : q.calls = ((handleFork a).on p).2.calls ++ more := hsame.calls.trans hmore
  -- A sampler panicked if there is no result.
  have broken : p.Calm → ∃ v, r = .ok v := by
    intro hc
    cases r with
    | ok v => exact ⟨v, rfl⟩
    | error h =>
      unfold Goes Ends at hgo
      rw [hfirst] at hgo
      exact absurd (hhandled.calm.2 hc) hgo.2.2
  have hends : DecidesFirst a p x :=
    { result := by rw [hon, hfirst]
      calls := by
        rw [hon, hfirst]
        exact hsame.calls
      left := by
        rw [hon, hfirst, hs]
        refine hq.imp_right fun ⟨⟨h, hh⟩, hmark⟩ => ⟨⟨h, ?_⟩, hmark⟩
        rw [hh]
      returns := fun hc => by
        rw [hon, hfirst]
        refine ⟨broken hc, hq.resolve_right ?_⟩
        rintro ⟨⟨h, hh⟩, -⟩
        obtain ⟨v, rfl⟩ := broken hc
        rw [on_bind, hh] at hfirst
        cases hfirst
      settled := by
        rw [hon]
        exact handleFork_abreast ((hsame.abreast a).2 (hfollow.abreast a habreast))
      spared := fun ha => by
        rw [hon]
        have hsettled := handleFork_abreast ha
        rw [hsettled] at hcalls
        rw [hsettled] at hnone
        exact ⟨more, hcalls, hnone a ha⟩
      once := fun ha script hsampler => by
        obtain ⟨rest, hrest, hreset⟩ := handleFork_resets hp.sound (hp.unlocked a) ha hsampler
        refine ⟨rest, more, hrest, ?_, ?_⟩
        · rw [hon, hcalls, hrest, List.append_assoc, List.cons_append]
        · rw [List.mem_append]
          rintro (h | h)
          · exact hreset h
          · exact hnone a habreast h }
  rw [hon, hfirst]
  exact ⟨hends, hsame, hfollow⟩

/-- In every program that operations lead to, and however many forks are pending: what is asked of a
living agent, or of its store while this tells the agent about forks, decides about the forks first.
If any number of forks happens afterwards, then the next thing that is asked resets the sampler once,
and does so before any other call. -/
theorem fork_decided_first_once {α : Type} {x : Act α} {p : Program} {a : AgentId}
    (hp : Reachable p) (halive : (p.agents a).alive = true)
    (hw : (p.stores (p.agents a).store).hook.watcher = some (.agent a))
    (hx : EntryPoint a (p.agents a).store x) :
    DecidesFirst a p x ∧ ∀ (k : Nat) (β : Type) (y : Act β), EntryPoint a (p.agents a).store y →
      DecidesFirst a ((x.on p).2.forked (k + 1)) y ∧
        ∀ script, (p.agents a).sampler = .scripted script →
          ∃ rest, (y.on ((x.on p).2.forked (k + 1))).2.calls =
            (x.on p).2.calls ++ .reset a :: rest ∧ SamplerCall.reset a ∉ rest := by
  obtain ⟨hdecides, hsame, hfollow⟩ := hx.decides hp.atRest halive hw rfl
  have hhandled := handleFork_follows hp.atRest halive
  refine ⟨hdecides, fun k β y hy => ?_⟩
  obtain ⟨op, hfits, hafter⟩ := hx.operation
  have hq : Reachable ((x.on p).2.forked (k + 1)) := by
    rw [← hafter]
    exact forked_reachable (hp.perform op (hfits p halive)) (k + 1)
  have habreast : (x.on p).2.Abreast a := by
    refine (hsame.abreast a).2 (hfollow.abreast a ?_)
    exact (handleFork_goes hp.atRest.sound halive (hp.atRest.unlocked a)).2
  have hbehind := forked_not_abreast habreast k
  have hagents : ((x.on p).2.forked (k + 1)).agents =
      ((handleFork a >>= fun _ => x).on p).2.agents := by
    rw [forked_eq]
    exact hsame.agents
  have hwatcher : (((x.on p).2.forked (k + 1)).stores (p.agents a).store).hook.watcher =
      some (.agent a) := by
    rw [forked_eq]
    exact (hsame.watcher _).trans ((hfollow.watcher _).trans ((hhandled.watcher _).trans hw))
  have hcalls : ((x.on p).2.forked (k + 1)).calls = (x.on p).2.calls := by rw [forked_eq]
  have hnext := (hy.decides hq.atRest (by rw [hagents, hfollow.alive, hhandled.alive, halive])
    hwatcher (by rw [hagents, hfollow.store, hhandled.store])).1
  refine ⟨hnext, fun script hsampler => ?_⟩
  have hsampler' : (((x.on p).2.forked (k + 1)).agents a).sampler = .scripted script := by
    rw [hagents, hfollow.sampler, hhandled.sampler, hsampler]
  obtain ⟨rest, more, -, honce, hreset⟩ := hnext.once hbehind script hsampler'
  rw [hcalls] at honce
  exact ⟨rest ++ more, honce, hreset⟩

def Program.pending : Program :=
  ((Operation.start 0 (.tagged "team" "a")).after (manned (.failing fun _ => false))).forked 2

/-- Whoever adds a global tag then has the sampler reset, once, and first. -/
theorem fork_decided_first_once_pending :
    Reachable pending ∧ (pending.agents 0).alive = true ∧
      (pending.stores (pending.agents 0).store).hook.watcher = some (.agent 0) ∧
      ¬ pending.Abreast 0 ∧ DecidesFirst 0 pending (addGlobal 0 ⟨"zone", "b"⟩) ∧
      ∃ rest, ((addGlobal 0 ⟨"zone", "b"⟩).on pending).2.calls =
        pending.calls ++ .reset 0 :: rest ∧ SamplerCall.reset 0 ∉ rest := by
  have hreach : Reachable pending :=
    forked_reachable ((manned_reachable _).perform (.start 0 (.tagged "team" "a")) rfl) 2
  have hbehind : ¬ pending.Abreast 0 := by
    intro h
    cases h
  obtain ⟨hdecides, -⟩ := fork_decided_first_once (a := 0) hreach rfl rfl
    (EntryPoint.addGlobal ⟨"zone", "b"⟩)
  obtain ⟨rest, more, -, honce, hreset⟩ := hdecides.once hbehind _ rfl
  exact ⟨hreach, rfl, rfl, hbehind, hdecides, rest ++ more, honce, hreset⟩

end ProfilingAgent
