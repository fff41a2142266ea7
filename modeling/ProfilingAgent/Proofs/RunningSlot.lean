import ProfilingAgent.Proofs.Operations
import ProfilingAgent.Proofs.Quiet

set_option autoImplicit false

namespace ProfilingAgent

open Act Program

namespace Program

variable {p q : Program} {a : AgentId}

theorem AtRest.slot_iff (hp : p.AtRest) (hc : p.Calm) :
    p.slot = some a ↔ (p.agents a).alive = true ∧ (p.agents a).phase = .running :=
  ⟨fun h => ⟨(hp.holder hc h).2, (hp.holder hc h).1⟩, fun h => hp.sound.slotted a h.2⟩

theorem AtRest.slot_eq_none_iff (hp : p.AtRest) (hc : p.Calm) :
    p.slot = none ↔ ∀ a, (p.agents a).phase ≠ .running := by
  constructor
  · intro h b hb
    rw [hp.sound.slotted b hb] at h
    cases h
  · intro h
    cases hs : p.slot with
    | none => rfl
    | some b => exact absurd (hp.holder hc hs).1 (h b)

theorem AtRest.other_iff (hp : p.AtRest) (hc : p.Calm) :
    (∃ b, b ≠ a ∧ p.slot = some b) ↔ ∃ b, b ≠ a ∧ (p.agents b).phase = .running := by
  constructor
  · rintro ⟨b, hb, hs⟩
    exact ⟨b, hb, (hp.holder hc hs).1⟩
  · rintro ⟨b, hb, hr⟩
    exact ⟨b, hb, hp.sound.slotted b hr⟩

/-- If samplers touch no store, handling a fork changes nothing about the other agents that run. -/
theorem tellAgent_others (hp : p.AtRest) (hquiet : p.Quiet) (hon : (tellAgent a).on p = (.ok (), q))
    (hq : Follows none none p q) {b : AgentId} (hb : b ≠ a) :
    (q.agents b).phase = .running ↔ (p.agents b).phase = .running := by
  by_cases hrun : (p.agents a).phase = .running
  · -- The agent itself runs, so nobody else does, before and after.
    have hne : (p.agents b).phase ≠ .running := by
      intro h
      have hs := (hp.sound.slotted b h).symm.trans (hp.sound.slotted a hrun)
      exact hb (Option.some.inj hs)
    refine ⟨fun h => ?_, fun h => absurd h hne⟩
    rcases hq.phase b (by simp) with h' | ⟨h', _⟩
    · exact h'.symm.trans h
    · exact h'
  · have hidle : Ends (tellAgent a) p (fun _ q => ∃ new, Called new p q ∧ ∀ k ∈ new, k = .reset a)
        fun _ _ => True := by
      unfold tellAgent
      rw [ends_discard]
      exact applyFork_idle teller_two hquiet hrun (hp.unlocked a)
    rw [ends_of_on hon] at hidle
    obtain ⟨new, hcalled, -⟩ := hidle
    rw [hcalled.phase]

theorem others_iff (hp : p.AtRest) (hsee : p.Abreast a ∨ p.Quiet)
    (hon : (tellAgent a).on p = (.ok (), q)) (hq : Follows none none p q) :
    (∃ b, b ≠ a ∧ (q.agents b).phase = .running) ↔ ∃ b, b ≠ a ∧ (p.agents b).phase = .running := by
  rcases hsee with hab | hquiet
  · rw [teller.abreast hab] at hon
    rw [← (Prod.mk.inj hon).2]
  · constructor
    · rintro ⟨b, hb, hr⟩
      exact ⟨b, hb, (tellAgent_others hp hquiet hon hq hb).1 hr⟩
    · rintro ⟨b, hb, hr⟩
      exact ⟨b, hb, (tellAgent_others hp hquiet hon hq hb).2 hr⟩

theorem startAgent_ends (hp : p.AtRest) (hc : p.Calm) (halive : (p.agents a).alive = true)
    (c : Settings) : ∃ p₁ r q, (tellAgent a).on p = (.ok (), p₁) ∧
      (startAgent a c).on p = (.ok r, q) ∧ Follows none none p p₁ ∧ Follows none (some a) p₁ q ∧
        StartEnds a p₁ r q := by
  have hgo := Ends.here (startAgent_goes hp.sound halive (hp.unlocked a) (c := c))
  unfold Ends at hgo
  rcases hx : (startAgent a c).on p with ⟨r | r, q⟩
  · rw [hx] at hgo
    exact absurd hc hgo.1.2.2
  · rw [hx] at hgo
    obtain ⟨⟨-, -, p₁, hon, hp₁, hq, hend⟩, -⟩ := hgo
    exact ⟨p₁, r, q, hon, rfl, hp₁, hq, hend⟩

/-- A start that is not refused leaves the agent with the slot, or leaves the slot free. -/
theorem AtRest.start_frees {r : Except AgentError Unit} (hp : p.AtRest) (hc : p.Calm)
    (hq : Follows none (some a) p q) (hend : StartEnds a p r q)
    (hne : r ≠ .error .alreadyRunning) :
    r = .ok () ∧ q.slot = some a ∨ (∃ m, r = .error (.startup m)) ∧ q.slot = none := by
  have hrest := hp.follows hq
  cases hend with
  | refused _ _ _ _ => exact absurd rfl hne
  | running _ hphase => exact .inl ⟨rfl, hrest.sound.slotted a hphase⟩
  | failed h _ hrun _ =>
    refine .inr ⟨⟨_, rfl⟩, (hrest.slot_eq_none_iff (hq.calm.2 hc)).2 fun b hb => ?_⟩
    have hba : b ≠ a := by
      rintro rfl
      exact hrun hb
    -- Another agent that runs now ran before, and had the slot.
    have hbefore : (p.agents b).phase = .running := by
      rcases hq.phase b (by simpa using hba) with hsame | ⟨hbefore, _⟩
      · exact hsame.symm.trans hb
      · exact hbefore
    exact h b hba (hp.sound.slotted b hbefore)

theorem slot_eq_none (hs : p.slot = some a) (hafter : ∀ b, q.slot = some b → p.slot = some b)
    (ha : q.slot ≠ some a) : q.slot = none := by
  cases hq : q.slot with
  | none => rfl
  | some b =>
    have hb := (hafter b hq).symm.trans hs
    rw [hq, hb] at ha
    exact absurd rfl ha

theorem AtRest.stop_frees (hp : p.AtRest) (hc : p.Calm) (halive : (p.agents a).alive = true)
    (hrun : (p.agents a).phase = .running) : ((Operation.stop a).after p).slot = none := by
  have hs := hp.sound.slotted a hrun
  have hstop : Ends (Operation.stop a).perform p (fun _ q => q.slot = none) fun _ q => q.slot = none := by
    unfold Operation.perform
    rw [ends_discard]
    refine Ends.mono (stopAgent_goes hp.sound halive (hp.unlocked a)) ?_ ?_
    · rintro _ q ⟨hq, -, hne⟩
      refine slot_eq_none hs (fun b => hq.slot b (by simp)) fun h => hne ?_
      exact ((hp.follows hq).holder (hq.calm.2 hc) h).1
    · exact fun _ _ h => absurd hc h.2.2
  exact hstop.left

theorem AtRest.drop_frees (hp : p.AtRest) (hc : p.Calm) (halive : (p.agents a).alive = true)
    (hrun : (p.agents a).phase = .running) : ((Operation.drop a).after p).slot = none := by
  have hs := hp.sound.slotted a hrun
  have hdrop : Ends (Operation.drop a).perform p (fun _ q => q.slot = none) fun _ q => q.slot = none := by
    refine Ends.mono (dropAgent_ends hp.sound halive (hp.unlocked a)) ?_ ?_
    · rintro _ _ ⟨q, hq, -, rfl⟩
      refine slot_eq_none hs (fun b hb => ?_) fun hb => ?_
      · exact hq.slot b (by simp) ((yieldSlot_slot q a b).1 hb).1
      · exact ((yieldSlot_slot q a a).1 hb).2 rfl
    · rintro _ _ ⟨q, -, hbroken, -⟩
      exact absurd hc hbroken.2
  exact hdrop.left

theorem AtRest.handleFork_frees (hp : p.AtRest) (halive : (p.agents a).alive = true)
    (hrun : (p.agents a).phase = .running) :
    ((Operation.handleFork a).after p).slot = some a ∨
      ((Operation.handleFork a).after p).slot = none := by
  have hs := hp.sound.slotted a hrun
  have after : ∀ q, Follows none none p q → q.slot = some a ∨ q.slot = none := by
    intro q hq
    by_cases hqa : q.slot = some a
    · exact .inl hqa
    · exact .inr (slot_eq_none hs (fun b => hq.slot b (by simp)) hqa)
  have hfork : Ends (Operation.handleFork a).perform p (fun _ q => q.slot = some a ∨ q.slot = none)
      fun _ q => q.slot = some a ∨ q.slot = none := by
    unfold Operation.perform
    rw [ends_discard]
    exact Ends.mono (handleFork_goes hp.sound halive (hp.unlocked a)).1 (fun _ q h => after q h.1)
      fun _ q h => after q h.1
  exact hfork.left

end Program

variable {p : Program}

/-- In every program that operations lead to, whoever runs has the slot, so one agent at most runs.
If no sampler panics, then moreover the slot is taken exactly by a living agent that runs. A start
handles a fork that is pending first, and is refused then exactly if another agent runs; that is the
same as before the start if no fork was pending or samplers touch no store. A start that is not
refused leaves the agent with the slot or leaves the slot free, and a running agent that is stopped
or dropped, or that handles a fork and does not go on, leaves the slot free. -/
theorem running_slot (hp : Reachable p) :
    (∀ a, (p.agents a).phase = .running → p.slot = some a) ∧
      (∀ a b, (p.agents a).phase = .running → (p.agents b).phase = .running → a = b) ∧
      (p.Calm →
        (∀ a, p.slot = some a ↔ (p.agents a).alive = true ∧ (p.agents a).phase = .running) ∧
        ∀ a c, (p.agents a).alive = true → ∃ p₁ r q, (tellAgent a).on p = (.ok (), p₁) ∧
          (startAgent a c).on p = (.ok r, q) ∧
          (r = .error .alreadyRunning ↔ ∃ b, b ≠ a ∧ (p₁.agents b).phase = .running) ∧
          (p.Abreast a ∨ p.Quiet →
            (r = .error .alreadyRunning ↔ ∃ b, b ≠ a ∧ (p.agents b).phase = .running)) ∧
          (r ≠ .error .alreadyRunning →
            r = .ok () ∧ q.slot = some a ∨ (∃ m, r = .error (.startup m)) ∧ q.slot = none) ∧
          ((p.agents a).phase = .running →
            ((Operation.stop a).after p).slot = none ∧ ((Operation.drop a).after p).slot = none ∧
              (((Operation.handleFork a).after p).slot = some a ∨
                ((Operation.handleFork a).after p).slot = none))) := by
  have hrest := hp.atRest
  refine ⟨hrest.sound.slotted, fun a b ha hb => ?_, fun hc => ⟨fun a => hrest.slot_iff hc, ?_⟩⟩
  · have hs := (hrest.sound.slotted a ha).symm.trans (hrest.sound.slotted b hb)
    exact Option.some.inj hs
  intro a c halive
  obtain ⟨p₁, r, q, hon, hstart, hp₁, hq, hend⟩ := startAgent_ends hrest hc halive c
  have hrest₁ := hrest.follows hp₁
  have hc₁ : p₁.Calm := hp₁.calm.2 hc
  have hrefused : r = .error .alreadyRunning ↔ ∃ b, b ≠ a ∧ (p₁.agents b).phase = .running :=
    hend.refused_iff.trans (hrest₁.other_iff hc₁)
  refine ⟨p₁, r, q, hon, hstart, hrefused, fun hsee => ?_, fun hne => ?_, fun hrun => ⟨?_, ?_, ?_⟩⟩
  · exact hrefused.trans (others_iff hrest hsee hon hp₁)
  · exact hrest₁.start_frees hc₁ hq hend hne
  · exact hrest.stop_frees hc halive hrun
  · exact hrest.drop_frees hc halive hrun
  · exact hrest.handleFork_frees halive hrun

/-- One agent runs when another one is added, on a store of its own. -/
def Program.contended : Program :=
  (Operation.newAgent 1 (.scripted (.failing fun _ => false))).after
    ((Operation.start 0 (.tagged "team" "a")).after (manned (.failing fun _ => false)))

/-- The agent that runs does not go on in the child of a fork. -/
def Program.vacated : Program := (Operation.handleFork 0).after (Operation.fork.after contended)

theorem contended_calm : contended.Calm := by
  intro a script hs
  rcases a with - | - | a <;> cases hs <;> exact Script.failing_calm _

theorem vacated_calm : vacated.Calm := by
  refine (Calm.congr fun b => ?_).2 contended_calm
  rcases b with - | - | b <;> rfl

/-- The other agent is refused as long as the first one runs, and can start once a fork left that one inert. -/
theorem running_slot_contended :
    Reachable contended ∧ contended.Calm ∧ contended.slot = some 0 ∧
      (∃ q, (startAgent 1 (.tagged "team" "b")).on contended = (.ok (.error .alreadyRunning), q)) ∧
    Reachable vacated ∧ vacated.Calm ∧ (vacated.agents 0).phase = .stopped ∧ vacated.slot = none ∧
      ∃ q, (startAgent 1 (.tagged "team" "b")).on vacated = (.ok (.ok ()), q) ∧ q.slot = some 1 := by
  have hreach : Reachable contended :=
    ((manned_reachable _).perform (.start 0 (.tagged "team" "a")) rfl).perform
      (.newAgent 1 (.scripted (.failing fun _ => false))) trivial
  have hvacated : Reachable vacated := (hreach.perform .fork trivial).perform (.handleFork 0) rfl
  obtain ⟨hslot, -, hcalmly⟩ := running_slot hreach
  obtain ⟨p₁, r, q, -, hon, -, hrefused, -⟩ := (hcalmly contended_calm).2 1 (.tagged "team" "b") rfl
  have hr : r = .error .alreadyRunning := (hrefused (.inl rfl)).2 ⟨0, by decide, rfl⟩
  obtain ⟨-, -, hcalmly'⟩ := running_slot hvacated
  obtain ⟨p₁', r', q', -, hon', -, -, hfree, -⟩ := (hcalmly' vacated_calm).2 1 (.tagged "team" "b") rfl
  have hr' : r' = .ok () := Except.ok.inj (congrArg Prod.fst hon').symm
  obtain ⟨-, htaken⟩ | ⟨⟨m, hfailed⟩, -⟩ := hfree (by rw [hr']; nofun)
  · exact ⟨hreach, contended_calm, hslot 0 rfl, ⟨q, hr ▸ hon⟩, hvacated, vacated_calm, rfl, rfl, q', hr' ▸ hon', htaken⟩
  · rw [hr'] at hfailed
    cases hfailed

end ProfilingAgent
