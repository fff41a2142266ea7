import ProfilingAgent.Proofs.Operations

set_option autoImplicit false

namespace ProfilingAgent

open Act Program

variable {p : Program} {a : AgentId}

theorem Program.AtRest.shows (hp : p.AtRest) (hc : p.Calm) {script : Script}
    (hs : (p.agents a).sampler = .scripted script) :
    Standing.Obeyed script (p.callsOf a) ∧
      ((p.agents a).phase = .running ↔ (Standing.ofCalls script (p.callsOf a)).active = true) ∧
      (p.agents a).settings = (Standing.ofCalls script (p.callsOf a)).applied := by
  have hst := (hp.sound.aligned hc a (hp.unlocked a)).stands
  rw [Stands.scripted hs] at hst
  obtain ⟨hobeyed, hstanding⟩ := hst
  rw [hstanding]
  exact ⟨hobeyed, by simp, rfl⟩

/-- If no sampler panics, then in every program that operations lead to, each sampler got only
calls that it may get, and each agent shows how its sampler stands. Every further operation returns
and takes each agent at most one step: to `configured` only from `fresh`, and to `stopped` only from
`running`. -/
theorem sampler_protocol (hp : Reachable p) (hc : p.Calm) :
    (∀ a script, (p.agents a).sampler = .scripted script →
      Standing.Obeyed script (p.callsOf a) ∧
        ((p.agents a).phase = .running ↔
          (Standing.ofCalls script (p.callsOf a)).active = true) ∧
        (p.agents a).settings = (Standing.ofCalls script (p.callsOf a)).applied) ∧
      ∀ op : Operation, op.Fits p → op.perform.on p = (.ok (), op.after p) ∧
        ∀ a, Phase.Steps (p.agents a).phase ((op.after p).agents a).phase :=
  ⟨fun _ _ hs => hp.atRest.shows hc hs, fun op hfits => op.returns hp.atRest hc hfits⟩

def Program.lapsed : Program :=
  (Operation.reconfigure 0 (.tagged "team" "b")).after
    ((Operation.start 0 (.tagged "team" "a")).after (manned (.failing fun n => n == 1)))

/-- The agent has stopped by then and shows the settings that its sampler was last started with. -/
theorem sampler_protocol_lapsed :
    Reachable lapsed ∧ lapsed.Calm ∧ (lapsed.agents 0).phase = .stopped ∧
      (lapsed.agents 0).settings = some (.tagged "team" "a") ∧
      Standing.Obeyed (.failing fun n => n == 1) (lapsed.callsOf 0) ∧
      (Standing.ofCalls (.failing fun n => n == 1) (lapsed.callsOf 0)).applied =
        some (.tagged "team" "a") := by
  have hreach : Reachable lapsed :=
    ((manned_reachable _).perform (.start 0 (.tagged "team" "a")) rfl).perform
      (.reconfigure 0 (.tagged "team" "b")) rfl
  have hcalm : lapsed.Calm := by
    intro a script hs
    cases a with
    | zero =>
      cases hs
      exact Script.failing_calm _
    | succ a => cases hs
  obtain ⟨hobeyed, -, happlied⟩ := (sampler_protocol hreach hcalm).1 0 _ rfl
  exact ⟨hreach, hcalm, rfl, rfl, hobeyed, happlied.symm.trans rfl⟩

end ProfilingAgent
