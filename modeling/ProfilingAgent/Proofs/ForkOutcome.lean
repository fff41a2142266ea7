import ProfilingAgent.Proofs.Deciding

set_option autoImplicit false

namespace ProfilingAgent.Program

open Act

variable {tell : AgentId → Act Unit} {able : Prop} {free : Option AgentId} {p₀ p q r : Program}
  {a : AgentId}

def Starts (p : Program) (a : AgentId) : Prop :=
  match (p.agents a).sampler with
  | .idle => True
  | .scripted script => (script.onStart (p.agents a).starts).ending = .succeeds

def recorded (p : Program) (a : AgentId) (calls : List SamplerCall) : List SamplerCall :=
  match (p.agents a).sampler with
  | .idle => []
  | .scripted _ => calls

theorem recorded_append (p : Program) (a : AgentId) (calls more : List SamplerCall) :
    p.recorded a calls ++ p.recorded a more = p.recorded a (calls ++ more) := by
  unfold recorded
  cases (p.agents a).sampler <;> rfl

theorem recorded_congr (h : (q.agents a).sampler = (p.agents a).sampler) (calls : List SamplerCall) :
    q.recorded a calls = p.recorded a calls := by
  unfold recorded
  rw [h]

theorem starts_congr (h : (q.agents a).sampler = (p.agents a).sampler)
    (hstarts : (q.agents a).starts = (p.agents a).starts) : q.Starts a ↔ p.Starts a := by
  unfold Starts
  rw [h, hstarts]

/-- What a fork makes of an agent, with the calls that its sampler gets and the tags that come off. -/
inductive Outcome (a : AgentId) (p q : Program) :
    Option ForkAction → List SamplerCall → List Tag → Prop
  | idle (hrun : (p.agents a).phase ≠ .running) (hphase : (q.agents a).phase = (p.agents a).phase) :
    Outcome a p q none [.reset a] []
  | inert {c : Settings} (hrun : (p.agents a).phase = .running) (hset : (p.agents a).settings = some c)
    (hdetect : c.detectSubprocesses = false) (hphase : (q.agents a).phase = .stopped) :
    Outcome a p q (some .inert) [.reset a] c.validTags
  | restarted {c : Settings} {globals : List Tag} (hrun : (p.agents a).phase = .running)
    (hset : (p.agents a).settings = some c) (hdetect : c.detectSubprocesses = true)
    (hstarts : p.Starts a) (hphase : (q.agents a).phase = .running) :
    Outcome a p q (some .restart) [.reset a, .start a c globals] []
  | failed {c : Settings} {globals : List Tag} (hrun : (p.agents a).phase = .running)
    (hset : (p.agents a).settings = some c) (hdetect : c.detectSubprocesses = true)
    (hstarts : ¬ p.Starts a) (hphase : (q.agents a).phase = .stopped) :
    Outcome a p q (some .restart) [.reset a, .start a c globals] c.validTags

theorem callReset_leaves (T : Teller tell able) (h : Follows (some a) free p₀ p)
    (hl : (p.agents a).locked = true) (hs : Ready able p (p.agents a).store)
    (hnew : ¬ p₀.Abreast a) :
    Goes (some a) free p₀ (callReset tell a) p (fun _ q => Kept a p q ∧
      (q.agents a).starts = (p.agents a).starts ∧
      q.callsOf a = p.callsOf a ++ p.recorded a [.reset a]) := by
  unfold Goes callReset recorded
  simp only [ends_bind, ends_agent]
  cases hsampler : (p.agents a).sampler with
  | idle => exact ⟨h, Kept.of_row rfl Iff.rfl, rfl, by simp⟩
  | scripted script =>
    simp only [ends_bind, ends_updateAgent, ends_record, ends_discard]
    refine (answer_goes T h hl hs (by simp) (by simp) rfl (fun h => absurd h hnew)
      (Calm.reply hsampler _).2.2).mono ?_
    rintro b q - ⟨hk, hrow, hcalls, -⟩
    exact ⟨hk, by rw [hrow], hcalls⟩

theorem callStart_leaves (T : Teller tell able) (h : Follows (some a) free p₀ p)
    (hl : (p.agents a).locked = true) (hs : Ready able p (p.agents a).store) (c : Settings) :
    Goes (some a) free p₀ (callStart tell a c) p (fun b q => Kept a p q ∧ (b = true ↔ p.Starts a) ∧
      ∃ globals, q.callsOf a = p.callsOf a ++ p.recorded a [.start a c globals]) := by
  unfold Goes callStart recorded Starts
  simp only [ends_bind, ends_agent]
  cases hsampler : (p.agents a).sampler with
  | idle => exact ⟨h.annotate _, Kept.of_row rfl Iff.rfl, by simp, [], by simp [callsOf]⟩
  | scripted script =>
    simp only [ends_bind, ends_updateAgent, ends_globals, ends_record]
    refine (answer_goes T h hl hs (by simp) (by simp) rfl (by simp)
      (Calm.reply hsampler _).1).mono ?_
    rintro b q - ⟨hk, -, hcalls, hb⟩
    exact ⟨hk, hb, _, hcalls⟩

structure Decided (a : AgentId) (p q : Program) (action : Option ForkAction)
    (calls : List SamplerCall) (off : List Tag) : Prop where
  outcome : Outcome a p q action calls off
  settings : (q.agents a).settings = (p.agents a).settings
  calls : q.callsOf a = p.callsOf a ++ p.recorded a calls
  slot : (p.agents a).phase = .running → (q.agents a).phase ≠ .running → q.slot ≠ some a

theorem carryOn_decides (T : Teller tell able) (h : Follows (some a) none p₀ p)
    (hl : (p.agents a).locked = true) (hs : Ready able p₀ (p₀.agents a).store)
    (hset : (p.agents a).phase = .running → (p.agents a).settings ≠ none) :
    Goes (some a) none p₀ (carryOn tell a) p (fun action q => ∃ more off,
      Outcome a p q action (.reset a :: more) off ∧ (q.agents a).settings = (p.agents a).settings ∧
      q.callsOf a = p.callsOf a ++ p.recorded a more ∧
      ((p.agents a).phase = .running → (q.agents a).phase ≠ .running → q.slot ≠ some a)) := by
  have nothing : ∀ q : Program, q.callsOf a = q.callsOf a ++ q.recorded a [] := by
    intro q
    unfold recorded
    cases (q.agents a).sampler <;> simp
  unfold Goes carryOn
  simp only [ends_bind, ends_agent]
  by_cases hrun : (p.agents a).phase = .running
  · rw [if_neg (by simpa using hrun)]
    cases hc : (p.agents a).settings with
    | none => exact absurd hc (hset hrun)
    | some c =>
      dsimp only
      cases hdetect : c.detectSubprocesses with
      | true =>
        simp only [ForkAction.decide, if_true, ends_bind]
        refine Ends.mono (callStart_leaves T h hl (hs.home h) c) ?_ fun _ _ h => h
        rintro b q ⟨hq, hk, hb, globals, hcalls⟩
        have hlq : (q.agents a).locked = true := hk.locked.trans hl
        have hrunq : (q.agents a).phase = .running := hk.phase.trans hrun
        cases b with
        | true =>
          simp only [if_true, ends_bind, ends_say, ends_pure]
          exact ⟨hq.annotate _, [.start a c globals], [],
            .restarted hrun hc hdetect (hb.1 rfl) hrunq, hk.settings.trans hc, hcalls,
            fun _ hne => absurd hrunq hne⟩
        | false =>
          simp only [Bool.false_eq_true, if_false, ends_bind, ends_say, ends_pure]
          generalize (q.thread, Log.Event.say .error _) :: q.notes = notes
          have hq' := hq.annotate notes
          refine Ends.mono (retire_goes T hq' hlq (hs.home hq') hrunq) ?_ fun _ _ h => h
          rintro _ r ⟨hr, hret⟩
          have hfails : ¬ p.Starts a := fun hstarts => Bool.false_ne_true (hb.2 hstarts)
          refine ⟨hr, [.start a c globals], c.validTags,
            .failed hrun hc hdetect hfails (by rw [hret.row]), ?_, hret.calls.trans hcalls,
            fun _ _ => hret.slot⟩
          rw [hret.row]
          exact hk.settings.trans hc
      | false =>
        simp only [ForkAction.decide, Bool.false_eq_true, if_false, ends_bind, ends_say, ends_pure]
        generalize (p.thread, Log.Event.say .debug _) :: p.notes = notes
        have h' := h.annotate notes
        refine Ends.mono (retire_goes T h' hl (hs.home h') hrun) ?_ fun _ _ h => h
        rintro _ r ⟨hr, hret⟩
        refine ⟨hr, [], c.validTags, .inert hrun hc hdetect (by rw [hret.row]), ?_,
          hret.calls.trans (nothing p), fun _ _ => hret.slot⟩
        rw [hret.row]
        exact hc
  · rw [if_pos hrun]
    simp only [ends_bind, ends_note, ends_pure]
    exact ⟨h.annotate _, [], [], .idle hrun rfl, rfl, nothing p, fun h => absurd h hrun⟩

theorem Outcome.since {action : Option ForkAction} {calls : List SamplerCall} {off : List Tag}
    (h : Outcome a q r action calls off) (hphase : (q.agents a).phase = (p.agents a).phase)
    (hset : (q.agents a).settings = (p.agents a).settings) (hstarts : q.Starts a ↔ p.Starts a) :
    Outcome a p r action calls off := by
  cases h with
  | idle hrun hp => exact .idle (by rw [← hphase]; exact hrun) (hp.trans hphase)
  | inert hrun hc hd hp => exact .inert (by rw [← hphase, hrun]) (by rw [← hset, hc]) hd hp
  | restarted hrun hc hd hst hp =>
    exact .restarted (by rw [← hphase, hrun]) (by rw [← hset, hc]) hd (hstarts.1 hst) hp
  | failed hrun hc hd hst hp =>
    exact .failed (by rw [← hphase, hrun]) (by rw [← hset, hc]) hd (fun hs => hst (hstarts.2 hs)) hp

theorem decideFork_decides (T : Teller tell able) (h : Follows (some a) none p₀ p)
    (hl : (p.agents a).locked = true) (hs : Ready able p₀ (p₀.agents a).store)
    (hnew : ¬ p₀.Abreast a)
    (hset : (p.agents a).phase = .running → (p.agents a).settings ≠ none) :
    Goes (some a) none p₀ (decideFork tell a) p
      (fun action q => ∃ calls off, Decided a p q action calls off) := by
  unfold Goes decideFork
  rw [ends_bind]
  refine Ends.mono (callReset_leaves T h hl (hs.home h) hnew) ?_ fun _ _ h => h
  rintro _ q ⟨hq, hk, hstarts, hcalls⟩
  have hsampler : (q.agents a).sampler = (p.agents a).sampler := by
    rw [hq.sampler, h.sampler]
  refine (carryOn_decides T hq (hk.locked.trans hl) hs ?_).mono ?_
  · rw [hk.phase, hk.settings]
    exact hset
  · rintro action r - ⟨more, off, hout, hsettings, hmore, hr⟩
    refine ⟨_, off, hout.since hk.phase hk.settings (starts_congr hsampler hstarts),
      hsettings.trans hk.settings, ?_, fun hrun => hr (hk.phase.trans hrun)⟩
    rw [hmore, hcalls, recorded_congr hsampler, List.append_assoc, recorded_append]
    rfl

theorem Decided.unlock {action : Option ForkAction} {calls : List SamplerCall} {off : List Tag}
    (h : Decided a p q action calls off) :
    Decided a p (q.amend a fun x => { x with locked := false }) action calls off where
  outcome := by
    cases h.outcome with
    | idle hrun hp => exact .idle hrun (by simpa using hp)
    | inert hrun hc hd hp => exact .inert hrun hc hd (by simpa using hp)
    | restarted hrun hc hd hst hp => exact .restarted hrun hc hd hst (by simpa using hp)
    | failed hrun hc hd hst hp => exact .failed hrun hc hd hst (by simpa using hp)
  settings := by simpa using h.settings
  calls := h.calls
  slot hrun hne := h.slot hrun (by simpa using hne)

theorem Decided.since {action : Option ForkAction} {calls : List SamplerCall} {off : List Tag}
    (h : Decided a q r action calls off) (hphase : (q.agents a).phase = (p.agents a).phase)
    (hset : (q.agents a).settings = (p.agents a).settings)
    (hsampler : (q.agents a).sampler = (p.agents a).sampler)
    (hstarts : (q.agents a).starts = (p.agents a).starts) (hcalls : q.callsOf a = p.callsOf a) :
    Decided a p r action calls off where
  outcome := h.outcome.since hphase hset (starts_congr hsampler hstarts)
  settings := h.settings.trans hset
  calls := by rw [h.calls, recorded_congr hsampler, hcalls]
  slot hrun := h.slot (hphase.trans hrun)

theorem handleFork_decides (hp : p.Sound) (hl : (p.agents a).locked = false) (hnew : ¬ p.Abreast a)
    (hset : (p.agents a).phase = .running → (p.agents a).settings ≠ none) :
    Ends (handleFork a) p (fun action q => ∃ calls off, Decided a p q action calls off)
      fun _ _ => True := by
  have hdecide := decideFork_decides teller_two (.deciding hp) (by simp [deciding]) (.inl trivial) hnew
    (by simpa [deciding] using hset)
  refine (ends_applyFork hnew hl).2 (Ends.mono hdecide ?_ fun _ _ _ => trivial)
  rintro action q ⟨-, calls, off, hd⟩
  have hsince : Decided a p q action calls off := hd.since (by simp [deciding]) (by simp [deciding])
    (by simp [deciding]) (by simp [deciding]) rfl
  exact ⟨calls, off, hsince.unlock⟩

end ProfilingAgent.Program
