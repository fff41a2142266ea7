import ProfilingAgent.Proofs.Deciding

set_option autoImplicit false

namespace ProfilingAgent

namespace Phase

inductive Move : Phase → Phase → Prop
  | prepare : Move fresh configured
  | start {x : Phase} (h : x ≠ running) : Move x running
  | stop : Move running stopped

def Steps (x y : Phase) : Prop := y = x ∨ Move x y

theorem Steps.running (x : Phase) : Steps x .running := by
  by_cases h : x = .running
  · exact .inl h.symm
  · exact .inr (.start h)

theorem Steps.of_ebb {x y : Phase} (h : Program.Ebb x y) : Steps x y := by
  rcases h with rfl | ⟨rfl, rfl⟩
  · exact .inl rfl
  · exact .inr .stop

theorem Steps.cases_of_ne {x y : Phase} (h : Steps x y) (hy : y ≠ .running) :
    y = x ∨ x = .fresh ∧ y = .configured ∨ x = .running ∧ y = .stopped := by
  rcases h with rfl | h
  · exact .inl rfl
  · cases h with
    | prepare => exact .inr (.inl ⟨rfl, rfl⟩)
    | start => exact absurd rfl hy
    | stop => exact .inr (.inr ⟨rfl, rfl⟩)

theorem Steps.trans_of_ne {x y z : Phase} (h : Steps x y) (h' : Steps y z) (hy : y ≠ .running)
    (hz : z ≠ .running) : Steps x z := by
  rcases h'.cases_of_ne hz with rfl | ⟨rfl, rfl⟩ | ⟨rfl, _⟩
  · exact h
  · rcases h.cases_of_ne hy with rfl | ⟨_, hy'⟩ | ⟨_, hy'⟩
    · exact .inr .prepare
    · cases hy'
    · cases hy'
  · exact absurd rfl hy

theorem Steps.after_ebb {x y z : Phase} (h : Program.Ebb x y) (h' : Steps y z) : Steps x z := by
  rcases h with rfl | ⟨rfl, rfl⟩
  · exact h'
  · by_cases hz : z = .running
    · exact .inl hz
    · rcases h'.cases_of_ne hz with rfl | ⟨h, _⟩ | ⟨_, rfl⟩
      · exact .inr .stop
      · cases h
      · exact .inr .stop

end Phase

namespace Program

open Act

variable {p₀ p q r : Program} {a : AgentId} {c : Settings} {result : Except AgentError Unit}

inductive StartEnds (a : AgentId) (p : Program) : Except AgentError Unit → Program → Prop
  | refused {q : Program} (h : ∃ b, b ≠ a ∧ p.slot = some b) (hslot : q.slot = p.slot)
    (hphase : (q.agents a).phase = (p.agents a).phase) (hrun : (p.agents a).phase ≠ .running) :
    StartEnds a p (.error .alreadyRunning) q
  | running {q : Program} (h : ∀ b, b ≠ a → p.slot ≠ some b)
    (hphase : (q.agents a).phase = .running) : StartEnds a p (.ok ()) q
  | failed {q : Program} {m : String} (h : ∀ b, b ≠ a → p.slot ≠ some b)
    (hphase : Phase.Steps (p.agents a).phase (q.agents a).phase)
    (hrun : (q.agents a).phase ≠ .running) (hslot : q.slot ≠ some a) :
    StartEnds a p (.error (.startup m)) q

namespace StartEnds

theorem steps (h : StartEnds a p result q) :
    Phase.Steps (p.agents a).phase (q.agents a).phase := by
  cases h with
  | refused _ _ hphase _ => exact .inl hphase
  | running _ hphase =>
    rw [hphase]
    exact .running _
  | failed _ hphase _ _ => exact hphase

theorem holder (h : StartEnds a p result q) (hs : q.slot = some a) :
    (q.agents a).phase = .running := by
  cases h with
  | refused h hslot _ _ =>
    obtain ⟨b, hb, hpb⟩ := h
    rw [hslot, hpb] at hs
    exact absurd (Option.some.inj hs) hb
  | running _ hphase => exact hphase
  | failed _ _ _ hslot => exact absurd hs hslot

theorem refused_iff (h : StartEnds a p result q) :
    result = .error .alreadyRunning ↔ ∃ b, b ≠ a ∧ p.slot = some b := by
  cases h with
  | refused h _ _ _ => exact ⟨fun _ => h, fun _ => rfl⟩
  | running h _ =>
    refine ⟨fun hr => ?_, fun ⟨b, hb, hs⟩ => absurd hs (h b hb)⟩
    cases hr
  | failed h _ _ _ =>
    refine ⟨fun hr => ?_, fun ⟨b, hb, hs⟩ => absurd hs (h b hb)⟩
    cases hr

theorem congr (h : StartEnds a p result q) (hphase : (r.agents a).phase = (q.agents a).phase)
    (hslot : r.slot = q.slot) : StartEnds a p result r := by
  cases h with
  | refused h hs hp hrun => exact .refused h (hslot.trans hs) (hphase.trans hp) hrun
  | running h hp => exact .running h (hphase.trans hp)
  | failed h hp hrun hs =>
    exact .failed h (by rw [hphase]; exact hp) (by rw [hphase]; exact hrun) (by rw [hslot]; exact hs)

theorem since (h : StartEnds a p result q) (hphase : (p.agents a).phase = (r.agents a).phase)
    (hslot : p.slot = r.slot) : StartEnds a r result q := by
  cases h with
  | refused h hs hp hrun =>
    exact .refused (by rw [← hslot]; exact h) (hs.trans hslot) (hp.trans hphase)
      (by rw [← hphase]; exact hrun)
  | running h hp => exact .running (by rw [← hslot]; exact h) hp
  | failed h hp hrun hs =>
    exact .failed (by rw [← hslot]; exact h) (by rw [← hphase]; exact hp) hrun hs

end StartEnds

theorem only_of_slot (h : p.slot = some a) : ∀ b, b ≠ a → p.slot ≠ some b := by
  intro b hb hs
  rw [h, Option.some.injEq] at hs
  exact hb hs.symm

/-- An agent exchanges the tags that it attached for those of the settings to come, and has its
sampler started with these. -/
theorem engage_goes {k : Except TagError Unit → Act (Except AgentError Unit)}
    {f : Bool → Act (Except AgentError Unit)} {post : Except AgentError Unit → Program → Prop}
    {s : StoreId} {old : List Tag} (h : Follows (some a) (some a) p₀ p)
    (hl : (p.agents a).locked = true) (hk : k (.ok ()) = callStart tellAgent a c >>= f)
    (hf : ∀ b q, Follows (some a) (some a) p₀ q → Kept a p q →
      (p.Stands a ⟨(p.agents a).starts, false, (p.agents a).settings⟩ → q.Stands a
        ⟨(q.agents a).starts, b, if b = true then some c else (p.agents a).settings⟩) →
      Goes (some a) (some a) p₀ (f b) q post) :
    Goes (some a) (some a) p₀ (replaceGlobalsWith tellAgent s old c.validTags >>= k) p post := by
  apply (exchange_goes teller h hl (.inl trivial) c.isValid_of_mem_validTags).bind
  rintro _ q hq ⟨rfl, hrow, hcalls, hkept⟩
  rw [hk]
  apply (callStart_goes teller hq (hkept.locked.trans hl) (.inl trivial) c).bind
  rintro b r hr ⟨hkept', hstart⟩
  refine hf b r hr (hkept.trans hkept') fun hst => hstart _ ?_
  rw [hrow]
  exact hst.congr (by rw [hrow]) hcalls

theorem launch_goes (h : Follows (some a) (some a) p₀ p) (hl : (p.agents a).locked = true)
    (hrun : (p.agents a).phase ≠ .running) (hslot : p.slot = some a) :
    Goes (some a) (some a) p₀ (launch a c) p (fun r q => StartEnds a p r q ∧
      (p.Stands a ⟨(p.agents a).starts, false, (p.agents a).settings⟩ → q.Aligned a)) := by
  unfold Goes launch
  rw [ends_bind, ends_say, ends_bind, ends_agent, ends_bind, ends_configuredTags]
  generalize (List.map _ c.tagRemarks).reverse ++ _ = notes
  generalize _ :: p.notes = notes'
  apply engage_goes ((h.annotate notes').annotate notes) hl rfl
  intro b r hr hk hst
  have hlr : (r.agents a).locked = true := hk.locked.trans hl
  cases b with
  | true =>
    unfold Goes
    simp only [if_true, ends_bind, ends_note, ends_updateAgent, ends_pure]
    generalize (r.thread, _) :: r.notes = notes
    have ho : Own a (r.annotate notes)
        ((r.annotate notes).amend a fun x => { x with settings := some c, phase := .running }) :=
      Own.amend (by simp)
    refine ⟨(hr.annotate notes).alter hlr ho rfl (fun _ => hk.slot.2 hslot)
      (fun hf => absurd rfl hf), .running (only_of_slot hslot) (by simp), fun ha => ⟨?_, by simp⟩⟩
    have hst' := (hst ha).congr (q := (r.annotate notes).amend a _) (by rw [ho.sampler]; rfl) rfl
    simpa using hst'
  | false =>
    apply (exchange_goes teller hr hlr (.inl trivial) (by simp)).bind
    rintro _ t ht ⟨rfl, hrow, hcalls, hk'⟩
    unfold Goes
    simp only [ends_bind, ends_release, ends_say, ends_pure]
    have hpt : ((t.yieldSlot a).agents a).phase = (p.agents a).phase := by
      rw [yieldSlot_agents]
      exact hk'.phase.trans hk.phase
    have hnrun : ((t.yieldSlot a).agents a).phase ≠ .running := by
      rw [hpt]
      exact hrun
    refine ⟨(ht.alter (hk'.locked.trans hlr) Own.yieldSlot (by simp) (fun hr => absurd hr hnrun)
      fun hf => absurd rfl hf).annotate _, .failed (only_of_slot hslot) (.inl hpt) hnrun (by simp),
        fun ha => annotate_aligned.2 ⟨?_, fun hr => absurd hr hnrun⟩⟩
    have hset : (t.agents a).settings = (p.agents a).settings := hk'.settings.trans hk.settings
    have hst' : t.Stands a ⟨(t.agents a).starts, false, (t.agents a).settings⟩ := by
      rw [hset, hrow]
      exact Stands.congr (hst ha) (by rw [hrow]) hcalls
    have hyield := hst'.congr (q := t.yieldSlot a) (by simp) (by simp [callsOf])
    rw [hpt]
    simpa [hrun] using hyield

structure Begun (a : AgentId) (p q : Program) : Prop where
  own : Own a p q
  stores : q.stores = p.stores
  calls : q.calls = p.calls
  starts : (q.agents a).starts = (p.agents a).starts
  settings : (q.agents a).settings = (p.agents a).settings
  idle : (q.agents a).phase ≠ .running
  steps : Phase.Steps (p.agents a).phase (q.agents a).phase
  slot : q.slot = some a
  free : ∀ b, b ≠ a → p.slot ≠ some b

/-- A start is refused if another agent has the slot, and goes on from a beginning otherwise. -/
theorem startFrom_ends {ok : Except AgentError Unit → Program → Prop}
    {halted : Halt → Program → Prop} (h : Follows (some a) (some a) p₀ p)
    (hl : (p.agents a).locked = true) (hrun : (p.agents a).phase ≠ .running)
    (hrefused : (∃ b, b ≠ a ∧ p.slot = some b) → ok (.error .alreadyRunning) p)
    (hbegun : ∀ q, Follows (some a) (some a) p₀ q → Begun a p q → Ends (launch a c) q ok halted) :
    Ends (startFrom a (p.agents a).phase c) p ok halted := by
  have claimed : ∀ slot, slot = some a → (∀ b, b ≠ a → p.slot ≠ some b) → Ends (do
      if (p.agents a).phase = .fresh then setPhase a .configured
      launch a c) (p.give slot) ok halted := by
    rintro _ rfl hfree
    have ho : Own a p (p.give (some a)) :=
      Own.give fun b hb => ⟨fun hs => absurd (Option.some.inj hs).symm hb, fun hs => absurd hs (hfree b hb)⟩
    have hq : Follows (some a) (some a) p₀ (p.give (some a)) :=
      h.alter hl ho rfl (fun _ => rfl) fun hf => absurd rfl hf
    split
    · rename_i hfresh
      rw [ends_bind, ends_setPhase]
      have ho' : Own a (p.give (some a)) ((p.give (some a)).amend a fun x =>
          { x with phase := .configured }) := Own.amend (by simp)
      refine hbegun _ (hq.alter hl ho' rfl (fun hr => ?_) fun hf => absurd rfl hf)
        ⟨ho.trans ho', rfl, rfl, by simp, by simp, by simp, ?_, rfl, hfree⟩
      · simp at hr
      · rw [hfresh]
        simpa using .inr .prepare
    · exact hbegun _ hq ⟨ho, rfl, rfl, rfl, rfl, hrun, .inl rfl, rfl, hfree⟩
  unfold startFrom
  rw [ends_bind, ends_claim]
  by_cases hnone : p.slot = none
  · rw [if_pos hnone]
    exact claimed _ rfl (by simp [hnone])
  · rw [if_neg hnone]
    by_cases hs : p.slot = some a
    · simp only [hs, decide_true, Bool.not_true, Bool.false_eq_true, if_false]
      exact claimed p.slot hs (only_of_slot hs)
    · simp only [hs, decide_false, Bool.not_false, if_true, ends_pure]
      obtain ⟨b, hb⟩ := Option.ne_none_iff_exists'.1 hnone
      refine hrefused ⟨b, ?_, hb⟩
      rintro rfl
      exact hs hb

theorem startFrom_goes (h : Follows (some a) (some a) p₀ p) (hl : (p.agents a).locked = true)
    (hrun : (p.agents a).phase ≠ .running) :
    Goes (some a) (some a) p₀ (startFrom a (p.agents a).phase c) p (fun r q => StartEnds a p r q ∧
      (p.Aligned a → q.Aligned a)) := by
  refine startFrom_ends h hl hrun (fun hb => ⟨h, .refused hb rfl rfl hrun, id⟩) ?_
  intro q hq hbegun
  have hlq : (q.agents a).locked = true := hbegun.own.locked.trans hl
  refine (launch_goes hq hlq hbegun.idle hbegun.slot).mono fun r t _ ⟨hend, hal⟩ =>
    ⟨?_, fun ha => hal ?_⟩
  · cases hend with
    | refused hb =>
      obtain ⟨b, hb, hqb⟩ := hb
      exact absurd hqb (only_of_slot hbegun.slot b hb)
    | running _ hphase => exact .running hbegun.free hphase
    | failed _ hphase hrun' hslot =>
      exact .failed hbegun.free (hbegun.steps.trans_of_ne hphase hbegun.idle hrun') hrun' hslot
  · have hst := ha.stands
    simp only [hrun, decide_false] at hst
    rw [hbegun.starts, hbegun.settings]
    apply hst.congr hbegun.own.sampler
    unfold callsOf
    rw [hbegun.calls]

theorem relaunch_goes (h : Follows (some a) (some a) p₀ p) (hl : (p.agents a).locked = true)
    (hrun : (p.agents a).phase = .running) {s : StoreId} {old : List Tag} :
    Goes (some a) (some a) p₀ (relaunch a s old c) p (fun r q => StartEnds a p r q ∧
      (p.Stands a ⟨(p.agents a).starts, false, (p.agents a).settings⟩ → q.Aligned a)) := by
  have hslot : p.slot = some a := h.sound.slotted a hrun
  unfold Goes relaunch
  rw [ends_bind, ends_configuredTags]
  generalize (List.map _ c.tagRemarks).reverse ++ _ = notes
  apply engage_goes (h.annotate notes) hl rfl
  intro b r hr hk hst
  have hlr : (r.agents a).locked = true := hk.locked.trans hl
  have hphase : (r.agents a).phase = .running := hk.phase.trans hrun
  cases b with
  | true =>
    unfold Goes
    simp only [if_true, ends_bind, ends_say, ends_updateAgent, ends_pure]
    have ho : Own a r (r.amend a fun x => { x with settings := some c }) := Own.amend (by simp)
    refine ⟨(hr.alter hlr ho rfl (fun _ => hk.slot.2 hslot) (fun hf => absurd rfl hf)).annotate _,
      .running (only_of_slot hslot) (by simpa using hphase),
        fun ha => annotate_aligned.2 ⟨?_, by simp⟩⟩
    have hst' := (hst ha).congr (q := r.amend a _) (by rw [ho.sampler]) rfl
    simpa [hphase] using hst'
  | false =>
    apply (exchange_goes teller hr hlr (.inl trivial) (by simp)).bind
    rintro _ t ht ⟨rfl, hrow, hcalls, hk'⟩
    have hret := Retired.stop t a
    unfold Goes
    simp only [ends_bind, ends_setPhase, ends_release, ends_say, ends_pure]
    have hpt : (((t.amend a fun x => { x with phase := .stopped }).yieldSlot a).agents a).phase =
        .stopped := by rw [hret.row]
    refine ⟨(ht.stop (hk'.locked.trans hlr) (hk'.phase.trans hphase)).annotate _,
      .failed (only_of_slot hslot) (.inr ?_) ?_ hret.slot, fun ha => annotate_aligned.2 (hret.aligned ?_)⟩
    · rw [annotate_agents, hpt, hrun]
      exact .stop
    · rw [annotate_agents, hpt]
      simp
    · have hset : (t.agents a).settings = (p.agents a).settings := hk'.settings.trans hk.settings
      rw [hset, hrow]
      exact Stands.congr (hst ha) (by rw [hrow]) hcalls

theorem swap_goes (h : Follows (some a) (some a) p₀ p) (hl : (p.agents a).locked = true)
    (hrun : (p.agents a).phase = .running) :
    Goes (some a) (some a) p₀ (swap a c) p (fun r q => StartEnds a p r q ∧
      (p.Aligned a → q.Aligned a)) := by
  have hslot : p.slot = some a := h.sound.slotted a hrun
  unfold Goes swap
  rw [ends_bind, ends_agent, ends_bind]
  refine Ends.mono (callStop_goes teller h hl (.inl trivial)) ?_ fun _ _ h => h
  rintro flushed q ⟨hq, hk, hstop⟩
  have hst : p.Aligned a → q.Stands a ⟨(q.agents a).starts, false, (q.agents a).settings⟩ := by
    intro ha
    have hst := ha.stands
    simp only [hrun, decide_true] at hst
    rw [hk.settings]
    exact hstop _ hst
  -- Whatever is said before, the rest goes on from the same agents and calls.
  have rest : ∀ r old, Follows (some a) (some a) p₀ r → Same q r →
      Goes (some a) (some a) p₀ (relaunch a (p.agents a).store old c) r (fun r q =>
        StartEnds a p r q ∧ (p.Aligned a → q.Aligned a)) := by
    intro r old hr hs
    have hrow : r.agents a = q.agents a := by rw [hs.agents]
    have hphase : (r.agents a).phase = .running := by rw [hrow, hk.phase, hrun]
    refine (relaunch_goes hr (by rw [hrow, hk.locked, hl]) hphase).mono
      fun x t _ ⟨hend, hal⟩ => ⟨?_, fun ha => hal ?_⟩
    · cases hend with
      | refused _ _ _ hr => exact absurd hphase hr
      | running _ hp => exact .running (only_of_slot hslot) hp
      | failed _ hp hr hs => exact .failed (only_of_slot hslot) (by rw [hrun, ← hphase]; exact hp) hr hs
    · rw [hrow]
      exact (hst ha).congr (by rw [hrow]) (hs.callsOf a)
  have told : ∀ r, Follows (some a) (some a) p₀ r → Same q r →
      Goes (some a) (some a) p₀
        (previousTags (p.agents a).settings >>= fun old => relaunch a (p.agents a).store old c) r
        (fun r q => StartEnds a p r q ∧ (p.Aligned a → q.Aligned a)) := by
    intro r hr hs
    unfold Goes
    rw [ends_bind]
    cases (p.agents a).settings with
    | none => exact rest r [] hr hs
    | some previous =>
      unfold previousTags
      rw [ends_configuredTags]
      exact rest _ previous.validTags (hr.annotate _)
        ⟨hs.generation, hs.agents, hs.slot, hs.calls, hs.watcher⟩
  cases flushed with
  | true =>
    simp only [Bool.not_true, Bool.false_eq_true, if_false]
    exact told q hq ⟨rfl, rfl, rfl, rfl, fun _ => rfl⟩
  | false =>
    simp only [Bool.not_false, if_true]
    rw [ends_bind, ends_say]
    generalize (q.thread, _) :: q.notes = notes
    exact told _ (hq.annotate notes) (Same.annotate q notes)

/-- What an agent does under its lock, if it leaves it in agreement with its sampler. -/
theorem locking_goes {α : Type} {body : Act α} {free : Option AgentId}
    {post : α → Program → Prop} (hp : p.Sound) (halive : (p.agents a).alive = true)
    (hl : (p.agents a).locked = false) (ha : p.Abreast a)
    (hbody : ∀ q, q.agents a = { p.agents a with locked := true } → q.slot = p.slot →
      Follows (some a) free p q → (p.Calm → q.Aligned a) →
      Goes (some a) free p body q fun r t => post r t ∧
        (p.Calm → t.Aligned a ∧ (t.slot = some a → (t.agents a).phase = .running))) :
    Goes none free p (locking a body) p fun r t => t.Abreast a ∧ ∃ q, post r q ∧
      t.agents a = { q.agents a with locked := false } ∧ t.slot = q.slot := by
  unfold Goes
  rw [ends_locking hl]
  have hq : Follows (some a) free p (p.amend a fun x => { x with locked := true }) :=
    Follows.lock hp (by simp) rfl ha
  refine Ends.mono (hbody _ (by simp) rfl hq fun hc =>
    (hp.aligned hc a hl).of_row ⟨rfl, rfl, rfl, rfl⟩) ?_ ?_
  · rintro r t ⟨ht, hpost, hset⟩
    exact ⟨ht.unlock hl halive hset, by simpa [Abreast] using ht.owner a rfl, t, hpost, by simp, rfl⟩
  · rintro h t ⟨ht, hbroken⟩
    exact ⟨ht.unlock hl halive fun hc => absurd hc hbroken.2, hbroken⟩

theorem startLocked_goes (h : Follows (some a) (some a) p₀ p) (hl : (p.agents a).locked = true) :
    Goes (some a) (some a) p₀ (startLocked a c) p (fun r q => StartEnds a p r q ∧
      (p.Aligned a → q.Aligned a)) := by
  unfold Goes startLocked
  rw [ends_bind, ends_agent]
  by_cases hrun : (p.agents a).phase = .running
  · rw [if_pos hrun]
    by_cases hsame : (p.agents a).settings = some c
    · rw [if_pos hsame, ends_bind, ends_say]
      exact ⟨h.annotate _, .running (only_of_slot (h.sound.slotted a hrun)) hrun,
        annotate_aligned.2⟩
    · rw [if_neg hsame]
      exact swap_goes h hl hrun
  · rw [if_neg hrun]
    exact startFrom_goes h hl hrun

theorem startAgent_goes (hp : p.Sound) (halive : (p.agents a).alive = true)
    (hl : (p.agents a).locked = false) :
    Goes none (some a) p (startAgent a c) p fun r t => t.Abreast a ∧
      ∃ q, (tellAgent a).on p = (.ok (), q) ∧ Follows none none p q ∧
        Follows none (some a) q t ∧ StartEnds a q r t := by
  unfold Goes startAgent
  rw [ends_bind]
  refine Ends.mono (tellAgent_goes hp halive hl).here ?_ fun h q hq => ⟨hq.1.1.widen _, hq.1.2⟩
  rintro ⟨⟩ q ⟨⟨hq, ha⟩, hon⟩
  have hlq : (q.agents a).locked = false := (hq.locked a (by simp)).trans hl
  have body : Goes none (some a) q (locking a (startLocked a c)) q fun r t => t.Abreast a ∧
      ∃ q', StartEnds a q r q' ∧ t.agents a = { q'.agents a with locked := false } ∧
        t.slot = q'.slot := by
    apply locking_goes hq.sound ((hq.alive a).trans halive) hlq ha
    intro t hrow hslot ht hal
    refine (startLocked_goes ht (by rw [hrow])).mono fun r u _ ⟨hend, hsettle⟩ => ⟨?_, ?_⟩
    · exact hend.since (by rw [hrow]) hslot
    · exact fun hc => ⟨hsettle (hal hc), hend.holder⟩
  refine Ends.mono body ?_ ?_
  · rintro r t ⟨ht, hab, q', hend, hrow, hslot⟩
    exact ⟨(hq.widen _).trans ht, hab, q, hon, hq, ht, hend.congr (by rw [hrow]) hslot⟩
  · rintro h t ⟨ht, hh, hcalm⟩
    exact ⟨(hq.widen _).trans ht, hh, fun hc => hcalm (hq.calm.2 hc)⟩

theorem stopLocked_goes (h : Follows (some a) none p₀ p) (hl : (p.agents a).locked = true) :
    Goes (some a) none p₀ (stopLocked a) p (fun _ q =>
      (q.agents a).phase ≠ .running ∧ Settles a p q) := by
  -- An agent that does not run has no slot to give back.
  have still : ∀ q, Same p q → (p.agents a).phase ≠ .running →
      (q.agents a).phase ≠ .running ∧ Settles a p q := by
    intro q hs hrun
    unfold Settles
    rw [hs.agents, hs.slot]
    exact ⟨hrun, fun hal hslot => ⟨hs.aligned hal, hslot⟩⟩
  unfold Goes stopLocked
  rw [ends_bind, ends_agent]
  cases hrun : (p.agents a).phase with
  | running =>
    dsimp only
    rw [ends_bind]
    refine Ends.mono (callStop_goes teller h hl (.inl trivial)) ?_ fun _ _ h => h
    rintro flushed q ⟨hq, hk, hstop⟩
    rw [ends_bind]
    refine Ends.mono (retire_goes teller hq (hk.locked.trans hl) (.inl trivial)
      (hk.phase.trans hrun)) ?_ fun _ _ h => h
    rintro _ r ⟨hr, hret⟩
    have hne : (r.agents a).phase ≠ .running := by
      rw [hret.row]
      simp
    have hset : Settles a p r := by
      intro hal _
      refine ⟨hret.aligned ?_, fun h => absurd h hret.slot⟩
      have hst := hal.stands
      simp only [hrun, decide_true] at hst
      rw [hk.settings]
      exact hstop _ hst
    cases flushed with
    | true =>
      rw [if_pos rfl, ends_bind, ends_say]
      exact ⟨hr.annotate _, hne, fun hal hs => ⟨annotate_aligned.2 (hset hal hs).1, (hset hal hs).2⟩⟩
    | false =>
      rw [if_neg (by simp)]
      exact ⟨hr, hne, hset⟩
  | stopped => exact ⟨h.annotate _, still _ (Same.annotate p _) (by simp [hrun])⟩
  | fresh => exact ⟨h, still p ⟨rfl, rfl, rfl, rfl, fun _ => rfl⟩ (by simp [hrun])⟩
  | configured => exact ⟨h, still p ⟨rfl, rfl, rfl, rfl, fun _ => rfl⟩ (by simp [hrun])⟩

theorem stopAgent_goes (hp : p.Sound) (halive : (p.agents a).alive = true)
    (hl : (p.agents a).locked = false) :
    Goes none none p (stopAgent a) p fun _ t => t.Abreast a ∧ (t.agents a).phase ≠ .running := by
  unfold Goes stopAgent
  rw [ends_bind]
  refine Ends.mono (tellAgent_goes hp halive hl) ?_ fun _ _ h => h
  rintro ⟨⟩ q ⟨hq, ha⟩
  have hlq : (q.agents a).locked = false := (hq.locked a (by simp)).trans hl
  have body : Goes none none q (locking a (stopLocked a)) q fun _ t => t.Abreast a ∧
      ∃ q' : Program, (q'.agents a).phase ≠ .running ∧ t.agents a = { q'.agents a with locked := false } ∧
        t.slot = q'.slot := by
    apply locking_goes hq.sound ((hq.alive a).trans halive) hlq ha
    intro t hrow hslot ht hal
    refine (stopLocked_goes ht (by rw [hrow])).mono fun _ u _ ⟨hne, hset⟩ => ⟨hne, fun hc => ?_⟩
    refine hset (hal hc) fun hs => ?_
    rw [hrow]
    exact (hq.sound.settled hc hlq).2 (hslot ▸ hs)
  refine Ends.mono body ?_ ?_
  · rintro r t ⟨ht, hab, q', hrun, hrow, -⟩
    refine ⟨hq.trans ht, hab, ?_⟩
    rw [hrow]
    exact hrun
  · rintro h t ⟨ht, hh, hcalm⟩
    exact ⟨hq.trans ht, hh, fun hc => hcalm (hq.calm.2 hc)⟩

theorem dropped_field {β : Type} (p : Program) (a b : AgentId) (g : Agent → β)
    (hg : ∀ x, g { x with alive := false } = g x) :
    g ((p.amend a fun x => { x with alive := false }).agents b) = g (p.agents b) :=
  amend_field p a b _ g (hg _)

def gone (p : Program) (a : AgentId) : Program :=
  (p.yieldSlot a).amend a fun x => { x with alive := false }

theorem gone_field {β : Type} (p : Program) (a b : AgentId) (g : Agent → β)
    (hg : ∀ x, g { x with alive := false } = g x) : g ((p.gone a).agents b) = g (p.agents b) := by
  unfold gone
  rw [dropped_field _ a b g hg, yieldSlot_agents]

/-- A dropped agent has stopped before, unless its sampler panicked. -/
theorem dropAgent_ends (hp : p.Sound) (halive : (p.agents a).alive = true)
    (hl : (p.agents a).locked = false) :
    Ends (dropAgent a) p
      (fun _ r => ∃ q, Follows none none p q ∧ (q.agents a).phase ≠ .running ∧ r = q.gone a)
      fun h r => ∃ q, Follows none none p q ∧ Broken p h ∧
        r = q.amend a fun x => { x with alive := false } := by
  unfold dropAgent
  rw [ends_protect, ends_bind, ends_agent]
  by_cases hrun : (p.agents a).phase = .running
  · simp only [if_pos hrun, ends_bind]
    refine Ends.mono (stopAgent_goes hp halive hl) ?_ ?_
    · rintro r q ⟨hq, -, hne⟩
      cases r with
      | ok _ => exact ⟨q, hq, hne, rfl⟩
      | error e =>
        dsimp only
        rw [ends_bind, ends_say, ends_release, ends_updateAgent]
        generalize (q.thread, _) :: q.notes = notes
        exact ⟨q.annotate notes, hq.annotate notes, hne, rfl⟩
    · rintro h q ⟨hq, hbroken⟩
      exact ⟨q, hq, hbroken, rfl⟩
  · simp only [if_neg hrun, ends_release, ends_updateAgent]
    exact ⟨p, .refl hp, hrun, rfl⟩

end Program
end ProfilingAgent
