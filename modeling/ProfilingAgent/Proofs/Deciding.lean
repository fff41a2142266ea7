import ProfilingAgent.Proofs.Calls

set_option autoImplicit false

namespace ProfilingAgent.Program

open Act

variable {tell : AgentId → Act Unit} {able : Prop} {free : Option AgentId} {p₀ p q : Program}
  {a : AgentId}

theorem Aligned.of_row {f : Agent → Agent} (h : p.Aligned a)
    (hf : (f (p.agents a)).sampler = (p.agents a).sampler ∧
      (f (p.agents a)).starts = (p.agents a).starts ∧
      (f (p.agents a)).phase = (p.agents a).phase ∧
      (f (p.agents a)).settings = (p.agents a).settings) : (p.amend a f).Aligned a where
  stands := by
    have hst := h.stands.congr (q := p.amend a f) (by simp [hf]) rfl
    simpa [hf] using hst
  settings := by
    have hset := h.settings
    simpa [hf] using hset

theorem Follows.lock {f : Agent → Agent} (hp : p.Sound)
    (hf : ∀ x, (f x).store = x.store ∧ (f x).sampler = x.sampler ∧ (f x).alive = x.alive ∧
      (f x).phase = x.phase ∧ (f x).settings = x.settings)
    (hlocked : (f (p.agents a)).locked = true) (hseen : (f (p.agents a)).seen = p.generation) :
    Follows (some a) free p (p.amend a f) := by
  have hcalm : (p.amend a f).Calm ↔ p.Calm :=
    Calm.congr fun b => amend_field p a b f Agent.sampler (hf _).2.1
  have hphase : ∀ b, ((p.amend a f).agents b).phase = (p.agents b).phase :=
    fun b => amend_field p a b f Agent.phase (hf _).2.2.2.1
  have hstore : ∀ b, ((p.amend a f).agents b).store = (p.agents b).store :=
    fun b => amend_field p a b f Agent.store (hf _).1
  have hother : ∀ b, b ≠ a → (p.amend a f).agents b = p.agents b := fun b => amend_of_ne p a b f
  have hsize := size_le_amend p a f
  have hself : (p.amend a f).Abreast a := by simpa [Abreast] using hseen
  have habreast : ∀ b, p.Abreast b → (p.amend a f).Abreast b := by
    intro b hb
    by_cases hba : b = a
    · exact hba ▸ hself
    · have hsame : (p.amend a f).Abreast b ↔ p.Abreast b :=
        Abreast.congr (by rw [hother b hba]) rfl
      exact hsame.2 hb
  exact
    { generation := rfl
      size := hsize
      watcher := fun _ => rfl
      store := hstore
      sampler := fun b => amend_field p a b f Agent.sampler (hf _).2.1
      alive := fun b => amend_field p a b f Agent.alive (hf _).2.2.1
      abreast := habreast
      told := fun _ => .inl rfl
      calls := ⟨[], by simp, by simp⟩
      locked := fun b hb => by rw [hother b (by simpa using hb)]
      settings := fun b _ => amend_field p a b f Agent.settings (hf _).2.2.2.2
      phase := fun b _ => .inl (hphase b)
      slot := fun _ _ h => h
      spared := fun b hb _ => ⟨hother b (by simpa using hb), rfl, id⟩
      owner := fun b hb => by
        obtain rfl : b = a := by simpa using hb
        exact hself
      sound :=
        { held := fun b hb => by
            by_cases hba : b = a
            · exact hba ▸ hself
            · rw [hother b hba] at hb
              exact habreast b (hp.held b hb)
          slotted := fun b hb => hp.slotted b (hphase b ▸ hb)
          home := fun s b hw =>
            ⟨Nat.lt_of_lt_of_le (hp.home s b hw).1 hsize, (hstore b).trans (hp.home s b hw).2⟩
          aligned := fun hc b hb => by
            by_cases hba : b = a
            · subst hba
              simp [hlocked] at hb
            · rw [hother b hba] at hb
              exact (hp.aligned (hcalm.1 hc) b hb).congr (hother b hba) rfl
          holder := fun hc b hb => by
            by_cases hba : b = a
            · subst hba
              exact .inl (by simp [hlocked])
            · rw [hother b hba]
              exact hp.holder (hcalm.1 hc) b hb } }

/-- An agent leaves its lock in agreement with its sampler, and has the slot only if it runs. -/
theorem Follows.unlock (h : Follows (some a) free p q) (hl : (p.agents a).locked = false)
    (halive : (p.agents a).alive = true)
    (hset : p.Calm → q.Aligned a ∧ (q.slot = some a → (q.agents a).phase = .running)) :
    Follows none free p (q.amend a fun x => { x with locked := false }) := by
  -- Every row keeps everything but the lock.
  have hrow : ∀ {β : Type} (g : Agent → β) (b : AgentId), (∀ x, g { x with locked := false } = g x) →
      g ((q.amend a fun x => { x with locked := false }).agents b) = g (q.agents b) :=
    fun g b hg => amend_field q a b _ g (hg _)
  have hother : ∀ b, b ≠ a →
      (q.amend a fun x => { x with locked := false }).agents b = q.agents b :=
    fun b => amend_of_ne q a b _
  have hcalm : (q.amend a fun x => { x with locked := false }).Calm ↔ q.Calm :=
    Calm.congr fun b => hrow Agent.sampler b fun _ => rfl
  have habreast : ∀ b, (q.amend a fun x => { x with locked := false }).Abreast b ↔ q.Abreast b :=
    fun b => Abreast.congr (hrow Agent.seen b fun _ => rfl) rfl
  have hphase := fun b => hrow Agent.phase b fun _ => rfl
  have hstore := fun b => hrow Agent.store b fun _ => rfl
  have halive' := fun b => hrow Agent.alive b fun _ => rfl
  have hsize := size_le_amend q a fun x => { x with locked := false }
  have hq := h.sound
  exact
    { generation := h.generation
      size := Nat.le_trans h.size hsize
      watcher := h.watcher
      store := fun b => (hstore b).trans (h.store b)
      sampler := fun b => (hrow Agent.sampler b fun _ => rfl).trans (h.sampler b)
      alive := fun b => (halive' b).trans (h.alive b)
      abreast := fun b hb => (habreast b).2 (h.abreast b hb)
      told := fun s => (h.told s).imp_right fun hs =>
        ⟨hs.1, fun b hw hb => (habreast b).2 (hs.2 b hw hb)⟩
      calls := h.calls
      locked := fun b _ => by
        by_cases hba : b = a
        · subst hba
          simp [hl]
        · rw [hother b hba]
          exact h.locked b (by simpa using hba)
      settings := fun b hb => (hrow Agent.settings b fun _ => rfl).trans (h.settings b hb)
      phase := fun b hb => by
        rw [hphase b]
        exact h.phase b hb
      slot := h.slot
      spared := fun b _ hlb => by
        have hba : b ≠ a := by
          rintro rfl
          rw [hl] at hlb
          cases hlb
        obtain ⟨hb, hcalls, hslot⟩ := h.spared b (by simpa using hba) hlb
        exact ⟨(hother b hba).trans hb, hcalls, hslot⟩
      owner := fun b hb => by cases hb
      sound :=
        { held := fun b hb => by
            by_cases hba : b = a
            · subst hba
              simp at hb
            · rw [hother b hba] at hb
              exact (habreast b).2 (hq.held b hb)
          slotted := fun b hb => hq.slotted b (hphase b ▸ hb)
          home := fun s b hw =>
            ⟨Nat.lt_of_lt_of_le (hq.home s b hw).1 hsize, (hstore b).trans (hq.home s b hw).2⟩
          aligned := fun hc b hb => by
            by_cases hba : b = a
            · subst hba
              exact (hset (h.calm.1 (hcalm.1 hc))).1.of_row ⟨rfl, rfl, rfl, rfl⟩
            · rw [hother b hba] at hb
              exact (hq.aligned (hcalm.1 hc) b hb).congr (hother b hba) rfl
          holder := fun hc b hb => by
            by_cases hba : b = a
            · subst hba
              refine .inr ⟨?_, ?_⟩
              · rw [hphase b]
                exact (hset (h.calm.1 (hcalm.1 hc))).2 hb
              · rw [halive' b, h.alive, halive]
            · rw [hother b hba]
              exact hq.holder (hcalm.1 hc) b hb } }

theorem Own.stopped : Own a p ((p.amend a fun x => { x with phase := .stopped }).yieldSlot a) :=
  (Own.amend (by simp)).trans Own.yieldSlot

theorem Follows.stop (h : Follows (some a) free p₀ p) (hl : (p.agents a).locked = true)
    (hrun : (p.agents a).phase = .running) :
    Follows (some a) free p₀ ((p.amend a fun x => { x with phase := .stopped }).yieldSlot a) := by
  refine h.alter hl Own.stopped (by simp) (by simp) fun _ => ⟨?_, ?_, ?_⟩
  · simp
  · exact .inr ⟨hrun, by simp⟩
  · exact fun hslot => ((yieldSlot_slot _ a a).1 hslot).1

structure Retired (a : AgentId) (p q : Program) : Prop where
  row : q.agents a = { p.agents a with phase := .stopped }
  calls : q.callsOf a = p.callsOf a
  slot : q.slot ≠ some a

theorem Retired.since {r : Program} (h : Retired a q r) (hrow : q.agents a = p.agents a)
    (hcalls : q.callsOf a = p.callsOf a) : Retired a p r where
  row := by rw [h.row, hrow]
  calls := h.calls.trans hcalls
  slot := h.slot

theorem Retired.stop (p : Program) (a : AgentId) :
    Retired a p ((p.amend a fun x => { x with phase := .stopped }).yieldSlot a) where
  row := by simp
  calls := by simp [callsOf]
  slot := by simp

theorem retire_goes (T : Teller tell able) (h : Follows (some a) free p₀ p)
    (hl : (p.agents a).locked = true) (hs : Ready able p (p.agents a).store)
    (hrun : (p.agents a).phase = .running) :
    Goes (some a) free p₀ (retire tell a) p (fun _ q => Retired a p q) := by
  unfold Goes retire
  rw [ends_bind, ends_agent]
  cases (p.agents a).settings with
  | none =>
    simp only [ends_bind, ends_setPhase, ends_release]
    exact ⟨h.stop hl hrun, Retired.stop p a⟩
  | some c =>
    simp only [ends_bind, ends_configuredTags]
    generalize (c.tagRemarks.map fun e => (p.thread, e)).reverse ++ p.notes = notes
    refine Ends.mono (exchange_goes T (h.annotate notes) hl hs (by simp)) ?_ fun _ _ h => h
    rintro r q ⟨hq, rfl, hrow, hcalls, -⟩
    have hrow' : q.agents a = p.agents a := hrow
    exact ⟨hq.stop (by rw [hrow', hl]) (by rw [hrow', hrun]),
      (Retired.stop q a).since hrow' hcalls⟩

def Settles (a : AgentId) (p q : Program) : Prop :=
  p.Aligned a → (p.slot = some a → (p.agents a).phase = .running) →
    q.Aligned a ∧ (q.slot = some a → (q.agents a).phase = .running)

theorem Retired.aligned (h : Retired a p q)
    (hst : p.Stands a ⟨(p.agents a).starts, false, (p.agents a).settings⟩) : q.Aligned a where
  stands := by
    have hst' := hst.congr (by rw [h.row]) h.calls
    rw [h.row]
    simpa using hst'
  settings := by
    rw [h.row]
    simp

theorem carryOn_goes (T : Teller tell able) (h : Follows (some a) none p₀ p)
    (hl : (p.agents a).locked = true) (hs : Ready able p₀ (p₀.agents a).store) :
    Goes (some a) none p₀ (carryOn tell a) p (fun _ q =>
      p.Stands a ⟨(p.agents a).starts, false, (p.agents a).settings⟩ →
        ((p.agents a).phase = .running → (p.agents a).settings ≠ none) →
        (p.slot = some a → (p.agents a).phase = .running) →
        q.Aligned a ∧ (q.slot = some a → (q.agents a).phase = .running)) := by
  unfold Goes carryOn
  simp only [ends_bind, ends_agent]
  by_cases hrun : (p.agents a).phase = .running
  · rw [if_neg (by simpa using hrun)]
    cases hc : (p.agents a).settings with
    | none => exact ⟨h, fun _ hset => absurd rfl (hset hrun)⟩
    | some c =>
      dsimp only
      cases ForkAction.decide c.detectSubprocesses with
      | restart =>
        dsimp only
        rw [ends_bind]
        refine Ends.mono (callStart_goes T h hl (hs.home h) c) ?_ fun _ _ h => h
        rintro b q ⟨hq, hk, hstart⟩
        have hlq : (q.agents a).locked = true := hk.locked.trans hl
        have hrunq : (q.agents a).phase = .running := hk.phase.trans hrun
        cases b with
        | true =>
          simp only [if_true, ends_bind, ends_say, ends_pure]
          refine ⟨hq.annotate _, fun hst _ _ => ⟨annotate_aligned.2 ⟨?_, ?_⟩, fun _ => hrunq⟩⟩
          · have hst' := hstart _ hst
            simpa [hrunq, hk.settings, hc] using hst'
          · simp [hk.settings, hc]
        | false =>
          simp only [Bool.false_eq_true, if_false, ends_bind, ends_say, ends_pure]
          generalize (q.thread, Log.Event.say .error _) :: q.notes = notes
          have hq' := hq.annotate notes
          refine Ends.mono (retire_goes T hq' hlq (hs.home hq') hrunq) ?_ fun _ _ h => h
          rintro _ r ⟨hr, hret⟩
          refine ⟨hr, fun hst _ _ => ⟨hret.aligned ?_, fun h => absurd h hret.slot⟩⟩
          have hst' := hstart _ hst
          rw [← hc, ← hk.settings] at hst'
          exact annotate_stands.2 hst'
      | inert =>
        simp only [ends_bind, ends_say, ends_pure]
        generalize (p.thread, Log.Event.say .debug _) :: p.notes = notes
        have h' := h.annotate notes
        refine Ends.mono (retire_goes T h' hl (hs.home h') hrun) ?_ fun _ _ h => h
        rintro _ r ⟨hr, hret⟩
        refine ⟨hr, fun hst _ _ => ⟨hret.aligned ?_, fun h => absurd h hret.slot⟩⟩
        rw [← hc] at hst
        exact annotate_stands.2 hst
  · rw [if_pos hrun]
    simp only [ends_bind, ends_note, ends_pure]
    refine ⟨h.annotate _, fun hst _ hslot => ⟨annotate_aligned.2 ⟨?_, ?_⟩, fun hs => ?_⟩⟩
    · simpa [hrun] using hst
    · exact fun h => absurd h hrun
    · exact absurd (hslot hs) hrun

theorem decideFork_goes (T : Teller tell able) (h : Follows (some a) none p₀ p)
    (hl : (p.agents a).locked = true) (hs : Ready able p₀ (p₀.agents a).store)
    (hnew : ¬ p₀.Abreast a) :
    Goes (some a) none p₀ (decideFork tell a) p (fun _ q => Settles a p q) := by
  unfold Goes decideFork
  rw [ends_bind]
  refine Ends.mono (callReset_goes T h hl (hs.home h) hnew) ?_ fun _ _ h => h
  rintro _ q ⟨hq, hk, hreset⟩
  refine (carryOn_goes T hq (hk.locked.trans hl) hs).mono fun _ r _ hr hal hslot => hr ?_ ?_ ?_
  · rw [hk.settings]
    exact hreset _ _ hal.stands
  · rw [hk.phase, hk.settings]
    exact hal.settings
  · rw [hk.phase, hk.slot]
    exact hslot

def roused (p : Program) (a : AgentId) : Program :=
  (p.amend a fun x => { x with seen := p.generation }).annotate
    ([(p.thread, forkNoticed p)] ++ p.notes)

def deciding (p : Program) (a : AgentId) : Program :=
  (p.amend a fun x => { x with seen := p.generation, locked := true }).annotate
    ([(p.thread, forkNoticed p)] ++ p.notes)

theorem noticed_behind (ha : ¬ p.Abreast a) : (noticed a).on p = (.ok true, p.roused a) := by
  have hseen : (p.agents a).seen ≠ p.generation := ha
  unfold noticed
  rw [on_bind]
  change ((if (p.agents a).seen = p.generation then _ else _ : Act Bool)).on p = _
  rw [if_neg hseen]
  rfl

theorem applyFork_behind (ha : ¬ p.Abreast a) :
    (applyFork tell a).on p = (locking a (decideFork tell a)).on (p.roused a) := by
  unfold applyFork
  rw [on_bind, noticed_behind ha]
  rfl

theorem ends_applyFork {ok : Option ForkAction → Program → Prop} {halted : Halt → Program → Prop}
    (ha : ¬ p.Abreast a) (hl : (p.agents a).locked = false) :
    Ends (applyFork tell a) p ok halted ↔ Ends (decideFork tell a) (p.deciding a)
      (fun r q => ok r (q.amend a fun x => { x with locked := false }))
      (fun e q => halted e (q.amend a fun x => { x with locked := false })) := by
  have hrow : ((p.roused a).agents a).locked = false := by simpa [roused] using hl
  have hlocked : (p.roused a).amend a (fun x => { x with locked := true }) = p.deciding a := by
    unfold roused deciding
    rw [annotate_amend, amend_amend]
  have hlocking : Ends (locking a (decideFork tell a)) (p.roused a) ok halted ↔ _ := ends_locking hrow
  rw [hlocked] at hlocking
  rw [← hlocking]
  unfold Ends
  rw [applyFork_behind ha]

theorem Follows.deciding (hp : p.Sound) : Follows (some a) free p (p.deciding a) :=
  (Follows.lock hp (by simp) rfl rfl).annotate _

theorem applyFork_abreast (ha : p.Abreast a) : (applyFork tell a).on p = (.ok none, p) := by
  have hn : (noticed a).on p = (.ok false, p) := by
    unfold noticed
    rw [on_bind]
    change ((if (p.agents a).seen = p.generation then _ else _ : Act Bool)).on p = _
    have hseen : (p.agents a).seen = p.generation := ha
    rw [if_pos hseen]
    rfl
  unfold applyFork
  rw [on_bind, hn]
  rfl

theorem Sound.settled (hp : p.Sound) (hc : p.Calm) (hl : (p.agents a).locked = false) :
    p.Aligned a ∧ (p.slot = some a → (p.agents a).phase = .running) := by
  refine ⟨hp.aligned hc a hl, fun hs => ?_⟩
  rcases hp.holder hc a hs with h | h
  · rw [hl] at h
    cases h
  · exact h.1

theorem applyFork_goes (T : Teller tell able) (hp : p.Sound)
    (halive : (p.agents a).alive = true) (hl : (p.agents a).locked = false)
    (hs : Ready able p (p.agents a).store) (hnew : ¬ p.Abreast a) :
    Goes none none p (applyFork tell a) p (fun _ _ => True) ∧
      ((applyFork tell a).on p).2.Abreast a := by
  have here : Ends (applyFork tell a) p (fun _ q => Follows none none p q ∧ q.Abreast a)
      (fun h q => (Follows none none p q ∧ Broken p h) ∧ q.Abreast a) := by
    rw [ends_applyFork hnew hl]
    have hset := decideFork_goes T (.deciding hp) (by simp [deciding]) hs hnew
    refine Ends.mono hset ?_ ?_
    · rintro _ q ⟨hq, hsettles⟩
      refine ⟨hq.unlock hl halive fun hc => ?_, by simpa [Abreast] using hq.owner a rfl⟩
      obtain ⟨hal, hslot⟩ := hp.settled hc hl
      exact hsettles (annotate_aligned.2 (hal.of_row ⟨rfl, rfl, rfl, rfl⟩))
        (by simpa [deciding] using hslot)
    · rintro h q ⟨hq, hbroken⟩
      refine ⟨⟨hq.unlock hl halive fun hc => absurd hc hbroken.2, hbroken⟩, ?_⟩
      simpa [Abreast] using hq.owner a rfl
  refine ⟨Ends.mono here (fun _ _ h => ⟨h.1, trivial⟩) fun _ _ h => h.1, ?_⟩
  exact (Ends.mono here (fun _ _ h => h.2) fun _ _ h => h.2).left

theorem discard_applyFork_abreast (ha : p.Abreast a) :
    (discard (applyFork tell a)).on p = (.ok (), p) := by
  rw [on_discard, applyFork_abreast ha]

theorem Teller.next (T : Teller tell able) :
    Teller (fun b => discard (applyFork tell b)) True where
  abreast := discard_applyFork_abreast
  behind := by
    intro _ p a hp halive _ hl hseen
    by_cases ha : p.Abreast a
    · have hon : (discard (applyFork tell a)).on p = (.ok (), p) := discard_applyFork_abreast ha
      refine ⟨(ends_of_on hon).2 ⟨Follows.refl hp, trivial⟩, ?_⟩
      rw [hon]
      exact ha
    · obtain ⟨hgo, hafter⟩ := applyFork_goes T hp halive hl (.inr hseen) ha
      refine ⟨hgo.discard fun _ _ h => h, ?_⟩
      rw [on_discard_snd]
      exact hafter

/-- At the bottom nobody has to be told any more. -/
theorem teller_one : Teller (fun b => discard (settle 1 b)) False where
  abreast := discard_applyFork_abreast
  behind := fun h => h.elim

theorem teller_two : Teller (fun b => discard (settle 2 b)) True := teller_one.next

theorem teller : Teller tellAgent True := teller_two.next

theorem handleFork_abreast (ha : p.Abreast a) : (handleFork a).on p = (.ok none, p) :=
  applyFork_abreast ha

/-- Handling a fork halts only by a panic, and the agent has seen the fork either way. -/
theorem handleFork_goes (hp : p.Sound) (halive : (p.agents a).alive = true)
    (hl : (p.agents a).locked = false) :
    Goes none none p (handleFork a) p (fun _ q => q.Abreast a) ∧
      ((handleFork a).on p).2.Abreast a := by
  by_cases ha : p.Abreast a
  · have hon := handleFork_abreast ha
    refine ⟨(ends_of_on hon).2 ⟨Follows.refl hp, ha⟩, ?_⟩
    rw [hon]
    exact ha
  · obtain ⟨hgo, hafter⟩ := applyFork_goes teller_two hp halive hl (.inl trivial) ha
    refine ⟨?_, hafter⟩
    have hends : Ends (handleFork a) p (fun _ q => q.Abreast a) (fun _ _ => True) := by
      rw [ends_iff]
      exact ⟨fun _ _ => hafter, fun _ _ => trivial⟩
    refine Ends.mono (Ends.and hgo hends) ?_ fun _ _ h => h.1
    exact fun _ _ ⟨⟨hq, _⟩, hb⟩ => ⟨hq, hb⟩

theorem tellAgent_goes (hp : p.Sound) (halive : (p.agents a).alive = true)
    (hl : (p.agents a).locked = false) :
    Goes none none p (tellAgent a) p (fun _ q => q.Abreast a) :=
  (handleFork_goes hp halive hl).1.discard fun _ _ h => h

end ProfilingAgent.Program
