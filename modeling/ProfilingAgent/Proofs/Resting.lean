import ProfilingAgent.Proofs.Moving

set_option autoImplicit false

namespace ProfilingAgent.Program

open Act

variable {free : Option AgentId} {p q : Program} {a : AgentId} {s : StoreId}

structure AtRest (p : Program) : Prop where
  sound : p.Sound
  unlocked : ∀ a, (p.agents a).locked = false
  looked : ∀ s, (p.stores s).hook.seen ≤ p.generation
  told : ∀ s a, (p.stores s).hook.watcher = some (.agent a) → (p.agents a).alive = true →
    (p.stores s).hook.seen = p.generation → p.Abreast a

theorem AtRest.follows (hp : p.AtRest) (h : Follows none free p q) : q.AtRest where
  sound := h.sound
  unlocked b := (h.locked b (by simp)).trans (hp.unlocked b)
  looked s := by
    rw [h.generation]
    rcases h.told s with hs | hs
    · rw [hs]
      exact hp.looked s
    · exact Nat.le_of_eq hs.1
  told s b hw hb hs := by
    rw [h.watcher] at hw
    rw [h.alive] at hb
    rcases h.told s with hs' | hs'
    · rw [hs', h.generation] at hs
      exact h.abreast b (hp.told s b hw hb hs)
    · exact hs'.2 b hw hb

theorem AtRest.holder (hp : p.AtRest) (hc : p.Calm) (h : p.slot = some a) :
    (p.agents a).phase = .running ∧ (p.agents a).alive = true := by
  rcases hp.sound.holder hc a h with hl | hr
  · rw [hp.unlocked a] at hl
    cases hl
  · exact hr

theorem agents_size (p : Program) : p.agents p.agents.size = default := Table.row_size p.agents

theorem start_atRest (pid : UInt32) (handler : Bool) : (start pid handler).AtRest where
  sound :=
    { held := fun b hb => by cases hb
      slotted := fun b hb => by cases hb
      home := fun t b hw => by cases hw
      aligned := fun _ b _ => ⟨rfl, fun hr => by cases hr⟩
      holder := fun _ b hb => by cases hb }
  unlocked _ := rfl
  looked _ := Nat.le_refl 0
  told t b hw := by cases hw

theorem AtRest.forked (hp : p.AtRest) (pid : UInt32) :
    AtRest { p with pid := pid, generation := p.generation + 1 } where
  sound :=
    { held := fun b hb => by
        have hl : (p.agents b).locked = true := hb
        rw [hp.unlocked b] at hl
        cases hl
      slotted := hp.sound.slotted
      home := hp.sound.home
      aligned := fun hc b hb => (hp.sound.aligned hc b hb).congr rfl rfl
      holder := hp.sound.holder }
  unlocked := hp.unlocked
  looked t := Nat.le_succ_of_le (hp.looked t)
  told t b _ _ hs := by
    have hle := hp.looked t
    have heq : (p.stores t).hook.seen = p.generation + 1 := hs
    omega

/-- What agents do not notice, and what has no watcher or only one that was there. -/
theorem AtRest.same (hp : p.AtRest) (h : Same p q)
    (hseen : ∀ t, (q.stores t).hook.seen = (p.stores t).hook.seen ∨
      (q.stores t).hook.seen = p.generation ∧ ∀ b, (q.stores t).hook.watcher ≠ some (.agent b)) :
    q.AtRest where
  sound := h.sound hp.sound
  unlocked b := by
    rw [h.agents]
    exact hp.unlocked b
  looked t := by
    rw [h.generation]
    rcases hseen t with hs | hs
    · rw [hs]
      exact hp.looked t
    · exact Nat.le_of_eq hs.1
  told t b hw hb hs := by
    rcases hseen t with hs' | hs'
    · rw [h.watcher] at hw
      rw [h.agents] at hb
      rw [hs', h.generation] at hs
      exact (h.abreast b).2 (hp.told t b hw hb hs)
    · exact absurd hw (hs'.2 b)

theorem AtRest.newStore (hp : p.AtRest) :
    AtRest { p with stores := p.stores.push ⟨.empty, ⟨p.generation, none⟩⟩ } := by
  have hrow : ∀ t, (p.stores.push ⟨.empty, ⟨p.generation, none⟩⟩) t =
      if t = p.stores.size then ⟨.empty, ⟨p.generation, none⟩⟩ else p.stores t :=
    Table.push_row _ _
  have hnone : (p.stores p.stores.size).hook.watcher = none := by
    rw [Table.row_size]
    rfl
  refine hp.same ⟨rfl, rfl, rfl, rfl, fun t => ?_⟩ fun t => ?_
  · dsimp only
    rw [hrow]
    by_cases ht : t = p.stores.size
    · rw [if_pos ht, ht, hnone]
    · rw [if_neg ht]
  · dsimp only
    rw [hrow]
    by_cases ht : t = p.stores.size
    · rw [if_pos ht]
      exact .inr ⟨rfl, by simp⟩
    · rw [if_neg ht]
      exact .inl rfl

def watched (p : Program) (s : StoreId) (w : Watcher) : Program :=
  { p with stores := p.stores.update s fun x => { x with hook := { x.hook with watcher := some w } } }

@[simp] theorem watched_stores (p : Program) (s t : StoreId) (w : Watcher) :
    (p.watched s w).stores t = if t = s then ⟨(p.stores s).tags, ⟨(p.stores s).hook.seen, some w⟩⟩
      else p.stores t :=
  Table.update_row p.stores s t _

@[simp] theorem watched_generation (p : Program) (s : StoreId) (w : Watcher) :
    (p.watched s w).generation = p.generation := rfl

theorem AtRest.watched {c : CounterId} (hp : p.AtRest) : (p.watched s (.counter c)).AtRest := by
  have hw : ∀ t b, ((p.watched s (.counter c)).stores t).hook.watcher = some (.agent b) →
      t ≠ s ∧ (p.stores t).hook.watcher = some (.agent b) := by
    intro t b hw
    by_cases ht : t = s
    · simp [ht] at hw
    · exact ⟨ht, by simpa [ht] using hw⟩
  exact
    { sound :=
        { held := hp.sound.held
          slotted := hp.sound.slotted
          home := fun t b h => hp.sound.home t b (hw t b h).2
          aligned := fun hc b hb => (hp.sound.aligned hc b hb).congr rfl rfl
          holder := hp.sound.holder }
      unlocked := hp.unlocked
      looked := fun t => by
        by_cases ht : t = s
        · simpa [ht] using hp.looked s
        · simpa [ht] using hp.looked t
      told := fun t b h hb hs => by
        obtain ⟨ht, h'⟩ := hw t b h
        exact hp.told t b h' hb (by simpa [ht] using hs) }

def housed (p : Program) (s : StoreId) (sampler : Sampler) : Program :=
  { p with
    agents := p.agents.push ⟨s, true, p.generation, .fresh, none, false, sampler, 0, 0, 0⟩
    stores := p.stores.update s fun x =>
      { x with hook := { x.hook with watcher := some (.agent p.agents.size) } } }

section Housed

variable {sampler : Sampler} {b : AgentId}

theorem housed_new : (p.housed s sampler).agents p.agents.size =
    ⟨s, true, p.generation, .fresh, none, false, sampler, 0, 0, 0⟩ := by
  unfold housed
  dsimp only
  rw [Table.push_row, if_pos rfl]

theorem housed_old (hb : b ≠ p.agents.size) : (p.housed s sampler).agents b = p.agents b := by
  unfold housed
  dsimp only
  rw [Table.push_row, if_neg hb]

@[simp] theorem housed_stores (t : StoreId) : (p.housed s sampler).stores t =
    if t = s then ⟨(p.stores s).tags, ⟨(p.stores s).hook.seen, some (.agent p.agents.size)⟩⟩
    else p.stores t :=
  Table.update_row p.stores s t _

@[simp] theorem housed_generation : (p.housed s sampler).generation = p.generation := rfl

theorem housed_calm (hc : (p.housed s sampler).Calm) : p.Calm := by
  intro b script hs
  by_cases hb : b = p.agents.size
  · rw [hb, agents_size] at hs
    cases hs
  · exact hc b script (by rw [housed_old hb, hs])

theorem AtRest.housed (hp : p.AtRest) : (p.housed s sampler).AtRest where
  sound :=
    { held := fun b hb => by
        by_cases h : b = p.agents.size
        · rw [h, housed_new] at hb
          cases hb
        · rw [housed_old h, hp.unlocked b] at hb
          cases hb
      slotted := fun b hb => by
        by_cases h : b = p.agents.size
        · rw [h, housed_new] at hb
          cases hb
        · rw [housed_old h] at hb
          exact hp.sound.slotted b hb
      home := fun t b hw => by
        have hsize : (p.housed s sampler).agents.size = p.agents.size + 1 := Table.size_push _ _
        rw [hsize]
        by_cases ht : t = s
        · obtain rfl : p.agents.size = b := by simpa [ht] using hw
          rw [housed_new]
          exact ⟨Nat.lt_succ_self _, ht.symm⟩
        · obtain ⟨hlt, hstore⟩ := hp.sound.home t b (by simpa [ht] using hw)
          rw [housed_old (Nat.ne_of_lt hlt)]
          exact ⟨Nat.lt_succ_of_lt hlt, hstore⟩
      aligned := fun hc b _ => by
        by_cases h : b = p.agents.size
        · -- Nobody had called the sampler of an agent that was not there.
          have hst := (hp.sound.aligned (housed_calm hc) p.agents.size (hp.unlocked _)).stands
          unfold Stands at hst
          rw [agents_size] at hst
          have hcalls : (p.housed s sampler).callsOf p.agents.size = [] := hst
          subst h
          constructor
          · unfold Stands
            rw [housed_new, hcalls]
            cases sampler with
            | idle => rfl
            | scripted script => exact ⟨Standing.obeyed_nil script, rfl⟩
          · rw [housed_new]
            simp
        · exact (hp.sound.aligned (housed_calm hc) b (hp.unlocked b)).congr (housed_old h) rfl
      holder := fun hc b hb => by
        have hrun := hp.holder (housed_calm hc) hb
        have h : b ≠ p.agents.size := by
          rintro rfl
          rw [agents_size] at hrun
          cases hrun.1
        rw [housed_old h]
        exact .inr hrun }
  unlocked b := by
    by_cases h : b = p.agents.size
    · rw [h, housed_new]
    · rw [housed_old h]
      exact hp.unlocked b
  looked t := by
    by_cases ht : t = s
    · simpa [ht] using hp.looked s
    · simpa [ht] using hp.looked t
  told t b hw hb hs := by
    by_cases ht : t = s
    · obtain rfl : p.agents.size = b := by simpa [ht] using hw
      unfold Abreast
      rw [housed_new]
      rfl
    · have hw' : (p.stores t).hook.watcher = some (.agent b) := by simpa [ht] using hw
      have hne : b ≠ p.agents.size := Nat.ne_of_lt (hp.sound.home t b hw').1
      rw [housed_old hne] at hb
      have hab := hp.told t b hw' hb (by simpa [ht] using hs)
      unfold Abreast
      rw [housed_old hne]
      exact hab

end Housed

theorem AtRest.dropped (hp : p.AtRest) (h : (p.agents a).phase ≠ .running ∨ ¬ p.Calm) :
    (p.amend a fun x => { x with alive := false }).AtRest := by
  have hother : ∀ b, b ≠ a →
      (p.amend a fun x => { x with alive := false }).agents b = p.agents b :=
    fun b => amend_of_ne p a b _
  have hcalm : (p.amend a fun x => { x with alive := false }).Calm ↔ p.Calm :=
    Calm.congr fun b => dropped_field p a b Agent.sampler fun _ => rfl
  have habreast : ∀ b, (p.amend a fun x => { x with alive := false }).Abreast b ↔ p.Abreast b :=
    fun b => Abreast.congr (dropped_field p a b Agent.seen fun _ => rfl) rfl
  have hlocked := fun b => dropped_field p a b Agent.locked fun _ => rfl
  have hphase := fun b => dropped_field p a b Agent.phase fun _ => rfl
  have hstore := fun b => dropped_field p a b Agent.store fun _ => rfl
  exact
    { sound :=
        { held := fun b hb => by
            rw [hlocked b, hp.unlocked b] at hb
            cases hb
          slotted := fun b hb => hp.sound.slotted b (hphase b ▸ hb)
          home := fun t b hw => by
            obtain ⟨hlt, hhome⟩ := hp.sound.home t b hw
            exact ⟨Nat.lt_of_lt_of_le hlt (size_le_amend p a _), (hstore b).trans hhome⟩
          aligned := fun hc b _ => by
            have hal := hp.sound.aligned (hcalm.1 hc) b (hp.unlocked b)
            by_cases hb : b = a
            · subst hb
              exact hal.of_row ⟨rfl, rfl, rfl, rfl⟩
            · exact hal.congr (hother b hb) rfl
          holder := fun hc b hb => by
            have hrun := hp.holder (hcalm.1 hc) hb
            have hba : b ≠ a := by
              rintro rfl
              rcases h with h | h
              · exact h hrun.1
              · exact h (hcalm.1 hc)
            rw [hother b hba]
            exact .inr hrun }
      unlocked := fun b => (hlocked b).trans (hp.unlocked b)
      looked := hp.looked
      told := fun t b hw hb hs => by
        have hba : b ≠ a := by
          rintro rfl
          simp at hb
        rw [hother b hba] at hb
        exact (habreast b).2 (hp.told t b hw hb hs) }

theorem AtRest.yielded (hp : p.AtRest) (h : (p.agents a).phase ≠ .running) :
    (p.yieldSlot a).AtRest := by
  have hcalm : (p.yieldSlot a).Calm ↔ p.Calm := Calm.congr fun _ => by rw [yieldSlot_agents]
  have habreast : ∀ b, (p.yieldSlot a).Abreast b ↔ p.Abreast b :=
    fun b => Abreast.congr (by rw [yieldSlot_agents]) (yieldSlot_generation p a)
  exact
    { sound :=
        { held := fun b hb => (habreast b).2 (hp.sound.held b (by simpa using hb))
          slotted := fun b hb => by
            rw [yieldSlot_agents] at hb
            refine (yieldSlot_slot p a b).2 ⟨hp.sound.slotted b hb, ?_⟩
            rintro rfl
            exact h hb
          home := fun t b hw => by
            rw [yieldSlot_stores] at hw
            rw [yieldSlot_agents]
            exact hp.sound.home t b hw
          aligned := fun hc b _ =>
            (hp.sound.aligned (hcalm.1 hc) b (hp.unlocked b)).congr (by rw [yieldSlot_agents])
              (by unfold callsOf; rw [yieldSlot_calls])
          holder := fun hc b hb => by
            rw [yieldSlot_agents]
            exact .inr (hp.holder (hcalm.1 hc) ((yieldSlot_slot p a b).1 hb).1) }
      unlocked := fun b => by
        rw [yieldSlot_agents]
        exact hp.unlocked b
      looked := fun t => by
        rw [yieldSlot_stores, yieldSlot_generation]
        exact hp.looked t
      told := fun t b hw hb hs => by
        rw [yieldSlot_stores] at hw hs
        rw [yieldSlot_agents] at hb
        rw [yieldSlot_generation] at hs
        exact (habreast b).2 (hp.told t b hw hb hs) }

end ProfilingAgent.Program
