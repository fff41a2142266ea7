import ProfilingAgent.Proofs.Aware
import ProfilingAgent.Proofs.Watching

set_option autoImplicit false

namespace ProfilingAgent.Program

open Act

variable {tell : AgentId → Act Unit} {able : Prop} {p q r : Program} {a : AgentId} {s : StoreId}

structure Called (new : List SamplerCall) (p q : Program) : Prop where
  generation : q.generation = p.generation
  stores : p.Quiet → q.stores = p.stores
  globals : ∀ s, (q.stores s).tags.globals = (p.stores s).tags.globals
  aware : ∀ s, p.Aware s → q.Aware s
  slot : q.slot = p.slot
  calls : q.calls = p.calls ++ new
  phase : ∀ b, (q.agents b).phase = (p.agents b).phase
  settings : ∀ b, (q.agents b).settings = (p.agents b).settings
  store : ∀ b, (q.agents b).store = (p.agents b).store
  sampler : ∀ b, (q.agents b).sampler = (p.agents b).sampler

namespace Called

variable {new new' : List SamplerCall}

theorem quiet (h : Called new p q) : q.Quiet ↔ p.Quiet := by
  unfold Quiet
  simp only [h.sampler]

theorem trans (h : Called new p q) (h' : Called new' q r) : Called (new ++ new') p r where
  generation := h'.generation.trans h.generation
  stores hp := (h'.stores (h.quiet.2 hp)).trans (h.stores hp)
  globals s := (h'.globals s).trans (h.globals s)
  aware s hs := h'.aware s (h.aware s hs)
  slot := h'.slot.trans h.slot
  calls := by rw [h'.calls, h.calls, List.append_assoc]
  phase b := (h'.phase b).trans (h.phase b)
  settings b := (h'.settings b).trans (h.settings b)
  store b := (h'.store b).trans (h.store b)
  sampler b := (h'.sampler b).trans (h.sampler b)

theorem refl (p : Program) : Called [] p p :=
  ⟨rfl, fun _ => rfl, fun _ => rfl, fun _ => id, rfl, by simp, fun _ => rfl, fun _ => rfl, fun _ => rfl,
    fun _ => rfl⟩

theorem annotate (h : Called new p q) (notes : List (ThreadId × Log.Event)) :
    Called new p (q.annotate notes) :=
  ⟨h.generation, h.stores, h.globals, h.aware, h.slot, h.calls, h.phase, h.settings, h.store, h.sampler⟩

theorem amend {f : Agent → Agent} (h : Called new p q) (hf : ∀ x, (f x).phase = x.phase ∧
    (f x).settings = x.settings ∧ (f x).store = x.store ∧ (f x).sampler = x.sampler) :
    Called new p (q.amend a f) where
  generation := h.generation
  stores := h.stores
  globals := h.globals
  aware := h.aware
  slot := h.slot
  calls := h.calls
  phase b := (amend_field q a b f Agent.phase (hf _).1).trans (h.phase b)
  settings b := (amend_field q a b f Agent.settings (hf _).2.1).trans (h.settings b)
  store b := (amend_field q a b f Agent.store (hf _).2.2.1).trans (h.store b)
  sampler b := (amend_field q a b f Agent.sampler (hf _).2.2.2).trans (h.sampler b)

theorem call (h : Called new p q) (c : SamplerCall) : Called (new ++ [c]) p (q.call c) where
  generation := h.generation
  stores := h.stores
  globals := h.globals
  aware := h.aware
  slot := h.slot
  calls := by rw [call_calls, h.calls, List.append_assoc]
  phase := h.phase
  settings := h.settings
  store := h.store
  sampler := h.sampler

theorem of_retagged {tags : TagStore} (h : Retagged s tags (p.mark s) q)
    (htags : tags.globals = (p.stores s).tags.globals) (hp : ¬ p.Quiet) : Called [] p q where
  generation := h.same.generation
  stores hquiet := absurd hquiet hp
  globals t := by
    by_cases ht : t = s
    · rw [ht, h.tags, htags]
    · rw [h.others t ht]
      simp [ht]
  aware t ht := by
    rw [h.aware]
    unfold Aware at ht ⊢
    by_cases hts : t = s <;> simp [hts, ht]
  slot := h.same.slot
  calls := by simpa using h.same.calls
  phase _ := by rw [h.same.agents, mark_agents]
  settings _ := by rw [h.same.agents, mark_agents]
  store _ := by rw [h.same.agents, mark_agents]
  sampler _ := by rw [h.same.agents, mark_agents]

end Called

/-- An agent in transition that is asked for its state has nothing to decide first. -/
theorem useAll_quiet (N : Teller tell able) (ha : p.Abreast a) {us : List Use}
    (hus : ∀ u ∈ us, u = .state) : (useAll tell a s us).on p = (.ok (), p) := by
  induction us with
  | nil => rfl
  | cons u us ih =>
    obtain rfl : u = .state := hus u List.mem_cons_self
    have hstate : (useOnce tell a s .state).on p = (.ok (), p) := N.abreast ha
    unfold useAll
    rw [on_bind, hstate]
    exact ih fun v hv => hus v (List.mem_cons_of_mem _ hv)

theorem carryOut_quiet (N : Teller tell able) (ha : p.Abreast a) {x : Reply}
    (hx : ∀ u ∈ x.uses, u = .state) :
    Ends (carryOut tell a x) p (fun _ q => q = p) fun _ q => q = p := by
  unfold carryOut
  rw [ends_bind, ends_agent, ends_bind, ends_of_on (useAll_quiet N ha hx)]
  cases x.ending <;> exact rfl

/-- An agent that watches its store comes to know nothing new when its sampler uses the store. -/
theorem useOnce_modest (N : Teller tell able) (hp : Watches a s p) {u : Use} (hu : u.Modest)
    (hstate : p.Quiet → u = .state) :
    Ends (useOnce tell a s u) p (fun _ q => Called [] p q ∧ Watches a s q) fun _ _ => True := by
  by_cases hs : u = .state
  · subst hs
    have htold : (useOnce tell a s .state).on p = (.ok (), p) := N.abreast hp.abreast
    rw [ends_of_on htold]
    exact ⟨.refl p, hp⟩
  · have haware : (p.mark s).Aware s := by simp [Aware]
    have hused := useOnce_aware N haware hp.mark.abreast u
    obtain ⟨α, f, hf⟩ := useOnce_eq tell a s hs
    rw [hf, ends_discard, ends_bind, ends_of_on (checkStore_seen haware)] at hused
    rw [hf, ends_discard, ends_bind, ends_of_on (checkStore_watches N hp)]
    refine Ends.mono hused (fun _ q hq => ⟨.of_retagged hq ?_ fun hquiet => hs (hstate hquiet), ?_⟩)
      fun _ _ h => h
    · rw [hu.globals]
      simp
    · exact hp.mark.same hq.same

theorem useAll_modest (N : Teller tell able) (hp : Watches a s p) {us : List Use}
    (hus : ∀ u ∈ us, u.Modest) (hstate : p.Quiet → ∀ u ∈ us, u = .state) :
    Ends (useAll tell a s us) p (fun _ q => Called [] p q) fun _ _ => True := by
  induction us generalizing p with
  | nil => exact .refl p
  | cons u us ih =>
    unfold useAll
    rw [ends_bind]
    refine Ends.mono (useOnce_modest N hp (hus u List.mem_cons_self) fun hquiet =>
      hstate hquiet u List.mem_cons_self) ?_ fun _ _ h => h
    rintro _ q ⟨hq, hwatches⟩
    refine Ends.mono (ih hwatches (fun v hv => hus v (List.mem_cons_of_mem u hv)) fun hquiet v hv =>
      hstate (hq.quiet.1 hquiet) v (List.mem_cons_of_mem u hv)) ?_ fun _ _ h => h
    exact fun _ r hr => hq.trans hr

theorem answer_called (N : Teller tell able) (hp : p.Reserved a) (ha : p.Abreast a) {script : Script}
    (hs : (p.agents a).sampler = .scripted script) {f : Agent → Agent} {c : SamplerCall} {x : Reply}
    (hquiet : script.Quiet → ∀ u ∈ x.uses, u = .state)
    (hmodest : script.Modest → ∀ u ∈ x.uses, u.Modest) (hseen : ∀ x, (f x).seen = x.seen)
    (hf : ∀ x, (f x).phase = x.phase ∧ (f x).settings = x.settings ∧ (f x).store = x.store ∧
      (f x).sampler = x.sampler) :
    Ends (carryOut tell a x) ((p.amend a f).call c) (fun _ q => Called [c] p q) fun _ _ => True := by
  have before : Called [c] p ((p.amend a f).call c) := ((Called.refl p).amend hf).call c
  have ha' : ((p.amend a f).call c).Abreast a := by simpa [Abreast, hseen] using ha
  have hstore : (((p.amend a f).call c).agents a).store = (p.agents a).store := before.store a
  have hused : Ends (useAll tell a (p.agents a).store x.uses) ((p.amend a f).call c)
      (fun _ q => Called [] ((p.amend a f).call c) q) fun _ _ => True := by
    rcases hp script hs with hscript | ⟨hscript, hwatcher⟩
    · rw [ends_of_on (useAll_quiet N ha' (hquiet hscript))]
      exact .refl _
    · exact useAll_modest N ⟨ha', hwatcher, hstore⟩ (hmodest hscript)
        fun hq => hquiet (before.quiet.1 hq a script hs)
  unfold carryOut
  rw [ends_bind, ends_agent, ends_bind, hstore]
  refine Ends.mono hused ?_ fun _ _ h => h
  intro _ q hq
  have hcalled : Called [c] p q := before.trans hq
  cases x.ending with
  | succeeds => exact hcalled
  | fails => exact hcalled
  | panics _ => trivial

theorem callStart_called (N : Teller tell able) (hp : p.Reserved a) (ha : p.Abreast a) (c : Settings) :
    Ends (callStart tell a c) p (fun _ q => ∃ new, Called new p q ∧
      ∀ k ∈ new, k = .start a c (p.stores (p.agents a).store).tags.globals) fun _ _ => True := by
  unfold callStart
  rw [ends_bind, ends_agent]
  cases hs : (p.agents a).sampler with
  | idle => exact ⟨[], (Called.refl p).annotate _, by simp⟩
  | scripted script =>
    simp only [ends_bind, ends_updateAgent, ends_globals, ends_record]
    refine Ends.mono (answer_called N hp ha hs (fun h => (h _).1) (fun h => (h _).1) (fun _ => rfl)
      (by simp)) ?_ fun _ _ h => h
    exact fun _ q hq => ⟨_, hq, by simp⟩

theorem callStop_called (N : Teller tell able) (hp : p.Reserved a) (ha : p.Abreast a) :
    Ends (callStop tell a) p (fun _ q => ∃ new, Called new p q ∧ ∀ k ∈ new, k = .stop a
      (if (p.agents a).starts = 0 then none
        else some (p.stores (p.agents a).store).tags.globals) ∧
      ∃ script, (p.agents a).sampler = .scripted script) fun _ _ => True := by
  unfold callStop
  rw [ends_bind, ends_agent]
  cases hs : (p.agents a).sampler with
  | idle => exact ⟨[], Called.refl p, by simp⟩
  | scripted script =>
    simp only [ends_bind, ends_updateAgent, ends_globals, ends_record]
    refine Ends.mono (answer_called N hp ha hs (fun h => (h _).2.1) (fun h => (h _).2.1) (fun _ => rfl)
      (by simp)) ?_ fun _ _ h => h
    exact fun _ q hq => ⟨_, hq, by simp⟩

theorem callReset_called (N : Teller tell able) (hp : p.Reserved a) (ha : p.Abreast a) :
    Ends (callReset tell a) p (fun _ q => ∃ new, Called new p q ∧ ∀ k ∈ new, k = .reset a)
      fun _ _ => True := by
  unfold callReset
  rw [ends_bind, ends_agent]
  cases hs : (p.agents a).sampler with
  | idle => exact ⟨[], Called.refl p, by simp⟩
  | scripted script =>
    simp only [ends_bind, ends_updateAgent, ends_record, ends_discard]
    refine Ends.mono (answer_called N hp ha hs (fun h => (h _).2.2) (fun h => (h _).2.2) (fun _ => rfl)
      (by simp)) ?_ fun _ _ h => h
    exact fun _ q hq => ⟨_, hq, by simp⟩

theorem decideFork_idle (N : Teller tell able) (hp : p.Quiet) (ha : p.Abreast a)
    (hrun : (p.agents a).phase ≠ .running) :
    Ends (decideFork tell a) p (fun _ q => ∃ new, Called new p q ∧ ∀ k ∈ new, k = .reset a)
      fun _ _ => True := by
  unfold decideFork
  rw [ends_bind]
  refine Ends.mono (callReset_called N (fun script hs => .inl (hp a script hs)) ha) ?_ fun _ _ h => h
  rintro _ q ⟨new, hq, hnew⟩
  unfold carryOn
  rw [ends_bind, ends_agent, if_pos (by rw [hq.phase]; exact hrun), ends_bind, ends_note, ends_pure]
  exact ⟨new, hq.annotate _, hnew⟩

theorem applyFork_idle (N : Teller tell able) (hp : p.Quiet) (hrun : (p.agents a).phase ≠ .running)
    (hl : (p.agents a).locked = false) :
    Ends (applyFork tell a) p (fun _ q => ∃ new, Called new p q ∧ ∀ k ∈ new, k = .reset a)
      fun _ _ => True := by
  by_cases ha : p.Abreast a
  · rw [ends_of_on (applyFork_abreast ha)]
    exact ⟨[], Called.refl p, by simp⟩
  · rw [ends_applyFork ha hl]
    have hsame : Called [] p (p.deciding a) := ((Called.refl p).amend (by simp)).annotate _
    refine Ends.mono (decideFork_idle N (fun b script hs => hp b script ?_) ?_ ?_) ?_ fun _ _ _ => trivial
    · by_cases hb : b = a
      · subst hb
        simpa [deciding] using hs
      · simpa [deciding, hb] using hs
    · simp [Abreast, deciding]
    · rw [hsame.phase]
      exact hrun
    · rintro _ q ⟨new, hq, hnew⟩
      exact ⟨new, by simpa using (hsame.trans hq).amend (by simp), hnew⟩

end ProfilingAgent.Program
