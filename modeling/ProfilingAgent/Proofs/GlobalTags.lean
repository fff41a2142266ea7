import ProfilingAgent.Proofs.Accounts

set_option autoImplicit false

namespace ProfilingAgent

open Act Program

namespace Program

variable {own free : Option AgentId} {p₀ p q r : Program} {a : AgentId} {s : StoreId} {E : Ledger}
  {c : Settings}

theorem callStart_dressed (hd : Dressed E a c.validTags p) (hreserved : p.Reserved a) (ha : p.Abreast a) :
    Ends (callStart tellAgent a c) p (fun _ q => ∃ new, Called new p q ∧
      Dressed E a c.validTags q ∧ ∀ k ∈ new, Squares E p k) fun _ _ => True := by
  refine Ends.mono (callStart_called teller hreserved ha c) ?_ fun _ _ h => h
  rintro _ q ⟨new, hcalled, hnew⟩
  refine ⟨new, hcalled, hd.called hcalled, fun k hk => ?_⟩
  rw [hnew k hk]
  have htags := hd.tags (p.agents a).store
  rw [if_pos rfl] at htags
  exact htags

theorem Called.seen {new : List SamplerCall} {old tags : List Tag}
    (h : Called new (q.exchanged s old tags) r) (hseen : (q.stores s).hook.seen = q.generation) :
    (r.stores s).hook.seen = r.generation := by
  refine h.aware s ?_
  unfold Aware exchanged
  simpa using hseen

/-- An agent exchanges the tags that it attached for those of the settings to come, and has its
sampler started while these are attached. -/
theorem engage_books {k : Except TagError Unit → Act (Except AgentError Unit)}
    {f : Bool → Act (Except AgentError Unit)} {ok : Except AgentError Unit → Program → Prop}
    {old : List Tag} (hp : p.Sound) (hc : p.Calm) (hdiscreet : p.Discreet)
    (halive : (p.agents a).alive = true) (hl : (p.agents a).locked = true) (hE : Accounts E p)
    (hs : (p.agents a).store = s)
    (hold : ∀ q, Follows none none p q → Accounts E q → Dressed E a old q)
    (hk : k (.ok ()) = callStart tellAgent a c >>= f)
    (hf : ∀ b q, Squared E p q → Dressed E a c.validTags q →
      (q.agents a).phase = (p.agents a).phase → (q.agents a).store = s →
      (q.stores s).hook.seen = q.generation →
      Ends (f b) q ok fun _ _ => True) :
    Ends (replaceGlobalsWith tellAgent s old c.validTags >>= k) p ok fun _ _ => True := by
  rw [ends_bind]
  refine Ends.mono (exchange_books clerk hp hc hdiscreet (.inl trivial) hE c.isValid_of_mem_validTags) ?_
    fun _ _ _ => trivial
  rintro _ _ ⟨rfl, q, hq, hbooks, hseen, rfl⟩
  obtain ⟨hrow, -, -⟩ := hq.kept hl
  have hd := (hold q hq hbooks.accounts).exchanged c.validTags
  rw [hrow, hs] at hd
  have hab : q.Abreast a := hq.sound.held a (by rw [hrow, hl])
  have halive' : (q.agents a).alive = true := (hq.alive a).trans halive
  rw [hk, ends_bind]
  have hdiscreet' : (q.exchanged s old c.validTags).Discreet :=
    (Same.retag q s _).discreet.2 (hq.discreet.2 hdiscreet)
  refine Ends.mono (callStart_dressed hd (hdiscreet' a halive') hab) ?_ fun _ _ _ => trivial
  rintro b r ⟨new, hr, hdr, hnew⟩
  refine hf b r ?_ hdr ?_ ?_ (hr.seen hseen)
  · exact hbooks.calls.trans ⟨new, hr.calls, hnew⟩ hq.store fun b => hq.settings b (by simp)
  · exact (hr.phase a).trans (congrArg Agent.phase hrow)
  · exact (hr.store a).trans ((congrArg Agent.store hrow).trans hs)

/-- If the sampler does not start, the agent takes its tags off again. -/
theorem Dressed.undressed {α : Type} {k : Except TagError Unit → Act α} {tags : List Tag}
    {ok : α → Program → Prop} {halted : Halt → Program → Prop} (h : Dressed E a tags p)
    (hstore : (p.agents a).store = s) (hseen : (p.stores s).hook.seen = p.generation)
    (hk : ∀ q, Dressed E a [] q → q.agents = p.agents → q.calls = p.calls →
      Ends (k (.ok ())) q ok halted) :
    Ends (replaceGlobalsWith tellAgent s tags [] >>= k) p ok halted := by
  have hon : (replaceGlobalsWith tellAgent s tags []).on p = (.ok (.ok ()), p.exchanged s tags []) :=
    exchange_seen hseen (by simp)
  have hbare := h.exchanged []
  rw [hstore] at hbare
  rw [ends_bind, ends_of_on hon]
  exact hk _ hbare rfl rfl

theorem launch_books (hp : p.Sound) (hc : p.Calm) (hdiscreet : p.Discreet)
    (halive : (p.agents a).alive = true) (hl : (p.agents a).locked = true) (hrun : (p.agents a).phase ≠ .running)
    (hslot : p.slot = some a) (hE : Accounts E p) :
    Ends (launch a c) p (fun _ q => Books E p q) fun _ _ => True := by
  unfold launch
  rw [ends_bind, ends_say, ends_bind, ends_agent, ends_bind, ends_configuredTags]
  generalize (List.map _ c.tagRemarks).reverse ++ _ = notes
  generalize _ :: p.notes = notes'
  have hcalled : Called [] p ((p.annotate notes').annotate notes) :=
    ((Called.refl p).annotate _).annotate _
  have hsame : Same p ((p.annotate notes').annotate notes) := ⟨rfl, rfl, rfl, rfl, fun _ => rfl⟩
  refine engage_books (hsame.sound hp) hc hdiscreet halive hl (hE.called hcalled) rfl (fun q hq hEq => ?_) rfl ?_
  · obtain ⟨hrow, -, hk⟩ := hq.kept hl
    refine .of_idle hEq (fun _ => hq.sound.alone (hk.slot.2 hslot)) ?_
    rw [hrow]
    exact hrun
  intro b r hsquared hd hphase hstore hseen
  have hphase' : (r.agents a).phase ≠ .running := by
    rw [hphase]
    exact hrun
  cases b with
  | true =>
    simp only [if_true, ends_bind, ends_note, ends_updateAgent, ends_pure]
    generalize (r.thread, _) :: r.notes = notes
    have hdone : Dressed E a c.validTags
        ((r.annotate notes).amend a fun x => { x with settings := some c, phase := .running }) :=
      hd.congr (fun _ => rfl) (by simp) fun b hb => by simp [hb]
    exact ⟨hdone.running (by simp) (by simp), hsquared.since rfl⟩
  | false =>
    apply hd.undressed hstore hseen
    intro t ht hagents hcalls
    simp only [ends_bind, ends_release, ends_say, ends_pure]
    generalize _ :: (t.yieldSlot a).notes = notes
    have hdone : Dressed E a [] ((t.yieldSlot a).annotate notes) := by
      refine ht.congr (fun _ => ?_) ?_ fun b _ => ?_
      · unfold tagsAt
        simp
      · simp
      · simp
    refine ⟨hdone.idle ?_, hsquared.since ?_⟩
    · simpa [hagents] using hphase'
    · simpa using hcalls

theorem Begun.books (h : Begun a p q) (hp : p.Sound) (hrun : (p.agents a).phase ≠ .running)
    (hE : Accounts E p) : Books E p q := by
  have htags : ∀ s, q.tagsAt s = p.tagsAt s := by
    intro s
    unfold tagsAt
    rw [h.stores]
  have hd : Dressed E a [] p :=
    .of_idle hE (fun b hba hb => h.free b hba (hp.slotted b hb)) hrun
  have hd' : Dressed E a [] q := hd.congr htags h.own.store fun b hb => by rw [h.own.others b hb]
  exact ⟨hd'.idle h.idle, [], by simp [h.calls], by simp⟩

theorem startFrom_books (h : Follows (some a) (some a) p₀ p) (hc : p.Calm) (hdiscreet : p.Discreet)
    (halive : (p.agents a).alive = true) (hl : (p.agents a).locked = true)
    (hrun : (p.agents a).phase ≠ .running) (hE : Accounts E p) :
    Ends (startFrom a (p.agents a).phase c) p (fun _ q => Books E p q) fun _ _ => True := by
  apply startFrom_ends h hl hrun (fun _ => Books.refl hE)
  intro q hq hbegun
  have hbooks := hbegun.books h.sound hrun hE
  refine Ends.mono (launch_books hq.sound (hq.calm.2 (h.calm.1 hc)) (hq.discreet.2 (h.discreet.1 hdiscreet))
    ((hq.alive a).trans ((h.alive a).symm.trans halive)) (hbegun.own.locked.trans hl) hbegun.idle hbegun.slot
    hbooks.accounts) ?_ fun _ _ h => h
  refine fun _ r hr => hbooks.trans hr (fun b => (hbegun.own.all b).1) fun b => ?_
  by_cases hb : b = a
  · rw [hb]
    exact hbegun.settings
  · rw [hbegun.own.others b hb]

theorem relaunch_books {c₀ : Settings} (hp : p.Sound) (hc : p.Calm) (hdiscreet : p.Discreet)
    (halive : (p.agents a).alive = true) (hl : (p.agents a).locked = true)
    (hrun : (p.agents a).phase = .running) (hset : (p.agents a).settings = some c₀) (hE : Accounts E p) :
    Ends (relaunch a (p.agents a).store c₀.validTags c) p (fun _ q => Books E p q)
      fun _ _ => True := by
  unfold relaunch
  rw [ends_bind, ends_configuredTags]
  generalize (List.map _ c.tagRemarks).reverse ++ _ = notes
  refine engage_books ((Same.annotate p notes).sound hp) hc hdiscreet halive hl
    (hE.called ((Called.refl p).annotate notes)) rfl (fun q hq hEq => ?_) rfl ?_
  · obtain ⟨hrow, -, -⟩ := hq.kept hl
    refine .of_running hEq hq.sound ?_ ?_ <;> rw [hrow]
    · exact hrun
    · exact hset
  intro b r hsquared hd hphase hstore hseen
  cases b with
  | true =>
    simp only [if_true, ends_bind, ends_updateAgent, ends_say, ends_pure]
    generalize _ :: (r.amend a _).notes = notes
    have hdone : Dressed E a c.validTags
        ((r.amend a fun x => { x with settings := some c }).annotate notes) :=
      hd.congr (fun _ => rfl) (by simp) fun b hb => by simp [hb]
    have hrun' : (r.agents a).phase = .running := hphase.trans hrun
    exact ⟨hdone.running (by simp) (by simpa using hrun'), hsquared.since rfl⟩
  | false =>
    apply hd.undressed hstore hseen
    intro t ht _ hcalls
    simp only [ends_bind, ends_setPhase, ends_release, ends_say, ends_pure]
    refine ⟨ht.stopped.called ((Called.refl _).annotate _), hsquared.since ?_⟩
    simpa using hcalls

/-- A sampler is stopped while the tags of the settings that it was started with are attached. -/
theorem callStop_books (hal : p.Aligned a) (hreserved : p.Reserved a) (ha : p.Abreast a)
    (hrun : (p.agents a).phase = .running) (hE : Accounts E p) :
    Ends (callStop tellAgent a) p (fun _ q => Books E p q ∧ ∃ new, Called new p q)
      fun _ _ => True := by
  refine Ends.mono (callStop_called teller hreserved ha) ?_ fun _ _ h => h
  rintro _ q ⟨new, hcalled, hnew⟩
  refine ⟨.called hE hcalled fun k hk => ?_, new, hcalled⟩
  obtain ⟨rfl, script, hs⟩ := hnew k hk
  obtain ⟨c, hset, htags⟩ := hE.running a hrun
  have hst := hal.stands
  rw [Stands.scripted hs] at hst
  have hstarts : (p.agents a).starts ≠ 0 := by
    have hturn := Standing.turn_ne_zero script (p.callsOf a)
    rw [hst.2] at hturn
    exact hturn (by simp [hrun])
  rw [if_neg hstarts]
  exact ⟨c, _, hset, rfl, htags⟩

theorem swap_books (h : Follows (some a) (some a) p₀ p) (hc : p.Calm) (hdiscreet : p.Discreet)
    (halive : (p.agents a).alive = true) (hl : (p.agents a).locked = true)
    (hrun : (p.agents a).phase = .running) (hal : p.Aligned a) (hE : Accounts E p) :
    Ends (swap a c) p (fun _ q => Books E p q) fun _ _ => True := by
  obtain ⟨c₀, hset, -⟩ := hE.running a hrun
  unfold swap
  rw [ends_bind, ends_agent, ends_bind]
  refine Ends.mono (Ends.and (callStop_goes teller h hl (.inl trivial))
    (callStop_books hal (hdiscreet a halive) (h.owner a rfl) hrun hE)) ?_ fun _ _ _ => trivial
  rintro flushed q ⟨⟨hq, hk, -⟩, hbooks, new, hcalled⟩
  -- Whatever is said before, the rest goes on from the same accounts.
  have rest : ∀ notes, Ends (previousTags (p.agents a).settings >>= fun old =>
      relaunch a (p.agents a).store old c) (q.annotate notes) (fun _ r => Books E p r)
        fun _ _ => True := by
    intro notes
    rw [hset]
    unfold previousTags
    rw [ends_bind, ends_configuredTags, ← hcalled.store]
    generalize (c₀.tagRemarks.map _).reverse ++ _ = notes'
    have hr := (hq.annotate notes).annotate notes'
    have hbooks' := (hbooks.annotate notes).annotate notes'
    refine Ends.mono (relaunch_books hr.sound (hr.calm.2 (h.calm.1 hc))
      (hr.discreet.2 (h.discreet.1 hdiscreet)) ((hr.alive a).trans ((h.alive a).symm.trans halive))
      (hk.locked.trans hl) (hk.phase.trans hrun) (hk.settings.trans hset) hbooks'.accounts) ?_
      fun _ _ h => h
    exact fun _ t ht => hbooks'.trans ht hcalled.store hcalled.settings
  cases flushed with
  | true =>
    simp only [Bool.not_true, Bool.false_eq_true, if_false]
    exact rest q.notes
  | false =>
    simp only [Bool.not_false, if_true]
    rw [ends_bind, ends_say]
    exact rest _

theorem startLocked_books (h : Follows (some a) (some a) p₀ p) (hc : p.Calm) (hdiscreet : p.Discreet)
    (halive : (p.agents a).alive = true) (hl : (p.agents a).locked = true) (hal : p.Aligned a) (hE : Accounts E p) :
    Ends (startLocked a c) p (fun _ q => Books E p q) fun _ _ => True := by
  unfold startLocked
  rw [ends_bind, ends_agent]
  by_cases hrun : (p.agents a).phase = .running
  · rw [if_pos hrun]
    by_cases hsame : (p.agents a).settings = some c
    · rw [if_pos hsame, ends_bind, ends_say]
      exact (Books.refl hE).annotate _
    · rw [if_neg hsame]
      exact swap_books h hc hdiscreet halive hl hrun hal hE
  · rw [if_neg hrun]
    exact startFrom_books h hc hdiscreet halive hl hrun hE

theorem stopLocked_books (h : Follows (some a) (some a) p₀ p) (hc : p.Calm) (hdiscreet : p.Discreet)
    (halive : (p.agents a).alive = true) (hl : (p.agents a).locked = true) (hal : p.Aligned a) (hE : Accounts E p) :
    Ends (stopLocked a) p (fun _ q => Books E p q) fun _ _ => True := by
  unfold stopLocked
  rw [ends_bind, ends_agent]
  cases hrun : (p.agents a).phase with
  | running =>
    dsimp only
    rw [ends_bind]
    refine Ends.mono (Ends.and (callStop_goes teller h hl (.inl trivial))
      (callStop_books hal (hdiscreet a halive) (h.owner a rfl) hrun hE)) ?_ fun _ _ _ => trivial
    rintro flushed q ⟨⟨hq, hk, -⟩, hbooks, new, hcalled⟩
    rw [ends_bind]
    refine Ends.mono (retire_books clerk hq.sound (hq.calm.2 (h.calm.1 hc))
      (hq.discreet.2 (h.discreet.1 hdiscreet)) (hk.locked.trans hl) (.inl trivial) (hk.phase.trans hrun)
      hbooks.accounts) ?_ fun _ _ _ => trivial
    intro _ r hr
    have hbooks' : Books E p r := hbooks.trans hr hcalled.store hcalled.settings
    cases flushed with
    | true =>
      rw [if_pos rfl, ends_bind, ends_say]
      exact hbooks'.annotate _
    | false =>
      rw [if_neg (by simp)]
      exact hbooks'
  | stopped => exact (Books.refl hE).annotate _
  | fresh => exact Books.refl hE
  | configured => exact Books.refl hE

theorem transition_books {α : Type} {body : Act α} (hp : p.Sound) (hc : p.Calm) (hdiscreet : p.Discreet)
    (halive : (p.agents a).alive = true) (hl : (p.agents a).locked = false) (hE : Accounts E p)
    (hbody : ∀ p₀ q, Follows (some a) (some a) p₀ q → q.Calm → q.Discreet →
      (q.agents a).alive = true → (q.agents a).locked = true → q.Aligned a → Accounts E q →
      Ends body q (fun _ r => Books E q r) fun _ _ => True) :
    Ends (tellAgent a >>= fun _ => locking a body) p (fun _ q => Books E p q) fun _ _ => True := by
  rw [ends_bind]
  refine Ends.mono (Ends.and (tellAgent_goes hp halive hl) (tellAgent_books hp hc hdiscreet halive hl hE)) ?_
    fun _ _ _ => trivial
  rintro _ q ⟨⟨hq, hab⟩, hbooks⟩
  have hlq : (q.agents a).locked = false := (hq.locked a (by simp)).trans hl
  rw [ends_locking hlq]
  have hr : Follows (some a) (some a) q (q.amend a fun x => { x with locked := true }) :=
    Follows.lock hq.sound (by simp) rfl hab
  have hcalled : Called [] q (q.amend a fun x => { x with locked := true }) :=
    (Called.refl q).amend (by simp)
  have hbooks' : Books E p (q.amend a fun x => { x with locked := true }) :=
    ⟨hbooks.accounts.called hcalled, hbooks.calls⟩
  refine Ends.mono (hbody q _ hr (hr.calm.2 (hq.calm.2 hc)) (hr.discreet.2 (hq.discreet.2 hdiscreet))
    ((hr.alive a).trans ((hq.alive a).trans halive)) (by simp)
    ((hq.sound.aligned (hq.calm.2 hc) a hlq).of_row ⟨rfl, rfl, rfl, rfl⟩) hbooks'.accounts) ?_
    fun _ _ _ => trivial
  intro _ t ht
  have hbooks'' : Books E p t := by
    refine hbooks'.trans ht (fun b => ?_) fun b => ?_
    · rw [hcalled.store, hq.store]
    · rw [hcalled.settings, hq.settings b (by simp)]
  exact ⟨hbooks''.accounts.called ((Called.refl t).amend (by simp)), hbooks''.calls⟩

theorem startAgent_books (hp : p.AtRest) (hc : p.Calm) (hdiscreet : p.Discreet)
    (halive : (p.agents a).alive = true) (hE : Accounts E p) :
    Ends (startAgent a c) p (fun _ q => Books E p q) fun _ _ => True :=
  transition_books hp.sound hc hdiscreet halive (hp.unlocked a) hE
    fun _ _ h hc hdiscreet halive hl hal hE => startLocked_books h hc hdiscreet halive hl hal hE

theorem stopAgent_books (hp : p.AtRest) (hc : p.Calm) (hdiscreet : p.Discreet)
    (halive : (p.agents a).alive = true) (hE : Accounts E p) :
    Ends (stopAgent a) p (fun _ q => Books E p q) fun _ _ => True :=
  transition_books hp.sound hc hdiscreet halive (hp.unlocked a) hE
    fun _ _ h hc hdiscreet halive hl hal hE => stopLocked_books h hc hdiscreet halive hl hal hE

theorem Books.gone (h : Books E p q) : Books E p (q.gone a) where
  accounts := by
    refine h.accounts.congr (fun s => ?_) (fun b => gone_field q a b Agent.phase fun _ => rfl)
      (fun b => gone_field q a b Agent.settings fun _ => rfl)
      fun b => gone_field q a b Agent.store fun _ => rfl
    unfold tagsAt Program.gone
    rw [amend_stores, yieldSlot_stores]
  calls := h.calls.since (yieldSlot_calls q a)

theorem dropAgent_books (hp : p.AtRest) (hc : p.Calm) (hdiscreet : p.Discreet)
    (halive : (p.agents a).alive = true) (hE : Accounts E p) :
    Ends (dropAgent a) p (fun _ q => Books E p q) fun _ _ => True := by
  unfold dropAgent
  rw [ends_protect, ends_bind, ends_agent]
  by_cases hrun : (p.agents a).phase = .running
  · simp only [if_pos hrun, ends_bind]
    refine Ends.mono (stopAgent_books hp hc hdiscreet halive hE) ?_ fun _ _ _ => trivial
    intro r q hq
    cases r with
    | ok _ => exact hq.gone
    | error e =>
      dsimp only
      rw [ends_bind, ends_say]
      exact (hq.annotate _).gone
  · simp only [if_neg hrun]
    exact (Books.refl hE).gone

end Program
end ProfilingAgent
