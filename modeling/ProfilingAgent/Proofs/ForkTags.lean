import ProfilingAgent.Proofs.Accounts
import ProfilingAgent.Proofs.Aware
import ProfilingAgent.Proofs.ForkOutcome

set_option autoImplicit false

namespace ProfilingAgent

open Act

def Use.allLeave (us : List Use) (x : TagStore) : TagStore := us.foldl (fun x u => u.leaves x) x

theorem Use.allLeave_states {us : List Use} (h : ∀ u ∈ us, u = .state) (x : TagStore) :
    allLeave us x = x := by
  induction us with
  | nil => rfl
  | cons u us ih =>
    obtain rfl := h u List.mem_cons_self
    exact ih fun v hv => h v (List.mem_cons_of_mem _ hv)

def TagStore.without (off : List Tag) (x : TagStore) : TagStore :=
  { x with globals := (removeBatch off x.globals).1 }

namespace Program

variable {tell : AgentId → Act Unit} {able : Prop} {own free : Option AgentId} {P p₀ p q r : Program}
  {a b : AgentId} {s : StoreId}

def Prompted (P : Program) (s : StoreId) (u : Use) : Prop :=
  ∃ b script n, (P.agents b).store = s ∧ (P.agents b).sampler = .scripted script ∧
    (u ∈ (script.onReset n).uses ∨ u ∈ (script.onStart n).uses)

def Equipped (P p : Program) : Prop :=
  ∀ b, (p.agents b).store = (P.agents b).store ∧ (p.agents b).sampler = (P.agents b).sampler

theorem Equipped.follows (h : Equipped P p) (hq : Follows own free p q) :
    Equipped P q := fun b => ⟨(hq.store b).trans (h b).1, (hq.sampler b).trans (h b).2⟩

/-- A batch of global tags has been taken off. Apart from that nothing has happened to tags but what
samplers did to those of their own store when they were reset or started, and no sampler was called
but to be reset, or the one that is to be called. -/
structure Shed (P : Program) (s : StoreId) (own : Option AgentId) (off : List Tag) (p q : Program) :
    Prop where
  tags : ∃ us, (∀ u ∈ us, Prompted P s u) ∧
    (q.stores s).tags = (Use.allLeave us (p.stores s).tags).without off
  others : ∀ t, t ≠ s → (q.stores t).tags = (p.stores t).tags
  calls : ∃ new, q.calls = p.calls ++ new ∧ ∀ k ∈ new, some k.agent = own ∨ ∃ b, k = .reset b

namespace Shed

variable {off : List Tag}

theorem trans (h : Shed P s own [] p q) (h' : Shed P s own off q r) : Shed P s own off p r where
  tags := by
    obtain ⟨us, hus, htags⟩ := h.tags
    obtain ⟨us', hus', htags'⟩ := h'.tags
    refine ⟨us ++ us', fun u hu => (List.mem_append.1 hu).elim (hus u) (hus' u), ?_⟩
    rw [htags', htags]
    exact congrArg _ (List.foldl_append ..).symm
  others t ht := (h'.others t ht).trans (h.others t ht)
  calls := by
    obtain ⟨new, hnew, hn⟩ := h.calls
    obtain ⟨new', hnew', hn'⟩ := h'.calls
    refine ⟨new ++ new', by rw [hnew', hnew, List.append_assoc], fun k hk => ?_⟩
    exact (List.mem_append.1 hk).elim (hn k) (hn' k)

theorem without (p : Program) (s : StoreId) (off : List Tag) :
    Shed P s own off p (p.retag s ((p.stores s).tags.without off)) where
  tags := ⟨[], by simp, by simp [Use.allLeave]⟩
  others t ht := by simp [ht]
  calls := ⟨[], by simp, by simp⟩

theorem congr (h : Shed P s own off p q) (hstores : r.stores = q.stores) (hcalls : r.calls = q.calls) :
    Shed P s own off p r := by
  obtain ⟨htags, hothers, hnew⟩ := h
  rw [← hstores] at htags hothers
  rw [← hcalls] at hnew
  exact ⟨htags, hothers, hnew⟩

end Shed

structure Plied (P : Program) (s : StoreId) (own : Option AgentId) (p q : Program) : Prop
    extends Shed P s own [] p q where
  slot : q.slot = p.slot

namespace Plied

theorem still (htags : ∀ t, (q.stores t).tags = (p.stores t).tags) (hcalls : q.calls = p.calls)
    (hslot : q.slot = p.slot) : Plied P s own p q :=
  ⟨⟨⟨[], by simp, htags s⟩, fun t _ => htags t, [], by simpa using hcalls, by simp⟩, hslot⟩

theorem refl (p : Program) : Plied P s own p p := still (fun _ => rfl) rfl rfl

theorem trans (h : Plied P s own p q) (h' : Plied P s own q r) : Plied P s own p r :=
  ⟨h.toShed.trans h'.toShed, h'.slot.trans h.slot⟩

theorem widen (h : Plied P s none p q) (own : Option AgentId) : Plied P s own p q := by
  obtain ⟨new, hnew, hn⟩ := h.calls
  exact ⟨⟨h.tags, h.others, new, hnew, fun k hk => (hn k hk).imp_left fun h => by cases h⟩, h.slot⟩

theorem mark (p : Program) (t : StoreId) : Plied P s own p (p.mark t) := by
  refine still (fun u => ?_) rfl rfl
  by_cases hu : u = t <;> simp [hu]

theorem annotate (h : Plied P s own p q) (notes : List (ThreadId × Log.Event)) :
    Plied P s own p (q.annotate notes) := ⟨h.congr rfl rfl, h.slot⟩

theorem amend (h : Plied P s own p q) (f : Agent → Agent) : Plied P s own p (q.amend a f) :=
  ⟨h.congr rfl rfl, h.slot⟩

theorem call (p : Program) {k : SamplerCall} (hk : some k.agent = own ∨ ∃ b, k = .reset b) :
    Plied P s own p (p.call k) :=
  ⟨⟨⟨[], by simp, rfl⟩, fun _ _ => rfl, [k], rfl, by simpa using hk⟩, rfl⟩

theorem of_retagged {u : Use} (h : Retagged s (u.leaves (p.stores s).tags) p q)
    (hu : Prompted P s u) : Plied P s own p q where
  tags := ⟨[u], by simpa using hu, h.tags⟩
  others t ht := by rw [h.others t ht]
  calls := ⟨[], by simpa using h.same.calls, by simp⟩
  slot := h.same.slot

end Plied

def comeOff (a : AgentId) (p q : Program) : List Tag :=
  match (p.agents a).settings with
  | none => []
  | some c =>
    if (p.agents a).phase = .running ∧ (q.agents a).phase ≠ .running then c.validTags else []

theorem comeOff_congr (hphase : (r.agents a).phase = (p.agents a).phase)
    (hset : (r.agents a).settings = (p.agents a).settings) : comeOff a r q = comeOff a p q := by
  unfold comeOff
  rw [hphase, hset]

theorem Outcome.off_eq {action : Option ForkAction} {calls : List SamplerCall} {off : List Tag}
    (h : Outcome a p q action calls off) : off = comeOff a p q := by
  unfold comeOff
  cases h with
  | idle hrun => cases (p.agents a).settings <;> simp [hrun]
  | inert hrun hset _ hphase => simp [hrun, hset, hphase]
  | restarted hrun hset _ _ hphase => simp [hrun, hset, hphase]
  | failed hrun hset _ _ hphase => simp [hrun, hset, hphase]

/-- No use of the store makes another agent stop: the store has seen the fork, or whoever else watches
it has seen it or does not run. -/
def Unwatched (p : Program) (a : AgentId) (s : StoreId) : Prop :=
  p.Aware s ∨ ∀ b, (p.stores s).hook.watcher = some (.agent b) →
    b = a ∨ p.Abreast b ∨ (p.agents b).phase ≠ .running

theorem Unwatched.follows (h : Unwatched p a s) (hq : Follows own none p q) : Unwatched q a s := by
  rcases h with h | h
  · have hready : Ready False p s := .inr h
    exact .inl ((hready.follows hq).resolve_left id)
  · refine .inr fun b hb => (h b ((hq.watcher s).symm.trans hb)).imp_right fun hb => ?_
    refine hb.imp (hq.abreast b) fun hrun => ?_
    rcases hq.phase b (by simp) with hphase | ⟨-, hphase⟩
    · rw [hphase]
      exact hrun
    · rw [hphase]
      simp

/-- Whoever tells agents that do not run has samplers reset, and changes tags by what they do. -/
structure Plier (tell : AgentId → Act Unit) (able : Prop) : Prop extends Teller tell able where
  plies : able → ∀ {P p b}, Equipped P p → p.Sound → (p.agents b).locked = false →
    p.Aware (p.agents b).store → (p.agents b).phase ≠ .running →
    Ends (tell b) p (fun _ q => Plied P (p.agents b).store none p q) fun _ _ => True

structure Placed (P : Program) (able : Prop) (a : AgentId) (s : StoreId) (p : Program) : Prop where
  equipped : Equipped P p
  store : (p.agents a).store = s
  ready : Ready able p s
  unwatched : Unwatched p a s

theorem Placed.follows (h : Placed P able a s p) (hq : Follows own none p q) :
    Placed P able a s q :=
  ⟨h.equipped.follows hq, (hq.store a).trans h.store, h.ready.follows hq, h.unwatched.follows hq⟩

theorem Placed.home (h : Placed P able a s p) : (P.agents a).store = s :=
  (h.equipped a).1.symm.trans h.store

section Telling

variable (T : Plier tell able)

include T

theorem checkStore_plies (hP : Equipped P p) (hp : p.Sound) (hs : Ready able p s)
    (hw : Unwatched p a s) (ha : p.Abreast a) :
    Ends (checkStore tell s) p (fun _ q => Plied P s none p q) fun _ _ => True := by
  by_cases hseen : (p.stores s).hook.seen = p.generation
  · rw [ends_of_on (checkStore_seen hseen)]
    exact .refl p
  · have hmark : Plied P s none p (p.mark s) := .mark p s
    have hm : (p.mark s).Sound := (Same.mark p s).sound hp
    unfold checkStore
    simp only [ends_bind, ends_get]
    rw [if_pos hseen, ends_bind]
    change Ends _ (p.mark s) _ _
    cases hwatcher : (p.stores s).hook.watcher with
    | none => exact hmark
    | some w =>
      cases w with
      | counter c =>
        unfold inform
        rw [ends_modify]
        dsimp only
        split
        · exact hmark.trans (.still (fun _ => rfl) rfl rfl)
        · exact hmark
      | agent b =>
        unfold inform
        simp only [ends_bind, ends_get]
        split
        · by_cases hab : (p.mark s).Abreast b
          · rw [ends_of_on (T.abreast hab)]
            exact hmark
          · have hne : b ≠ a := fun h => hab (h ▸ ha)
            have hrun : (p.agents b).phase ≠ .running :=
              ((hw.resolve_left hseen b hwatcher).resolve_left hne).resolve_left hab
            have hstore : ((p.mark s).agents b).store = s := (hp.home s b hwatcher).2
            have haware : (p.mark s).Aware ((p.mark s).agents b).store := by
              rw [hstore]
              simp [Aware]
            have htold := T.plies (hs.resolve_right hseen) (P := P) (p := p.mark s) hP hm
              (hm.unlocked hab) haware hrun
            rw [hstore] at htold
            exact Ends.mono htold (fun _ q hq => hmark.trans hq) fun _ _ h => h
        · exact hmark

theorem useOnce_plies (hP : Equipped P p) (hp : p.Sound) (hs : Ready able p s) (hw : Unwatched p a s)
    (ha : p.Abreast a) {u : Use} (hu : Prompted P s u) :
    Ends (useOnce tell a s u) p (fun _ q => Plied P s none p q) fun _ _ => True := by
  have aware : ∀ q : Program, q.Aware s → q.Abreast a →
      Ends (useOnce tell a s u) q (fun _ r => Plied P s none q r) fun _ _ => True :=
    fun q hq ha => Ends.mono (useOnce_aware T.toTeller hq ha u) (fun _ r hr => .of_retagged hr hu) fun _ _ h => h
  by_cases hstate : u = .state
  · subst hstate
    have htold : (useOnce tell a s .state).on p = (.ok (), p) := T.abreast ha
    rw [ends_of_on htold]
    exact .refl p
  · obtain ⟨α, f, hf⟩ := useOnce_eq tell a s hstate
    rw [hf] at aware ⊢
    rw [ends_discard, ends_bind]
    refine Ends.mono (Ends.and (checkStore_goes T.toTeller hp hs) (checkStore_plies T hP hp hs hw ha)) ?_
      fun _ _ _ => trivial
    rintro ⟨⟩ q ⟨⟨hq, hseen⟩, hplied⟩
    have hrest := aware q hseen (hq.abreast a ha)
    have hlook : (checkStore tell s).on q = (.ok (), q) := checkStore_seen hseen
    rw [ends_discard, ends_bind, ends_of_on hlook] at hrest
    exact Ends.mono hrest (fun _ r hr => hplied.trans hr) fun _ _ h => h

theorem useAll_plies (hP : Equipped P p) (hp : p.Sound) (hs : Ready able p s) (hw : Unwatched p a s)
    (ha : p.Abreast a) {us : List Use} (hus : ∀ u ∈ us, Prompted P s u) :
    Ends (useAll tell a s us) p (fun _ q => Plied P s none p q) fun _ _ => True := by
  induction us generalizing p with
  | nil => exact .refl p
  | cons u us ih =>
    unfold useAll
    rw [ends_bind]
    refine Ends.mono (Ends.and (useOnce_goes T.toTeller hp hs u fun _ => ha)
      (useOnce_plies T hP hp hs hw ha (hus u List.mem_cons_self))) ?_ fun _ _ _ => trivial
    rintro _ q ⟨⟨hq, -⟩, hplied⟩
    refine Ends.mono (ih (hP.follows hq) hq.sound (hs.follows hq) (hw.follows hq) (hq.abreast a ha)
      fun v hv => hus v (List.mem_cons_of_mem u hv)) ?_ fun _ _ h => h
    exact fun _ r hr => hplied.trans hr

theorem answer_plies (h : Placed P able a s p) (hp : p.Sound) (hl : (p.agents a).locked = true)
    {f : Agent → Agent} {k : SamplerCall} {x : Reply}
    (hf : ∀ x, (f x).store = x.store ∧ (f x).sampler = x.sampler ∧ (f x).alive = x.alive ∧
      (f x).seen = x.seen ∧ (f x).locked = x.locked ∧ (f x).phase = x.phase)
    (hk : k.agent = a) (hown : some k.agent = own ∨ ∃ b, k = .reset b)
    (hx : ∀ u ∈ x.uses, Prompted P s u) :
    Ends (carryOut tell a x) ((p.amend a f).call k) (fun _ q => Plied P s own p q)
      fun _ _ => True := by
  have ho : Own a p ((p.amend a f).call k) := (Own.amend (by simp [hf])).trans (Own.call hk)
  have hphase : ∀ b, (((p.amend a f).call k).agents b).phase = (p.agents b).phase :=
    fun b => amend_field p a b f Agent.phase (hf _).2.2.2.2.2
  have hsound : ((p.amend a f).call k).Sound :=
    ho.sound hp hl fun hrun => hp.slotted a ((hphase a).symm.trans hrun)
  have hP : Equipped P ((p.amend a f).call k) :=
    fun b => ⟨(ho.all b).1.trans (h.equipped b).1, (ho.all b).2.1.trans (h.equipped b).2⟩
  have hw : Unwatched ((p.amend a f).call k) a s := by
    refine h.unwatched.imp_right fun h b hb => (h b hb).imp_right fun hb => ?_
    rw [hphase, ho.abreast]
    exact hb
  have before : Plied P s own p ((p.amend a f).call k) :=
    ((Plied.refl p).amend f).trans (.call _ hown)
  unfold carryOut
  rw [ends_bind, ends_agent, ho.store, h.store, ends_bind]
  refine Ends.mono (useAll_plies T hP hsound h.ready hw ((ho.abreast a).2 (hp.held a hl)) hx) ?_
    fun _ _ h => h
  intro _ q hq
  have hplied := before.trans (hq.widen own)
  cases x.ending with
  | succeeds => exact hplied
  | fails => exact hplied
  | panics m => trivial

theorem callReset_plies (h : Placed P able a s p) (hp : p.Sound) (hl : (p.agents a).locked = true) :
    Ends (callReset tell a) p (fun _ q => Plied P s none p q) fun _ _ => True := by
  unfold callReset
  simp only [ends_bind, ends_agent]
  cases hsampler : (p.agents a).sampler with
  | idle => exact .refl p
  | scripted script =>
    simp only [ends_bind, ends_updateAgent, ends_record, ends_discard]
    refine answer_plies T h hp hl (by simp) rfl (.inr ⟨a, rfl⟩) fun u hu => ?_
    exact ⟨a, script, _, h.home, (h.equipped a).2.symm.trans hsampler, .inl hu⟩

theorem callStart_plies (h : Placed P able a s p) (hp : p.Sound) (hl : (p.agents a).locked = true)
    (c : Settings) :
    Ends (callStart tell a c) p (fun _ q => Plied P s (some a) p q) fun _ _ => True := by
  unfold callStart
  simp only [ends_bind, ends_agent]
  cases hsampler : (p.agents a).sampler with
  | idle => exact (Plied.refl p).annotate _
  | scripted script =>
    simp only [ends_bind, ends_updateAgent, ends_globals, ends_record]
    refine answer_plies T h hp hl (by simp) rfl (.inl rfl) fun u hu => ?_
    exact ⟨a, script, _, h.home, (h.equipped a).2.symm.trans hsampler, .inr hu⟩

theorem retire_sheds (h : Placed P able a s p) (hp : p.Sound) (hl : (p.agents a).locked = true)
    {c : Settings} (hc : (p.agents a).settings = some c) :
    Ends (retire tell a) p (fun _ q => Shed P s (some a) c.validTags p q) fun _ _ => True := by
  unfold retire
  rw [ends_bind, ends_agent, hc]
  simp only [ends_bind, ends_configuredTags]
  generalize (c.tagRemarks.map fun e => (p.thread, e)).reverse ++ p.notes = notes
  have hp' : (p.annotate notes).Sound := (Same.annotate p notes).sound hp
  unfold replaceGlobalsWith revise
  rw [ends_bind, h.store]
  refine Ends.mono (checkStore_plies T (p := p.annotate notes) h.equipped hp' h.ready h.unwatched
    (hp.held a hl)) ?_
    fun _ _ _ => trivial
  intro _ q hplied
  have before : Plied P s (some a) p q := ((Plied.refl p).annotate notes).trans (hplied.widen (some a))
  simp only [ends_bind, ends_store, TagStore.replaceGlobals, Tag.checkAll, ends_setTags, ends_pure,
    ends_setPhase, ends_release, List.append_nil]
  refine before.toShed.trans ((Shed.without q s c.validTags).congr ?_ ?_)
  · simp [TagStore.without]
  · simp

theorem retire_comes_off (h : Placed P able a s q) (hq : q.Sound) (hl : (q.agents a).locked = true)
    (hrun : (q.agents a).phase = .running) {c : Settings} (hc : (q.agents a).settings = some c)
    (before : Plied P s (some a) p q) (hphase : (p.agents a).phase = .running)
    (hset : (p.agents a).settings = some c) :
    Ends (retire tell a) q (fun _ r => Shed P s (some a) (comeOff a p r) p r) fun _ _ => True := by
  have here : Follows (some a) none q q := .here hq fun b hb => Option.some.inj hb ▸ hq.held a hl
  have hready : Ready able q (q.agents a).store := h.store.symm ▸ h.ready
  refine Ends.mono (Ends.and (retire_goes T.toTeller here hl hready hrun) (retire_sheds T h hq hl hc)) ?_
    fun _ _ _ => trivial
  rintro _ r ⟨⟨-, hret⟩, hshed⟩
  have hoff : comeOff a p r = c.validTags := by simp [comeOff, hset, hphase, hret.row]
  rw [hoff]
  exact before.toShed.trans hshed

theorem carryOn_sheds (h : Placed P able a s p) (hp : p.Sound) (hl : (p.agents a).locked = true)
    (hrun : (p.agents a).phase = .running) :
    Ends (carryOn tell a) p (fun _ q => Shed P s (some a) (comeOff a p q) p q) fun _ _ => True := by
  unfold carryOn
  simp only [ends_bind, ends_agent]
  rw [if_neg (by simpa using hrun)]
  cases hc : (p.agents a).settings with
  | none =>
    have hoff : comeOff a p p = [] := by simp [comeOff, hc]
    rw [ends_pure, hoff]
    exact (Plied.refl p).toShed
  | some c =>
    dsimp only
    cases c.detectSubprocesses with
    | true =>
      simp only [ForkAction.decide, if_true, ends_bind]
      have here : Follows (some a) none p p :=
        .here hp fun b hb => Option.some.inj hb ▸ hp.held a hl
      have hready : Ready able p (p.agents a).store := h.store.symm ▸ h.ready
      refine Ends.mono (Ends.and (callStart_goes T.toTeller here hl hready c)
        (callStart_plies T h hp hl c)) ?_ fun _ _ _ => trivial
      rintro b q ⟨⟨hq, hk, -⟩, hplied⟩
      have hrunq : (q.agents a).phase = .running := hk.phase.trans hrun
      cases b with
      | true =>
        simp only [if_true, ends_bind, ends_say, ends_pure]
        generalize (q.thread, Log.Event.say .info _) :: q.notes = notes
        have hoff : comeOff a p (q.annotate notes) = [] := by simp [comeOff, hc, hrunq]
        rw [hoff]
        exact (hplied.annotate notes).toShed
      | false =>
        simp only [Bool.false_eq_true, if_false, ends_bind, ends_say, ends_pure]
        generalize (q.thread, Log.Event.say .error _) :: q.notes = notes
        have hq' := hq.annotate notes
        exact retire_comes_off T (h.follows hq') hq'.sound (hk.locked.trans hl) hrunq
          (hk.settings.trans hc) (hplied.annotate notes) hrun hc
    | false =>
      simp only [ForkAction.decide, Bool.false_eq_true, if_false, ends_bind, ends_say, ends_pure]
      generalize (p.thread, Log.Event.say .debug _) :: p.notes = notes
      have h' : Placed P able a s (p.annotate notes) := ⟨h.equipped, h.store, h.ready, h.unwatched⟩
      exact retire_comes_off T h' ((Same.annotate p notes).sound hp) hl hrun hc
        ((Plied.refl p).annotate notes) hrun hc

theorem decideFork_sheds (h : Follows (some a) none p₀ p) (hl : (p.agents a).locked = true)
    (hnew : ¬ p₀.Abreast a) (hs : Placed P able a s p₀) (hrun : (p.agents a).phase = .running) :
    Ends (decideFork tell a) p (fun _ q => Shed P s (some a) (comeOff a p q) p q)
      fun _ _ => True := by
  have hready : Ready able p (p.agents a).store := (hs.follows h).store.symm ▸ (hs.follows h).ready
  unfold decideFork
  rw [ends_bind]
  refine Ends.mono (Ends.and (callReset_goes T.toTeller h hl hready hnew)
    (callReset_plies T (hs.follows h) h.sound hl)) ?_ fun _ _ _ => trivial
  rintro _ q ⟨⟨hq, hk, -⟩, hplied⟩
  refine Ends.mono (carryOn_sheds T (hs.follows hq) hq.sound (hk.locked.trans hl)
    (hk.phase.trans hrun)) ?_ fun _ _ h => h
  intro _ r hshed
  rw [comeOff_congr hk.phase hk.settings] at hshed
  exact (hplied.widen (some a)).toShed.trans hshed

theorem applyFork_sheds (hp : p.Sound) (hl : (p.agents a).locked = false) (hnew : ¬ p.Abreast a)
    (hs : Placed P able a s p) (hrun : (p.agents a).phase = .running) :
    Ends (applyFork tell a) p (fun _ q => Shed P s (some a) (comeOff a p q) p q)
      fun _ _ => True := by
  have hphase : ((p.deciding a).agents a).phase = (p.agents a).phase := by simp [deciding]
  have hset : ((p.deciding a).agents a).settings = (p.agents a).settings := by simp [deciding]
  refine (ends_applyFork hnew hl).2 (Ends.mono (decideFork_sheds T (.deciding hp) (by simp [deciding])
    hnew hs (hphase.trans hrun)) ?_ fun _ _ h => h)
  intro _ q hshed
  have hoff : comeOff a p (q.amend a fun x => { x with locked := false }) = comeOff a p q := by
    unfold comeOff
    rw [amend_field q a a _ Agent.phase rfl]
  have before : Plied P s (some a) p (p.deciding a) := ((Plied.refl p).amend _).annotate _
  rw [comeOff_congr hphase hset] at hshed
  rw [hoff]
  exact (before.toShed.trans hshed).congr rfl rfl

theorem decideFork_plies (h : Follows (some a) none p₀ p) (hl : (p.agents a).locked = true)
    (hnew : ¬ p₀.Abreast a) (hs : Placed P able a s p₀) (hrun : (p.agents a).phase ≠ .running) :
    Ends (decideFork tell a) p (fun _ q => Plied P s none p q) fun _ _ => True := by
  have hready : Ready able p (p.agents a).store := (hs.follows h).store.symm ▸ (hs.follows h).ready
  unfold decideFork
  rw [ends_bind]
  refine Ends.mono (Ends.and (callReset_goes T.toTeller h hl hready hnew)
    (callReset_plies T (hs.follows h) h.sound hl)) ?_ fun _ _ _ => trivial
  rintro _ q ⟨⟨-, hk, -⟩, hplied⟩
  unfold carryOn
  rw [ends_bind, ends_agent, if_pos (hk.phase ▸ hrun), ends_bind, ends_note, ends_pure]
  exact hplied.annotate _

theorem applyFork_plies (hp : p.Sound) (hl : (p.agents a).locked = false) (hnew : ¬ p.Abreast a)
    (hs : Placed P able a s p) (hrun : (p.agents a).phase ≠ .running) :
    Ends (applyFork tell a) p (fun _ q => Plied P s none p q) fun _ _ => True := by
  have hphase : ((p.deciding a).agents a).phase = (p.agents a).phase := by simp [deciding]
  have before : Plied P s none p (p.deciding a) := ((Plied.refl p).amend _).annotate _
  refine (ends_applyFork hnew hl).2 (Ends.mono (decideFork_plies T (.deciding hp) (by simp [deciding])
    hnew hs (hphase ▸ hrun)) ?_ fun _ _ h => h)
  exact fun _ q hplied => (before.trans hplied).amend _

theorem Plier.next : Plier (fun b => discard (applyFork tell b)) True where
  toTeller := T.toTeller.next
  plies := by
    intro _ P p b hP hp hl haware hrun
    rw [ends_discard]
    by_cases ha : p.Abreast b
    · rw [ends_of_on (applyFork_abreast ha)]
      exact .refl p
    · exact applyFork_plies T hp hl ha ⟨hP, rfl, .inr haware, .inl haware⟩ hrun

end Telling

theorem plier_one : Plier (fun b => discard (settle 1 b)) False where
  toTeller := teller_one
  plies := fun h => h.elim

theorem plier_two : Plier (fun b => discard (settle 2 b)) True := plier_one.next

end Program
end ProfilingAgent
