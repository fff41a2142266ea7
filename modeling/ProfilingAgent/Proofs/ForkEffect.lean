import ProfilingAgent.Proofs.Chronicle
import ProfilingAgent.Proofs.EntryPoints
import ProfilingAgent.Proofs.ForkTags
import ProfilingAgent.Proofs.Unstarted

set_option autoImplicit false

namespace ProfilingAgent

open Act Program

/-- The keys of settings differ, so no tag is configured twice. -/
theorem Settings.validTags_nodup (c : Settings) : c.validTags.Nodup := by
  refine List.Nodup.filter _ (List.Nodup.map_on ?_ (c.tags.increasing.imp fun h he => ?_))
  · rintro ⟨k, v⟩ - ⟨k', v'⟩ - h
    cases h
    rfl
  · rw [he] at h
    exact String.lt_irrefl _ h

theorem count_removeBatch {off : List Tag} (hoff : off.Nodup) (t : Tag) (tags : List Tag) :
    (removeBatch off tags).1.count t = tags.count t - if t ∈ off then 1 else 0 := by
  rw [← Multiset.coe_count, coe_removeBatch, Multiset.count_sub, Multiset.coe_count, Multiset.coe_count]
  by_cases ht : t ∈ off
  · rw [if_pos ht, List.count_eq_one_of_mem hoff ht]
  · rw [if_neg ht, List.count_eq_zero_of_not_mem ht]

namespace Program

variable {α : Type} {p q r : Program} {a : AgentId} {s : StoreId} {action : Option ForkAction}

def Outfitted (p : Program) : Prop := ∀ a, (p.agents a).phase = .running → (p.agents a).settings ≠ none

theorem Outfitted.congr (h : p.Outfitted) (hrow : ∀ b, (q.agents b).phase = .running →
    (p.agents b).phase = .running ∧ (q.agents b).settings = (p.agents b).settings ∨
      (q.agents b).settings ≠ none) : q.Outfitted := by
  intro b hb
  rcases hrow b hb with ⟨hrun, hset⟩ | hset
  · exact hset ▸ h b hrun
  · exact hset

theorem outfitted_frame : Frame .any Outfitted where
  annotate _ h := h
  mark _ h := h
  count _ h := h
  give _ h := h
  alter b f hf h := h.congr fun c hc => by
    by_cases hcb : c = b
    · rw [amend_agents, if_pos hcb] at hc ⊢
      exact .inl ⟨hcb ▸ (hf _).2.2 hc, hcb ▸ (hf _).2.1⟩
    · rw [amend_of_ne _ _ _ _ hcb] at hc ⊢
      exact .inl ⟨hc, rfl⟩
  adopt {q b} f _ hf h := h.congr fun c hc => by
    by_cases hcb : c = b
    · rw [amend_agents, if_pos hcb]
      exact .inr (hf _).2
    · rw [amend_of_ne _ _ _ _ hcb] at hc ⊢
      exact .inl ⟨hc, rfl⟩
  call _ _ _ h := h
  globals _ _ h := h
  retag _ _ h := h
  uses _ _ := .inr fun _ => trivial
  fork _ _ h := h
  install _ h := h
  store h := h
  watched _ _ h := h
  housed := by
    intro q s sampler _ h
    refine h.congr fun c hc => .inl ?_
    by_cases hnew : c = q.agents.size
    · rw [hnew, housed_new] at hc
      cases hc
    · rw [housed_old hnew] at hc ⊢
      exact ⟨hc, rfl⟩

end Program

theorem Operation.licensed_any (op : Operation) : op.Licensed .any := by
  cases op <;> exact trivial

theorem Reachable.outfitted {p : Program} (h : Reachable p) : p.Outfitted := by
  induction h with
  | start pid handler => exact fun _ hrun => by cases hrun
  | perform _ op _ ih => exact (outfitted_frame.operation op op.licensed_any _ ih).left

namespace Program

variable {α : Type} {p q r : Program} {a : AgentId} {s : StoreId} {action : Option ForkAction}

/-- Nobody else has to stop when samplers use the store of the agent: nobody else runs, or samplers use
no store, or whoever else is told about forks has seen them. -/
def Unshared (p : Program) (a : AgentId) : Prop :=
  (p.agents a).phase = .running ∨ p.Quiet ∨ Unwatched p a (p.agents a).store

def Sampled (p : Program) (s : StoreId) (left : TagStore) : Prop :=
  ∃ us, (∀ u ∈ us, Prompted p s u) ∧ left = Use.allLeave us (p.stores s).tags

theorem Sampled.quiet {left : TagStore} (h : Sampled p s left) (hp : p.Quiet) :
    left = (p.stores s).tags := by
  obtain ⟨us, hus, rfl⟩ := h
  refine Use.allLeave_states (fun u hu => ?_) _
  obtain ⟨b, script, n, -, hscript, hu⟩ := hus u hu
  exact hu.elim ((hp b script hscript n).2.2 u) ((hp b script hscript n).1 u)

structure ForkEffect (a : AgentId) (p : Program) (action : Option ForkAction) (q : Program) :
    Prop where
  generation : q.generation = p.generation
  seen : q.Abreast a
  decided : ∃ calls, Decided a p q action calls (comeOff a p q)
  /-- The samplers of other agents are reset at most. -/
  calls : Unshared p a → ∃ new, q.calls = p.calls ++ new ∧
    ∀ k ∈ new, k.agent = a ∨ ∃ b, k = .reset b
  holds : (q.agents a).phase = .running → q.slot = some a
  frees : (p.agents a).phase = .running → (q.agents a).phase ≠ .running → q.slot = none
  idle : (p.agents a).phase ≠ .running → Unshared p a → q.slot = p.slot
  /-- Of what samplers left, the tags that come off are taken off once each. -/
  tags : Unshared p a → ∃ left, Sampled p (p.agents a).store left ∧
    (p.Quiet → left = (p.stores (p.agents a).store).tags) ∧
    (q.stores (p.agents a).store).tags.contexts = left.contexts ∧
    (comeOff a p q = [] → (q.stores (p.agents a).store).tags.globals = left.globals) ∧
    ∀ t, (q.stores (p.agents a).store).tags.globals.count t =
      left.globals.count t - if t ∈ comeOff a p q then 1 else 0
  others : Unshared p a → ∀ t, t ≠ (p.agents a).store → (q.stores t).tags = (p.stores t).tags
  /-- Only a start that is asked for starts an agent that does not run. -/
  unstarted : (q.agents a).phase ≠ .running → ∀ r, Leaves a q r → Unstarted a q r

theorem comeOff_nodup (a : AgentId) (p q : Program) : (comeOff a p q).Nodup := by
  unfold comeOff
  cases (p.agents a).settings with
  | none => exact .nil
  | some c =>
    dsimp only
    split
    · exact c.validTags_nodup
    · exact .nil

theorem handleFork_sheds (hp : p.Sound) (hl : (p.agents a).locked = false) (hnew : ¬ p.Abreast a)
    (hu : Unshared p a) : Ends (handleFork a) p (fun _ q =>
      Shed p (p.agents a).store (some a) (comeOff a p q) p q ∧
        ((p.agents a).phase ≠ .running → q.slot = p.slot)) fun _ _ => True := by
  have placed : Unwatched p a (p.agents a).store → Placed p True a (p.agents a).store p :=
    fun hw => ⟨fun _ => ⟨rfl, rfl⟩, rfl, .inl trivial, hw⟩
  by_cases hrun : (p.agents a).phase = .running
  · have hw : Unwatched p a (p.agents a).store := by
      refine .inr fun b _ => ?_
      by_cases hb : b = a
      · exact .inl hb
      · exact .inr (.inr (hp.alone (hp.slotted a hrun) hb))
    refine Ends.mono (applyFork_sheds plier_two hp hl hnew (placed hw) hrun) ?_ fun _ _ h => h
    exact fun _ q hq => ⟨hq, fun h => absurd hrun h⟩
  · have hoff : ∀ q, comeOff a p q = [] := by
      intro q
      unfold comeOff
      cases (p.agents a).settings <;> simp [hrun]
    rcases hu.resolve_left hrun with hquiet | hw
    · refine Ends.mono (applyFork_idle teller_two hquiet hrun hl) ?_ fun _ _ h => h
      rintro _ q ⟨new, hq, hnew⟩
      refine ⟨⟨⟨[], by simp, by rw [hq.stores hquiet, hoff]; rfl⟩, fun t _ => by rw [hq.stores hquiet],
        new, hq.calls, fun k hk => .inr ⟨a, hnew k hk⟩⟩, fun _ => hq.slot⟩
    · refine Ends.mono (applyFork_plies plier_two hp hl hnew (placed hw) hrun) ?_ fun _ _ h => h
      intro _ q hq
      rw [hoff]
      exact ⟨(hq.widen _).toShed, fun _ => hq.slot⟩

/-- Handling a fork that an agent has not seen has its effect, unless a sampler panics. -/
theorem handleFork_effect (hp : p.Sound) (hset : p.Outfitted) (halive : (p.agents a).alive = true)
    (hl : (p.agents a).locked = false) (hnew : ¬ p.Abreast a) :
    Ends (handleFork a) p (fun action q => Follows none none p q ∧ ForkEffect a p action q)
      fun h _ => Broken p h := by
  have hsheds : Ends (handleFork a) p (fun _ q => Unshared p a →
      Shed p (p.agents a).store (some a) (comeOff a p q) p q ∧
        ((p.agents a).phase ≠ .running → q.slot = p.slot)) fun _ _ => True := by
    by_cases hu : Unshared p a
    · exact Ends.mono (handleFork_sheds hp hl hnew hu) (fun _ _ h _ => h) fun _ _ h => h
    · exact (ends_iff.2 ⟨fun _ _ h => absurd h hu, fun _ _ => trivial⟩)
  refine Ends.mono (Ends.and (handleFork_goes hp halive hl).1
    (Ends.and (handleFork_decides hp hl hnew (hset a)) hsheds)) ?_ fun _ _ h => h.1.2
  rintro action q ⟨⟨hq, hseen⟩, ⟨calls, off, hd⟩, hshed⟩
  obtain rfl := hd.outcome.off_eq
  exact ⟨hq,
    { generation := hq.generation
      seen := hseen
      decided := ⟨calls, hd⟩
      calls := fun hu => by
        obtain ⟨new, hnew, hn⟩ := (hshed hu).1.calls
        exact ⟨new, hnew, fun k hk => (hn k hk).imp_left Option.some.inj⟩
      holds := hq.sound.slotted a
      frees := fun hrun hidle => by
        cases hslot : q.slot with
        | none => rfl
        | some b =>
          have hb : p.slot = some b := hq.slot b (by simp) hslot
          rw [hp.slotted a hrun] at hb
          exact absurd (hb ▸ hslot) (hd.slot hrun hidle)
      idle := fun hrun hu => (hshed hu).2 hrun
      tags := fun hu => by
        obtain ⟨us, hus, htags⟩ := (hshed hu).1.tags
        have hsampled : Sampled p (p.agents a).store _ := ⟨us, hus, rfl⟩
        refine ⟨_, hsampled, hsampled.quiet, by rw [htags]; rfl, fun hoff => ?_, fun t => ?_⟩
        · rw [htags, hoff]
          rfl
        · rw [htags]
          exact count_removeBatch (comeOff_nodup a p q) t _
      others := fun hu => (hshed hu).1.others
      unstarted := fun hidle r hr => hr.unstarted fun c hgo => hidle hgo.1 }⟩

/-- What agents do not notice makes no difference to the effect. -/
theorem ForkEffect.since (h : ForkEffect a q action r) (hsame : Same p q)
    (htags : ∀ t, (q.stores t).tags = (p.stores t).tags) (haware : ∀ t, p.Aware t → q.Aware t) :
    ForkEffect a p action r := by
  have hoff : comeOff a q r = comeOff a p r := comeOff_congr (by rw [hsame.agents]) (by rw [hsame.agents])
  have hu : Unshared p a → Unshared q a := by
    unfold Unshared Quiet Unwatched
    simp only [hsame.agents, hsame.watcher, hsame.abreast]
    exact fun hu => hu.imp_right fun hu => hu.imp_right fun hw => hw.imp_left (haware _)
  have hsampled : ∀ {left}, Sampled q (p.agents a).store left → Sampled p (p.agents a).store left := by
    unfold Sampled Prompted
    simp only [hsame.agents, htags]
    exact id
  obtain ⟨calls, hd⟩ := h.decided
  rw [hoff] at hd
  exact
    { generation := h.generation.trans hsame.generation
      seen := h.seen
      decided := ⟨calls, hd.since (by rw [hsame.agents]) (by rw [hsame.agents]) (by rw [hsame.agents])
        (by rw [hsame.agents]) (hsame.callsOf a)⟩
      calls := fun h' => by
        rw [← hsame.calls]
        exact h.calls (hu h')
      holds := h.holds
      frees := fun hrun => h.frees (by rwa [hsame.agents])
      idle := fun hrun h' => (h.idle (by rwa [hsame.agents]) (hu h')).trans hsame.slot
      tags := fun h' => by
        obtain ⟨left, hleft, hquiet, hglobals⟩ := h.tags (hu h')
        rw [hoff] at hglobals
        rw [hsame.agents] at hleft hquiet hglobals
        refine ⟨left, hsampled hleft, fun hp => (hquiet ?_).trans (htags _), hglobals⟩
        unfold Quiet at hp ⊢
        simpa only [hsame.agents] using hp
      others := fun h' t ht => by
        rw [← htags]
        exact h.others (hu h') t (by rwa [hsame.agents])
      unstarted := h.unstarted }

end Program

namespace StoreCall

/-- The call as an operation. To count contexts does not look for forks. -/
def operation? (s : StoreId) : StoreCall → Option Operation
  | addTag c t => some (.addTags s c [t])
  | addTags c tags => some (.addTags s c tags)
  | removeTag c t => some (.removeTags s c [t])
  | removeTags c tags => some (.removeTags s c tags)
  | addGlobal t => some (.addGlobal s t)
  | removeGlobal t => some (.removeGlobal s t)
  | replaceGlobals old new => some (.replaceGlobals s old new)
  | clearContext c => some (.clearContext s c)
  | snapshot c => some (.snapshot s c)
  | contextCount => none

theorem ask_after {s : StoreId} {k : StoreCall} {op : Operation} (h : k.operation? s = some op)
    (p : Program) : ((k.ask s).on p).2 = op.after p := by
  have mapped : ∀ {β : Type} (f : β → Answer) (x : Act β),
      ((f <$> x).on p).2 = ((discard x).on p).2 := by
    intro β f x
    rw [on_map, on_discard_snd]
    rcases x.on p with ⟨h | r, q⟩ <;> rfl
  cases k with
  | contextCount => cases h
  | removeTag c t =>
    cases h
    refine (mapped _ _).trans ?_
    unfold Operation.after Operation.perform Program.removeTag
    rw [on_discard_snd, on_discard_snd, on_bind]
    rcases (Program.removeTags s c [t]).on p with ⟨h | r, q⟩ <;> rfl
  | addTag | addTags | removeTags | addGlobal | removeGlobal | replaceGlobals | clearContext | snapshot =>
    cases h
    exact mapped _ _

theorem ask_looks {s : StoreId} {k : StoreCall} {op : Operation} (h : k.operation? s = some op) :
    ∃ f, k.ask s = checkStore tellAgent s >>= f := by
  have first : ∀ {β : Type} (f : β → Answer) (g : Unit → Act β),
      ∃ f', f <$> (checkStore tellAgent s >>= g) = checkStore tellAgent s >>= f' :=
    fun f g => ⟨_, map_bind f _ g⟩
  have before : ∀ {β γ : Type} (f : γ → Answer) (g : Unit → Act β) (g' : β → Act γ),
      ∃ f', f <$> ((checkStore tellAgent s >>= g) >>= g') = checkStore tellAgent s >>= f' := by
    intro β γ f g g'
    rw [bind_assoc]
    exact first f _
  cases k with
  | contextCount => cases h
  | addTag | addTags | removeTag => exact before _ _ _
  | removeTags | addGlobal | removeGlobal | replaceGlobals | clearContext | snapshot => exact first _ _

end StoreCall

namespace Program

variable {α : Type} {p q r : Program} {a : AgentId} {s : StoreId} {action : Option ForkAction}

/-- `x` asks an agent, or a store that tells it about forks, for something. Once a fork is handled what
is left to do is `y`, which amounts to an operation. -/
inductive Asks (a : AgentId) (p : Program) : {α : Type} → Act α → Act α → Operation → Prop
  | start (c : Settings) : Asks a p (startAgent a c) (startAgent a c) (.start a c)
  | reconfigure (c : Settings) : Asks a p (Program.reconfigure a c) (startAgent a c) (.start a c)
  | stop : Asks a p (stopAgent a) (stopAgent a) (.stop a)
  | state : Asks a p (Program.state a) (Program.state a) (.state a)
  | tags : Asks a p (storeOf a) (storeOf a) (.tags a)
  | use {s : StoreId} {k : StoreCall} {op : Operation} (hk : k.operation? s = some op)
    (hw : (p.stores s).hook.watcher = some (.agent a)) : Asks a p (k.ask s) (k.ask s) op

def Handles (a : AgentId) (p : Program) (x y : Act α) : Prop :=
  (∃ action q, ForkEffect a p action q ∧ x.on p = y.on q) ∨
    ∃ h, (x.on p).1 = .error h ∧ Broken p h

theorem agent_handles {f : Unit → Act α} (hp : p.Sound) (hset : p.Outfitted)
    (halive : (p.agents a).alive = true) (hl : (p.agents a).locked = false) (hnew : ¬ p.Abreast a) :
    Handles a p (tellAgent a >>= f) (tellAgent a >>= f) := by
  have hends := handleFork_effect hp hset halive hl hnew
  unfold Ends at hends
  unfold Handles
  rcases hon : (handleFork a).on p with ⟨h | action, q⟩
  · rw [hon] at hends
    refine .inr ⟨h, ?_, hends⟩
    rw [on_bind, tellAgent, on_discard, hon]
  · rw [hon] at hends
    refine .inl ⟨action, q, hends.2, ?_⟩
    have hfirst := agent_first (p := p) (f := f) (by rw [hon]; exact hends.2.seen)
    rw [← hfirst, on_bind, hon]

theorem reconfigure_handles (hp : p.Sound) (hset : p.Outfitted)
    (halive : (p.agents a).alive = true) (hl : (p.agents a).locked = false) (hnew : ¬ p.Abreast a)
    (c : Settings) : Handles a p (Program.reconfigure a c) (startAgent a c) := by
  generalize hnotes : (p.thread, Log.Event.say .info "Reconfiguring agent") :: p.notes = notes
  have hsaid : (Program.reconfigure a c).on p = (startAgent a c).on (p.annotate notes) := by
    rw [← hnotes]
    rfl
  have hsame := Same.annotate p notes
  unfold Handles
  rw [hsaid]
  refine (agent_handles (p := p.annotate notes) (hsame.sound hp) hset halive hl hnew).imp_left ?_
  rintro ⟨action, q, hq, hon⟩
  exact ⟨action, q, hq.since hsame (fun _ => rfl) fun _ h => h, hon⟩

theorem store_handles {f : Unit → Act α} (hp : p.AtRest) (hset : p.Outfitted)
    (halive : (p.agents a).alive = true) (hnew : ¬ p.Abreast a)
    (hw : (p.stores s).hook.watcher = some (.agent a)) :
    Handles a p (checkStore tellAgent s >>= f) (checkStore tellAgent s >>= f) := by
  have hseen : (p.stores s).hook.seen ≠ p.generation := fun h => hnew (hp.told s a hw halive h)
  have hsame := Same.mark p s
  have hends := handleFork_effect (p := p.mark s) (hsame.sound hp.sound) hset halive (hp.unlocked a) hnew
  have hcheck : (checkStore tellAgent s).on p = (tellAgent a).on (p.mark s) := by
    rw [checkStore_behind hseen hw, on_inform, mark_agents, if_pos halive]
  unfold Ends at hends
  unfold Handles
  rw [on_bind, hcheck, tellAgent, on_discard]
  rcases hon : (handleFork a).on (p.mark s) with ⟨h | action, q⟩
  · rw [hon] at hends
    exact .inr ⟨h, rfl, hends⟩
  · rw [hon] at hends
    obtain ⟨hq, heffect⟩ := hends
    have hready : Ready False (p.mark s) s := .inr (by simp)
    have haware : q.Aware s := (hready.follows hq).resolve_left id
    refine .inl ⟨action, q, heffect.since hsame (fun t => ?_) (fun t ht => ?_), ?_⟩
    · by_cases hts : t = s <;> simp [hts]
    · unfold Aware at ht ⊢
      by_cases hts : t = s <;> simp [hts, ht]
    · rw [haware.on_check]

theorem Asks.handles {x y : Act α} {op : Operation} (h : Asks a p x y op) (hp : p.AtRest)
    (hset : p.Outfitted) (halive : (p.agents a).alive = true) (hnew : ¬ p.Abreast a) :
    Handles a p x y ∧ ∀ q, (y.on q).2 = op.after q := by
  have hl := hp.unlocked a
  cases h with
  | start c => exact ⟨agent_handles hp.sound hset halive hl hnew, fun _ => (on_discard_snd _).symm⟩
  | reconfigure c =>
    exact ⟨reconfigure_handles hp.sound hset halive hl hnew c, fun _ => (on_discard_snd _).symm⟩
  | stop => exact ⟨agent_handles hp.sound hset halive hl hnew, fun _ => (on_discard_snd _).symm⟩
  | state => exact ⟨agent_handles hp.sound hset halive hl hnew, fun _ => (on_discard_snd _).symm⟩
  | tags => exact ⟨agent_handles hp.sound hset halive hl hnew, fun _ => (on_discard_snd _).symm⟩
  | use hk hw =>
    obtain ⟨f, hf⟩ := StoreCall.ask_looks hk
    refine ⟨?_, StoreCall.ask_after hk⟩
    rw [hf]
    exact store_handles hp hset halive hnew hw

end Program

/-- In every program that operations lead to, a fork that an agent has not seen has its effect on the
agent, by whatever is asked first, and if the agent does not run then its sampler is not started by
anything that comes after but a start of this agent. Only a sampler that panics can prevent it. -/
theorem fork_has_its_effect {p : Program} {a : AgentId} (hp : Reachable p)
    (halive : (p.agents a).alive = true) (hnew : ¬ p.Abreast a) :
    Ends (handleFork a) p (fun action q => ForkEffect a p action q) (fun h _ => Broken p h) ∧
      ∀ {α : Type} {x y : Act α} {op : Operation}, Asks a p x y op →
        (∃ action q, ForkEffect a p action q ∧ x.on p = y.on q ∧ (x.on p).2 = op.after q) ∨
          ∃ h, (x.on p).1 = .error h ∧ Broken p h := by
  have hrest := hp.atRest
  refine ⟨?_, fun hx => ?_⟩
  · exact Ends.mono (handleFork_effect hrest.sound hp.outfitted halive (hrest.unlocked a) hnew)
      (fun _ _ h => h.2) fun _ _ h => h
  · obtain ⟨hhandles, hafter⟩ := hx.handles hrest hp.outfitted halive hnew
    refine hhandles.imp_left ?_
    rintro ⟨action, q, hq, hon⟩
    exact ⟨action, q, hq, hon, by rw [hon, hafter]⟩

def Settings.pursuing (key value : String) : Settings :=
  { Settings.tagged key value with detectSubprocesses := true }

/-- The process forks while an agent runs whose sampler will not start a second time. -/
def Program.relapsing : Program := Operation.fork.after
  ((Operation.start 0 (.pursuing "team" "a")).after (manned (.failing (· != 0))))

/-- Whoever then takes a snapshot has the agent stopped, the slot freed and the tag taken off. -/
theorem fork_has_its_effect_relapsing :
    Reachable relapsing ∧ (relapsing.agents 0).alive = true ∧ ¬ relapsing.Abreast 0 ∧
      relapsing.tagsAt 0 = {⟨"team", "a"⟩} ∧ ∃ q, ForkEffect 0 relapsing (some .restart) q ∧
        ((StoreCall.snapshot ⟨7⟩).ask 0).on relapsing = ((StoreCall.snapshot ⟨7⟩).ask 0).on q ∧
        (q.agents 0).phase = .stopped ∧ q.slot = none ∧ q.tagsAt 0 = 0 ∧
        ∀ r, Leaves 0 q r → Unstarted 0 q r := by
  have hreach : Reachable relapsing :=
    (Reachable.perform (manned_reachable _) (.start 0 (.pursuing "team" "a")) rfl).perform .fork trivial
  have hbehind : ¬ relapsing.Abreast 0 := by
    intro h
    cases h
  have scripts : ∀ b script, (relapsing.agents b).sampler = .scripted script →
      script = .failing (· != 0) := by
    intro b script hs
    cases b with
    | zero =>
      cases hs
      rfl
    | succ b => cases hs
  have hcalm : relapsing.Calm := fun b script hs => scripts b script hs ▸ Script.failing_calm _
  have hquiet : relapsing.Quiet := fun b script hs => scripts b script hs ▸ Script.failing_quiet _
  have hrun : (relapsing.agents 0).phase = .running := rfl
  have hset : (relapsing.agents 0).settings = some (.pursuing "team" "a") := rfl
  have hfails : ¬ relapsing.Starts 0 := by
    intro h
    cases h
  obtain ⟨action, q, hq, hon, -⟩ | ⟨h, -, hbroken⟩ :=
    (fork_has_its_effect hreach rfl hbehind).2 (Asks.use (s := 0) (k := .snapshot ⟨7⟩) rfl rfl)
  · obtain ⟨calls, hd⟩ := hq.decided
    obtain ⟨left, -, hleft, -, -, hcount⟩ := hq.tags (.inl hrun)
    generalize hoff : comeOff 0 relapsing q = off at hd hcount
    cases hd.outcome with
    | idle hidle => exact absurd hrun hidle
    | inert _ hc hdetect =>
      cases hset.symm.trans hc
      cases hdetect
    | restarted _ _ _ hstarts => exact absurd hstarts hfails
    | failed _ hc _ _ hphase =>
      cases hset.symm.trans hc
      have hidle : (q.agents 0).phase ≠ .running := by simp [hphase]
      refine ⟨hreach, rfl, hbehind, rfl, q, hq, hon, hphase, hq.frees hrun hidle, ?_,
        hq.unstarted hidle⟩
      have hglobals : left.globals = [⟨"team", "a"⟩] := by
        rw [hleft hquiet]
        rfl
      have hvalid : (Settings.pursuing "team" "a").validTags = [⟨"team", "a"⟩] := rfl
      rw [hglobals, hvalid] at hcount
      ext t
      have hat : (q.tagsAt 0).count t = (q.stores 0).tags.globals.count t := Multiset.coe_count t _
      refine hat.trans ((hcount t).trans ?_)
      by_cases ht : t = ⟨"team", "a"⟩
      · simp [ht]
      · simp [ht, Ne.symm ht]
  · exact absurd hcalm hbroken.2

end ProfilingAgent
