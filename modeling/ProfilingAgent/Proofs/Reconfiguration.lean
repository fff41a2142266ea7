import ProfilingAgent.Proofs.BatchRemoval
import ProfilingAgent.Proofs.FailedOperations
import ProfilingAgent.Proofs.ObligingSamplers

set_option autoImplicit false

namespace ProfilingAgent

open Act Program

namespace Program

variable {p q r : Program} {a : AgentId} {s : StoreId} {c d : Settings} {script : Script}
  {f g : Agent → Agent} {new new' : List SamplerCall}

structure Transit (a : AgentId) (f : Agent → Agent) (new : List SamplerCall) (p q : Program) : Prop where
  row : q.agents a = f (p.agents a)
  generation : q.generation = p.generation
  slot : q.slot = p.slot
  calls : q.calls = p.calls ++ new

namespace Transit

theorem of_same (h : Same p q) : Transit a id [] p q :=
  ⟨by rw [h.agents]; rfl, h.generation, h.slot, by rw [h.calls, List.append_nil]⟩

theorem trans (h : Transit a f new p q) (h' : Transit a g new' q r) :
    Transit a (fun x => g (f x)) (new ++ new') p r where
  row := by rw [h'.row, h.row]
  generation := h'.generation.trans h.generation
  slot := h'.slot.trans h.slot
  calls := by rw [h'.calls, h.calls, List.append_assoc]

theorem amend (h : Transit a f new p q) (g : Agent → Agent) :
    Transit a (fun x => g (f x)) new p (q.amend a g) :=
  ⟨by rw [amend_agents, if_pos rfl, h.row], h.generation, h.slot, h.calls⟩

theorem annotate (h : Transit a f new p q) (notes : List (ThreadId × Log.Event)) :
    Transit a f new p (q.annotate notes) := ⟨h.row, h.generation, h.slot, h.calls⟩

end Transit

theorem Answered.transit {k : SamplerCall} (h : Answered script a f k p q) : Transit a f [k] p q := by
  obtain ⟨tags, hq⟩ := h.retagged
  refine ⟨?_, hq.same.generation, hq.same.slot, hq.same.calls⟩
  rw [hq.same.agents, call_agents, amend_agents, if_pos rfl]

theorem Answered.aware {k : SamplerCall} (h : Answered script a f k p q) (hp : p.Aware s) : q.Aware s := by
  obtain ⟨tags, hq⟩ := h.retagged
  exact hq.aware.2 hp

structure Apt (script : Script) (a : AgentId) (s : StoreId) (p : Program) : Prop where
  store : (p.agents a).store = s
  sampler : (p.agents a).sampler = .scripted script
  abreast : p.Abreast a

theorem Apt.transit (h : Apt script a s p) (hq : Transit a f new p q)
    (hf : ∀ x, (f x).store = x.store ∧ (f x).sampler = x.sampler ∧ (f x).seen = x.seen) :
    Apt script a s q where
  store := by rw [hq.row, (hf _).1, h.store]
  sampler := by rw [hq.row, (hf _).2.1, h.sampler]
  abreast := by
    unfold Abreast
    rw [hq.row, (hf _).2.2, hq.generation]
    exact h.abreast

/-- The sampler has been started with these settings, after other calls, and the tags of the store are
these if the sampler does not change them. -/
structure Launched (script : Script) (a : AgentId) (s : StoreId) (c : Settings) (f : Agent → Agent)
    (before : List SamplerCall) (tags : List Tag) (p q : Program) : Prop where
  transit : ∃ globals, Transit a f (before ++ [.start a c globals]) p q
  aware : q.Aware s
  tags : script.Modest → (q.stores s).tags.globals = tags

theorem Launched.amend {before : List SamplerCall} {tags : List Tag}
    (h : Launched script a s c f before tags p q) (g : Agent → Agent) :
    Launched script a s c (fun x => g (f x)) before tags p (q.amend a g) := by
  obtain ⟨globals, hq⟩ := h.transit
  exact ⟨⟨globals, hq.amend g⟩, h.aware, h.tags⟩

theorem Launched.annotate {before : List SamplerCall} {tags : List Tag}
    (h : Launched script a s c f before tags p q) (notes : List (ThreadId × Log.Event)) :
    Launched script a s c f before tags p (q.annotate notes) := by
  obtain ⟨globals, hq⟩ := h.transit
  exact ⟨⟨globals, hq.annotate notes⟩, h.aware, h.tags⟩

theorem exchange_started (h : Apt script a s p) (hobliging : script.Obliging) (hstill : p.Still s)
    (old : List Tag) {tags : List Tag} (htags : ∀ t ∈ tags, t.isValid = true) (c : Settings) :
    ∃ q r, (replaceGlobalsWith tellAgent s old tags).on p = (.ok (.ok ()), q) ∧
      (callStart tellAgent a c).on q = (.ok true, r) ∧
      Launched script a s c (fun x => { x with starts := x.starts + 1 }) []
        (thinned old (p.stores s).tags.globals ++ tags) p r := by
  have hends : Ends (replaceGlobalsWith tellAgent s old tags) p _ _ := hstill.exchange htags
  obtain ⟨_, q, hexchange, rfl, hq⟩ := hends.gives
  have hsame : Transit a id [] p q := .of_same hq.same
  have hapt : Apt script a s q := h.transit hsame fun _ => ⟨rfl, rfl, rfl⟩
  have haware : q.Aware (q.agents a).store := by
    rw [hapt.store]
    exact hq.aware
  obtain ⟨r, hstart, hr⟩ := callStart_answered teller haware hapt.abreast hapt.sampler hobliging c
  refine ⟨q, r, hexchange, hstart, ⟨_, hsame.trans hr.transit⟩, hr.aware hq.aware, fun hmodest => ?_⟩
  have hglobals := hr.globals hmodest
  rw [hapt.store, hq.tags] at hglobals
  rw [hglobals, removeBatch_fst]

theorem Launched.before {notes : List (ThreadId × Log.Event)} {before : List SamplerCall} {tags : List Tag}
    (h : Launched script a s c f before tags (p.annotate notes) q) :
    Launched script a s c f before tags p q := by
  obtain ⟨globals, hq⟩ := h.transit
  exact ⟨⟨globals, hq.row, hq.generation, hq.slot, hq.calls⟩, h.aware, h.tags⟩

theorem launch_takes (h : Apt script a s p) (hobliging : script.Obliging) (hstill : p.Still s)
    (c : Settings) : Ends (launch a c) p (fun result q => result = .ok () ∧ Launched script a s c
      (fun x => { x with starts := x.starts + 1, settings := some c, phase := .running }) []
        ((p.stores s).tags.globals ++ c.validTags) p q) fun _ _ => False := by
  unfold launch
  rw [ends_bind, ends_say, ends_bind, ends_agent, ends_bind, ends_configuredTags, ends_bind]
  generalize (List.map _ c.tagRemarks).reverse ++ _ = notes
  generalize _ :: p.notes = notes'
  have hstill' : ((p.annotate notes').annotate notes).Still s := hstill.congr rfl (.annotate p notes)
  obtain ⟨q, r, hexchange, hstart, hr⟩ := exchange_started (p := (p.annotate notes').annotate notes)
    ⟨h.store, h.sampler, h.abreast⟩ hobliging hstill' [] c.isValid_of_mem_validTags c
  rw [annotate_agents, h.store, ends_of_on hexchange]
  dsimp only
  rw [ends_bind, ends_of_on hstart, if_pos rfl]
  simp only [ends_bind, ends_note, ends_updateAgent, ends_pure]
  rw [thinned_nil] at hr
  have hset := hr.amend fun x => { x with settings := some c, phase := .running }
  exact ⟨trivial, (hset.annotate _).before.before⟩

theorem relaunch_takes (h : Apt script a s p) (hobliging : script.Obliging) (hstill : p.Still s)
    (old : List Tag) (c : Settings) : Ends (relaunch a s old c) p (fun result q => result = .ok () ∧
      Launched script a s c (fun x => { x with starts := x.starts + 1, settings := some c }) []
        (thinned old (p.stores s).tags.globals ++ c.validTags) p q) fun _ _ => False := by
  unfold relaunch
  rw [ends_bind, ends_configuredTags, ends_bind]
  generalize (List.map _ c.tagRemarks).reverse ++ _ = notes
  obtain ⟨q, r, hexchange, hstart, hr⟩ := exchange_started (p := p.annotate notes)
    ⟨h.store, h.sampler, h.abreast⟩ hobliging (hstill.congr rfl (.annotate p notes)) old
    c.isValid_of_mem_validTags c
  rw [ends_of_on hexchange]
  dsimp only
  rw [ends_bind, ends_of_on hstart, if_pos rfl]
  simp only [ends_bind, ends_say, ends_updateAgent, ends_pure]
  have hset := hr.amend fun x => { x with settings := some c }
  exact ⟨trivial, (hset.annotate _).before⟩

theorem relaunch_after_stop {flushed : Option (List Tag)} (h : Apt script a s p)
    (hobliging : script.Obliging) (haware : p.Aware s)
    (hq : Answered script a (fun x => { x with stops := x.stops + 1 }) (.stop a flushed) p q)
    (c d : Settings) (notes : List (ThreadId × Log.Event)) :
    Ends (do
      let old ← previousTags (some c)
      relaunch a s old d) (q.annotate notes) (fun result r => result = .ok () ∧ Launched script a s d
        (fun x => { x with stops := x.stops + 1, starts := x.starts + 1, settings := some d })
          [.stop a flushed] (thinned c.validTags (p.stores s).tags.globals ++ d.validTags) p r)
      fun _ _ => False := by
  have hapt : Apt script a s q := h.transit hq.transit fun _ => ⟨rfl, rfl, rfl⟩
  unfold previousTags
  rw [ends_bind, ends_configuredTags]
  generalize (List.map _ c.tagRemarks).reverse ++ _ = notes'
  have hrelaunch := relaunch_takes (p := (q.annotate notes).annotate notes')
    ⟨hapt.store, hapt.sampler, hapt.abreast⟩ hobliging (.inl (hq.aware haware)) c.validTags d
  refine Ends.mono hrelaunch ?_ fun _ _ h => h
  rintro _ r ⟨rfl, hr⟩
  have hlaunched := hr.before.before
  obtain ⟨globals, htransit⟩ := hlaunched.transit
  refine ⟨rfl, ⟨⟨globals, hq.transit.trans htransit⟩, hlaunched.aware, fun hmodest => ?_⟩⟩
  have hglobals := hq.globals hmodest
  rw [h.store] at hglobals
  rw [hlaunched.tags hmodest]
  exact congrArg (fun tags => thinned c.validTags tags ++ d.validTags) hglobals

theorem swap_takes (h : Apt script a s p) (hobliging : script.Obliging) (haware : p.Aware s)
    (hset : (p.agents a).settings = some c) (d : Settings) : ∃ flushed,
    Ends (swap a d) p (fun result q => result = .ok () ∧ Launched script a s d
      (fun x => { x with stops := x.stops + 1, starts := x.starts + 1, settings := some d })
        [.stop a flushed] (thinned c.validTags (p.stores s).tags.globals ++ d.validTags) p q)
      fun _ _ => False := by
  obtain ⟨stopped, flushed, q, hstop, hq⟩ := callStop_answered teller (h.store.symm ▸ haware) h.abreast
    h.sampler hobliging
  have relaunched := relaunch_after_stop h hobliging haware hq c d
  refine ⟨flushed, ?_⟩
  unfold swap
  rw [ends_bind, ends_agent, ends_bind, ends_of_on hstop, hset, h.store]
  cases stopped with
  | true => exact relaunched q.notes
  | false =>
    rw [Bool.not_false, if_pos rfl, ends_bind, ends_say]
    exact relaunched _

/-- The agent has never been configured, and nothing keeps it from being started. -/
structure Untried (script : Script) (a : AgentId) (s : StoreId) (p : Program) : Prop
    extends Apt script a s p where
  phase : (p.agents a).phase = .fresh
  unlocked : (p.agents a).locked = false
  free : p.slot = none
  still : p.Still s

structure RunsWith (script : Script) (a : AgentId) (s : StoreId) (c : Settings) (p : Program) : Prop
    extends Apt script a s p where
  phase : (p.agents a).phase = .running
  settings : (p.agents a).settings = some c
  unlocked : (p.agents a).locked = false
  aware : p.Aware s

/-- The agent has come to run with these settings. Its sampler has got these calls, and the global tags
of the store are these if the sampler does not change them. -/
structure Taken (script : Script) (a : AgentId) (s : StoreId) (c : Settings) (new : List SamplerCall)
    (tags : List Tag) (p q : Program) : Prop where
  runs : RunsWith script a s c q
  calls : q.calls = p.calls ++ new
  tags : script.Modest → (q.stores s).tags.globals = tags

theorem Launched.taken {before : List SamplerCall} {tags : List Tag} (hapt : Apt script a s p)
    (hq : Launched script a s c f before tags p q)
    (hf : ∀ x, (f x).store = x.store ∧ (f x).sampler = x.sampler ∧ (f x).seen = x.seen)
    (hphase : (f (p.agents a)).phase = .running) (hset : (f (p.agents a)).settings = some c) :
    ∃ globals, Taken script a s c (before ++ [.start a c globals]) tags p
      (q.amend a fun x => { x with locked := false }) := by
  obtain ⟨globals, htransit⟩ := hq.transit
  have hunlocked := htransit.amend fun x => { x with locked := false }
  have hrow := hunlocked.row
  refine ⟨globals, ⟨⟨hapt.transit hunlocked hf, ?_, ?_, ?_, hq.aware⟩, hunlocked.calls, hq.tags⟩⟩
  · rw [hrow]
    exact hphase
  · rw [hrow]
    exact hset
  · rw [hrow]

theorem startAgent_gives (ha : p.Abreast a) (hl : (p.agents a).locked = false)
    {ok : Except AgentError Unit → Program → Prop}
    (hbody : Ends (startLocked a c) (p.amend a fun x => { x with locked := true })
      (fun result q => ok result (q.amend a fun x => { x with locked := false })) fun _ _ => False) :
    Ends (startAgent a c) p ok fun _ _ => False := by
  unfold startAgent
  rw [ends_bind, ends_of_on (teller.abreast ha), ends_locking hl]
  exact hbody

theorem Untried.startAgent (h : Untried script a s p) (hobliging : script.Obliging) (c : Settings) :
    Ends (startAgent a c) p (fun result q => result = .ok () ∧ ∃ globals, Taken script a s c
      [.start a c globals] ((p.stores s).tags.globals ++ c.validTags) p q) fun _ _ => False := by
  apply startAgent_gives h.abreast h.unlocked
  unfold startLocked startFrom
  have hphase : ((p.amend a fun x => { x with locked := true }).agents a).phase = .fresh :=
    (amend_field p a a _ Agent.phase rfl).trans h.phase
  rw [ends_bind, ends_agent, hphase, if_neg (by decide), ends_bind, ends_claim, amend_slot, if_pos h.free,
    Bool.not_true, if_neg Bool.false_ne_true, if_pos rfl, ends_bind, ends_setPhase]
  generalize hq : ((p.amend a fun x => { x with locked := true }).give (some a)).amend a
    (fun x => { x with phase := .configured }) = q
  have hrow : q.agents a = { p.agents a with locked := true, phase := .configured } := by
    rw [← hq, amend_agents, if_pos rfl, give_agents, amend_agents, if_pos rfl]
  have hapt : Apt script a s q := by
    refine ⟨by rw [hrow, h.store], by rw [hrow, h.sampler], ?_⟩
    unfold Abreast
    rw [hrow, ← hq]
    exact h.abreast
  have hstill : q.Still s := by
    have hlocked : (p.amend a fun x => { x with locked := true }).Still s :=
      h.still.amend fun _ => ⟨rfl, rfl⟩
    have hgiven : ((p.amend a fun x => { x with locked := true }).give (some a)).Still s := hlocked
    rw [← hq]
    exact hgiven.amend fun _ => ⟨rfl, rfl⟩
  refine Ends.mono (launch_takes hapt hobliging hstill c) ?_ fun _ _ h => h
  rintro _ r ⟨rfl, hr⟩
  obtain ⟨globals, htaken⟩ := hr.taken hapt (fun _ => ⟨rfl, rfl, rfl⟩) rfl rfl
  refine ⟨rfl, globals, htaken.runs, ?_, fun hmodest => ?_⟩
  · rw [htaken.calls, ← hq]
    rfl
  · rw [htaken.tags hmodest, ← hq]
    rfl

/-- An agent that runs takes other settings by a stop and a start, and the same settings by nothing. -/
theorem RunsWith.startAgent (h : RunsWith script a s c p) (hobliging : script.Obliging) (d : Settings) :
    Ends (startAgent a d) p (fun result q => result = .ok () ∧
      (d = c → ∃ notes, q = p.annotate notes) ∧
      (d ≠ c → ∃ flushed globals, Taken script a s d [.stop a flushed, .start a d globals]
        (thinned c.validTags (p.stores s).tags.globals ++ d.validTags) p q)) fun _ _ => False := by
  apply startAgent_gives h.abreast h.unlocked
  unfold startLocked
  have hrow : (p.amend a fun x => { x with locked := true }).agents a = { p.agents a with locked := true } :=
    (amend_agents ..).trans (if_pos rfl)
  rw [ends_bind, ends_agent, hrow, if_pos h.phase, h.settings]
  by_cases hsame : some c = some d
  · obtain rfl := Option.some.inj hsame
    rw [if_pos rfl, ends_bind, ends_say, ends_pure]
    generalize _ :: Program.notes _ = notes
    have hsize : a < p.agents.size := by
      by_contra hlt
      have hsampler := h.sampler
      rw [Table.row_of_size_le _ (Nat.le_of_not_lt hlt)] at hsampler
      cases hsampler
    exact ⟨rfl, fun _ => ⟨notes, congrArg (annotate · notes) (lock_unlock h.unlocked hsize)⟩,
      fun hne => absurd rfl hne⟩
  · rw [if_neg hsame]
    have hapt : Apt script a s (p.amend a fun x => { x with locked := true }) := by
      refine ⟨by rw [hrow, h.store], by rw [hrow, h.sampler], ?_⟩
      unfold Abreast
      rw [hrow]
      exact h.abreast
    obtain ⟨flushed, hswap⟩ := swap_takes hapt hobliging h.aware (by rw [hrow]; exact h.settings) d
    refine Ends.mono hswap ?_ fun _ _ h => h
    rintro _ r ⟨rfl, hr⟩
    obtain ⟨globals, htaken⟩ := hr.taken hapt (fun _ => ⟨rfl, rfl, rfl⟩) (by rw [hrow]; exact h.phase) rfl
    exact ⟨rfl, fun heq => absurd (congrArg some heq).symm hsame,
      fun _ => ⟨flushed, globals, htaken.runs, htaken.calls, htaken.tags⟩⟩

end Program
end ProfilingAgent
