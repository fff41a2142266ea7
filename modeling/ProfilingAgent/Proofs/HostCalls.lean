import ProfilingAgent.Proofs.DroppedAgents
import ProfilingAgent.Proofs.HostThreads
import ProfilingAgent.Proofs.Ledgers
import ProfilingAgent.Proofs.Registration

set_option autoImplicit false

namespace ProfilingAgent

open Act Program

namespace Program

variable {α β : Type} {p q r : Program} {a : AgentId} {E U V : Ledger} {x : Act α}

/-- No sampler panics, and nobody is there but the agent that hosts talk to. It uses the first store, which
tells it about forks. -/
structure Sole (p : Program) : Prop where
  rest : p.AtRest
  calm : p.Calm
  alone : ∀ b, (p.agents b).alive = true → p.hostAgent = some b
  alive : ∀ a, p.hostAgent = some a → (p.agents a).alive = true
  home : ∀ a, p.hostAgent = some a → (p.agents a).store = 0
  watcher : ∀ a, p.hostAgent = some a → (p.stores 0).hook.watcher = some (.agent a)
  fresh : p.hostAgent = none → p.stores.size = 0

/-- The one agent is told about forks by its own store, so that its sampler notices none when it uses it. -/
theorem Sole.discreet (h : p.Sole) (hmodest : p.Modest) : p.Discreet := by
  intro a halive script hs
  have ha := h.alone a halive
  refine .inr ⟨hmodest a script hs, ?_⟩
  rw [h.home a ha]
  exact h.watcher a ha

/-- One agent at most is there again, those that were replaced before are as they were, and if samplers
change no global tags then these are accounted for. -/
structure Upkeep (E U : Ledger) (p q : Program) : Prop where
  sole : q.Sole
  bygone : Bygone p q
  modest : q.Modest → p.Modest
  accounts : q.Modest → Accounts E p → Accounts U q

theorem Upkeep.refl (h : p.Sole) : Upkeep E E p p := ⟨h, .refl p, id, fun _ => id⟩

theorem Upkeep.trans (h : Upkeep E U p q) (h' : Upkeep U V q r) : Upkeep E V p r where
  sole := h'.sole
  bygone := h.bygone.trans h'.bygone
  modest hr := h.modest (h'.modest hr)
  accounts hr hE := h'.accounts hr (h.accounts (h'.modest hr) hE)

/-- The agent was not replaced. -/
structure Minded (E U : Ledger) (p q : Program) : Prop extends Upkeep E U p q where
  host : ∀ a, p.hostAgent = some a → q.hostAgent = some a
  tamed : p.Modest → q.Modest

namespace Minded

theorem refl (h : p.Sole) : Minded E E p p := ⟨.refl h, fun _ => id, id⟩

theorem trans (h : Minded E U p q) (h' : Minded U V q r) : Minded E V p r :=
  ⟨h.toUpkeep.trans h'.toUpkeep, fun a ha => h'.host a (h.host a ha), fun hp => h'.tamed (h.tamed hp)⟩

/-- What is neither about agents nor about stores makes no difference. -/
theorem of_same (h : p.Sole) (hstores : q.stores = p.stores) (hsame : Same p q)
    (hhost : q.hostAgent = p.hostAgent) : Minded E E p q where
  sole :=
    { rest := h.rest.same hsame fun _ => .inl (by rw [hstores])
      calm := hsame.calm.2 h.calm
      alone := by
        rw [hhost, hsame.agents]
        exact h.alone
      alive := by
        rw [hhost, hsame.agents]
        exact h.alive
      home := by
        rw [hhost, hsame.agents]
        exact h.home
      watcher := by
        rw [hhost, hstores]
        exact h.watcher
      fresh := by
        rw [hhost, hstores]
        exact h.fresh }
  bygone := ⟨Nat.le_of_eq (by rw [hsame.agents]), fun b _ _ => ⟨by rw [hsame.agents], hsame.callsOf b⟩⟩
  modest hq := by
    unfold Modest at hq ⊢
    rw [← hsame.agents]
    exact hq
  accounts _ hE := hE.congr (fun s => by unfold tagsAt; rw [hstores]) (fun _ => by rw [hsame.agents])
    (fun _ => by rw [hsame.agents]) fun _ => by rw [hsame.agents]
  host a ha := hhost.trans ha
  tamed hp := by
    unfold Modest at hp ⊢
    rw [hsame.agents]
    exact hp

theorem annotate (h : p.Sole) (notes : List (ThreadId × Log.Event)) : Minded E E p (p.annotate notes) :=
  of_same h rfl (Same.annotate p notes) rfl

theorem turned (h : p.Sole) (hq : Turned p q) : Minded E E p q := by
  obtain ⟨threads, thread, next, rfl⟩ := hq
  exact of_same h rfl ⟨rfl, rfl, rfl, rfl, fun _ => rfl⟩ rfl

end Minded

def Minds (E U : Ledger) (x : Act α) (p : Program) : Prop := ∃ r q, x.on p = (.ok r, q) ∧ Minded E U p q

namespace Minds

protected theorem pure (h : p.Sole) (r : α) : Minds E E (pure r) p := ⟨r, p, rfl, .refl h⟩

theorem bind {f : α → Act β} (hx : Minds E U x p)
    (hf : ∀ r q, x.on p = (.ok r, q) → Minded E U p q → Minds U V (f r) q) : Minds E V (x >>= f) p := by
  obtain ⟨r, q, hon, hq⟩ := hx
  obtain ⟨r', q', hon', hq'⟩ := hf r q hon hq
  exact ⟨r', q', by rw [on_bind, hon]; exact hon', hq.trans hq'⟩

theorem note (h : p.Sole) (e : Log.Event) : Minds E E (note e) p := ⟨(), _, rfl, .annotate h _⟩

theorem noting (h : p.Sole) (n : Log.Noted α) : Minds E E (noting n) p := ⟨n.value, _, rfl, .annotate h _⟩

theorem discard (hx : Minds E U x p) : Minds E U (discard x) p := by
  obtain ⟨r, q, hon, hq⟩ := hx
  exact ⟨(), q, by rw [on_discard, hon], hq⟩

theorem guarded (hx : Minds E U x p) (fallback : α) : Minds E U (Host.guarded fallback x) p := by
  obtain ⟨r, q, hon, hq⟩ := hx
  exact ⟨r, q, Host.guarded_on hon, hq⟩

theorem guarded_bind {f : α → Act β} {fallback : β} (hx : Minds E U x p)
    (hf : ∀ r q, x.on p = (.ok r, q) → Minded E U p q → Minds U V (Host.guarded fallback (f r)) q) :
    Minds E V (Host.guarded fallback (x >>= f)) p := by
  obtain ⟨r, q, hon, hq⟩ := hx
  obtain ⟨r', q', hon', hq'⟩ := hf r q hon hq
  refine ⟨r', q', ?_, hq.trans hq'⟩
  rw [← hon']
  unfold Host.guarded
  rw [on_tryCatch, on_tryCatch, on_bind, hon]

end Minds

namespace Sole

variable (h : p.Sole) (ha : p.hostAgent = some a)

include h ha

/-- What is asked of the agent or of its store amounts to an operation. -/
theorem asks {free : Option AgentId} {post : α → Program → Prop} (op : Operation)
    (hgo : Goes none free p x p post) (hafter : op.after p = (x.on p).2) (hfits : op.Fits p)
    (hlicensed : op.Licensed (.living p)) (hlocal : op.Local) (hfair : op.Fair E) :
    ∃ r q, x.on p = (.ok r, q) ∧ Minded E (op.entered E) p q ∧ Follows none free p q ∧ post r q := by
  have hends := hgo.here
  have hburied : Buried p (op.after p) := ((buried_frame p).operation op hlicensed hlocal p (.refl p)).left
  have hreturns := (op.returns h.rest h.calm hfits).1
  unfold Ends at hends
  rcases hon : x.on p with ⟨e | r, q⟩
  · rw [hon] at hends
    exact absurd h.calm hends.1.2.2
  · rw [hon] at hends hafter
    rw [hafter] at hburied hreturns
    obtain ⟨⟨hq, hpost⟩, -⟩ := hends
    refine ⟨r, q, rfl, ?_, hq, hpost⟩
    exact
      { sole :=
          { rest := h.rest.follows hq
            calm := hq.calm.2 h.calm
            alone := fun b hb => by
              rw [hburied.host]
              exact h.alone b (hq.alive b ▸ hb)
            alive := fun b hb => by
              rw [hq.alive]
              exact h.alive b (hburied.host ▸ hb)
            home := fun b hb => by
              rw [hq.store]
              exact h.home b (hburied.host ▸ hb)
            watcher := fun b hb => by
              rw [hq.watcher]
              exact h.watcher b (hburied.host ▸ hb)
            fresh := fun hb => by
              rw [hburied.host, ha] at hb
              cases hb }
        bygone := .of_buried hburied hq.size
        modest := hq.modest.1
        accounts := fun hmodest hE => by
          have hbooks := op.discreet_books h.rest h.calm (h.discreet (hq.modest.1 hmodest)) hE hfits hfair
          exact ((ends_of_on hreturns).1 hbooks).1
        host := fun b hb => hburied.host.trans hb
        tamed := hq.modest.2 }

end Sole

theorem Sole.of_new {b : AgentId} {sampler : Sampler} {n : Nat} (hrest : p.AtRest) (hcalm : p.Calm)
    (hhost : p.hostAgent = some b)
    (hrow : p.agents b = ⟨0, true, n, .fresh, none, false, sampler, 0, 0, 0⟩)
    (hothers : ∀ c, c ≠ b → (p.agents c).alive = false)
    (hwatcher : (p.stores 0).hook.watcher = some (.agent b)) : p.Sole where
  rest := hrest
  calm := hcalm
  alone c hc := by
    by_cases hcb : c = b
    · rw [hcb, hhost]
    · rw [hothers c hcb] at hc
      cases hc
  alive c hc := by
    obtain rfl : b = c := Option.some.inj (hhost.symm.trans hc)
    rw [hrow]
  home c hc := by
    obtain rfl : b = c := Option.some.inj (hhost.symm.trans hc)
    rw [hrow]
  watcher c hc := by
    obtain rfl : b = c := Option.some.inj (hhost.symm.trans hc)
    exact hwatcher
  fresh hc := by
    rw [hhost] at hc
    cases hc

end Program

def Sampler.Calm (sampler : Sampler) : Prop := ∀ script, sampler = .scripted script → script.Calm

/-- No call to the sampler changes global tags. -/
def Sampler.Modest (sampler : Sampler) : Prop := ∀ script, sampler = .scripted script → script.Modest

namespace Program

variable {α β : Type} {p q r : Program} {a : AgentId} {s : StoreId} {sampler : Sampler}
  {E U V : Ledger} {x : Act α}

section Joined

theorem joined_scripts {P : Script → Prop} (hp : ∀ b script, (p.agents b).sampler = .scripted script → P script)
    (hs : ∀ script, sampler = .scripted script → P script) :
    ∀ b script, ((p.joined s sampler).agents b).sampler = .scripted script → P script := by
  intro b script hb
  by_cases hnew : b = p.agents.size
  · rw [hnew, joined_new] at hb
    exact hs script hb
  · rw [joined_old hnew] at hb
    exact hp b script hb

theorem replaced_scripts {P : Script → Prop} (hp : ∀ b script, (p.agents b).sampler = .scripted script → P script)
    (hs : ∀ script, sampler = .scripted script → P script) :
    ∀ b script, ((p.replaced a sampler).agents b).sampler = .scripted script → P script := by
  intro b script hb
  unfold replaced at hb
  rw [gone_field _ a b Agent.sampler fun _ => rfl] at hb
  exact joined_scripts hp hs b script hb

theorem joined_bygone : Bygone p (p.joined s sampler) where
  size := Nat.le_of_lt (Nat.lt_of_lt_of_eq (Nat.lt_succ_self _) (Table.size_push _ _).symm)
  rows _ hb _ := ⟨joined_old (Nat.ne_of_lt hb), rfl⟩

theorem joined_accounts (hE : Accounts E p) : Accounts E (p.joined s sampler) := by
  have hhost : Accounts E { p with hostAgent := some p.agents.size } :=
    hE.congr (fun _ => rfl) (fun _ => rfl) (fun _ => rfl) fun _ => rfl
  exact housed_accounts hhost

theorem joined_watcher : ((p.joined s sampler).stores s).hook.watcher = some (.agent p.agents.size) := by
  unfold joined
  rw [housed_stores, if_pos rfl]

end Joined

def furnished (p : Program) (installed : Bool) (notes : List (ThreadId × Log.Event)) : Program :=
  { p with
    stores := p.stores.push ⟨.empty, ⟨p.generation, none⟩⟩
    handlerInstalled := installed
    notes := notes }

theorem furnished_rest {installed : Bool} {notes : List (ThreadId × Log.Event)} (hp : p.AtRest) :
    (p.furnished installed notes).AtRest :=
  hp.newStore.same ⟨rfl, rfl, rfl, rfl, fun _ => rfl⟩ fun _ => .inl rfl

theorem furnished_accounts {installed : Bool} {notes : List (ThreadId × Log.Event)} (hE : Accounts E p) :
    Accounts E (p.furnished installed notes) :=
  hE.of_running (newStore_tagsAt p) fun _ _ => rfl

/-- The first call makes a store and an agent. -/
theorem hosted_first (hhost : p.hostAgent = none) (hsize : p.stores.size = 0) : ∃ installed notes,
    hosted.on p = (.ok p.agents.size, (p.furnished installed notes).joined 0 .idle) := by
  have hget : (get : Act Program).on p = (.ok p, p) := rfl
  have hstore : newStore.on p = (.ok 0, { p with stores := p.stores.push ⟨.empty, ⟨p.generation, none⟩⟩ }) := by
    rw [← hsize]
    rfl
  obtain ⟨installed, notes, hon⟩ :=
    newAgentOn_on { p with stores := p.stores.push ⟨.empty, ⟨p.generation, none⟩⟩ } 0 .idle
  refine ⟨installed, notes, ?_⟩
  unfold Program.hosted newAgent
  rw [on_bind, hget]
  dsimp only
  rw [hhost, on_bind, on_bind, hstore]
  dsimp only
  rw [hon]
  rfl

theorem Sole.hosted (h : p.Sole) :
    ∃ a q, hosted.on p = (.ok a, q) ∧ Minded E E p q ∧ q.hostAgent = some a := by
  cases hhost : p.hostAgent with
  | some a =>
    have hget : (get : Act Program).on p = (.ok p, p) := rfl
    refine ⟨a, p, ?_, .refl h, hhost⟩
    unfold Program.hosted
    rw [on_bind, hget]
    dsimp only
    rw [hhost]
    rfl
  | none =>
    obtain ⟨installed, notes, hon⟩ := hosted_first hhost (h.fresh hhost)
    refine ⟨_, _, hon, ?_, rfl⟩
    have hdead : ∀ b, (p.agents b).alive = false := fun b => by
      by_contra hb
      have halone := h.alone b (by simpa using hb)
      rw [hhost] at halone
      cases halone
    have hbygone : Bygone (p.furnished installed notes) ((p.furnished installed notes).joined 0 .idle) :=
      joined_bygone
    exact
      { sole := .of_new (joined_rest (furnished_rest h.rest)) (joined_scripts h.calm fun _ h => by cases h) rfl
          joined_new (fun c hc => by rw [joined_old hc]; exact hdead c) joined_watcher
        bygone := ⟨hbygone.size, hbygone.rows⟩
        modest := joined_staffed.modest
        accounts := fun _ hE => joined_accounts (furnished_accounts hE)
        host := fun a ha => by
          rw [hhost] at ha
          cases ha
        tamed := fun hp => joined_scripts hp fun _ h => by cases h }

theorem Sole.current (h : p.Sole) :
    ∃ a q, current.on p = (.ok a, q) ∧ Minded E E p q ∧ q.hostAgent = some a ∧ q.Abreast a := by
  obtain ⟨a, q, hon, hq, ha⟩ := h.hosted (E := E)
  have halive := hq.sole.alive a ha
  have hgo := tellAgent_goes hq.sole.rest.sound halive (hq.sole.rest.unlocked a)
  have hasks := hq.sole.asks (E := E) ha (.handleFork a) hgo rfl halive halive trivial trivial
  obtain ⟨_, r, hon', hr, -, hab⟩ := hasks
  refine ⟨a, r, ?_, hq.trans hr, hr.host a ha, hab⟩
  unfold Program.current
  rw [on_bind, hon]
  dsimp only
  rw [on_bind, hon']
  rfl

theorem callStore_eq : Host.callStore = current >>= storeOf := by
  unfold Host.callStore current tellAgent
  simp only [bind_assoc, pure_bind]

theorem storeOf_abreast (h : p.Abreast a) : (storeOf a).on p = (.ok (p.agents a).store, p) := by
  unfold storeOf
  rw [on_bind, teller.abreast h]
  rfl

theorem callStore_on (h : current.on p = (.ok a, q)) (ha : q.Abreast a) :
    Host.callStore.on p = (.ok (q.agents a).store, q) := by
  rw [callStore_eq, on_bind, h]
  exact storeOf_abreast ha

namespace Minds

theorem of_hosted (h : p.Sole) {f : AgentId → Act α}
    (hf : ∀ a q, q.Sole → q.hostAgent = some a → Minds E U (f a) q) : Minds E U (hosted >>= f) p := by
  obtain ⟨a, q, hon, hq, ha⟩ := h.hosted (E := E)
  obtain ⟨r, q', hon', hq'⟩ := hf a q hq.sole ha
  refine ⟨r, q', ?_, hq.trans hq'⟩
  rw [on_bind, hon]
  exact hon'

theorem of_callStore (h : p.Sole) {f : StoreId → Act α}
    (hf : ∀ a q, q.Sole → q.hostAgent = some a → Minds E U (f 0) q) :
    Minds E U (Host.callStore >>= f) p := by
  obtain ⟨a, q, hon, hq, ha, hab⟩ := h.current (E := E)
  obtain ⟨r, q', hon', hq'⟩ := hf a q hq.sole ha
  refine ⟨r, q', ?_, hq.trans hq'⟩
  rw [on_bind, callStore_on hon hab, hq.sole.home a ha]
  exact hon'

theorem of_tag (h : p.Sole) {key value : Host.HostText} {f : Tag → Act Bool}
    (hnone : Host.tagOf key value = none → U = E)
    (hf : ∀ t q, Host.tagOf key value = some t → q.Sole → Minds E U (f t) q) :
    Minds E U (Host.guarded false (do
      match ← Host.requiredTag key value with
      | none => pure false
      | some t => f t)) p := by
  cases ht : Host.tagOf key value with
  | none =>
    obtain ⟨notes, hon⟩ := Host.call_refused (p := p) (f := f) ht
    refine ⟨false, _, hon, ?_⟩
    rw [hnone ht]
    exact .annotate h notes
  | some t =>
    obtain ⟨r, q, hon, hq⟩ := hf t p ht h
    refine guarded ⟨r, q, ?_, hq⟩ false
    rw [on_bind, Host.requiredTag_of_tag ht]
    exact hon

theorem of_result {ε : Type} {y : Act (Except ε Unit)} {f : Except ε Unit → Act Bool} (hy : Minds E U y p)
    (hok : f (.ok ()) = pure true) (herror : ∀ e, ∃ event, f (.error e) = Program.note event >>= fun _ => pure false) :
    Minds E U (y >>= f) p := by
  refine .bind hy fun result q _ hq => ?_
  cases result with
  | ok _ =>
    rw [hok]
    exact .pure hq.sole true
  | error e =>
    obtain ⟨event, he⟩ := herror e
    rw [he]
    exact .bind (.note hq.sole event) fun _ r _ hr => .pure hr.sole false

theorem of_settings (h : p.Sole) {vs : Environment.Variables} {layer : Layer} {f : Settings → Act Bool}
    (hf : ∀ c q, q.Sole → Minds E E (f c) q) :
    Minds E E (Host.guarded false (Host.settingsFor vs layer >>= f)) p := by
  unfold Host.settingsFor
  cases callerSettings vs layer with
  | error b => exact ⟨false, p, rfl, .refl h⟩
  | ok n => exact .guarded (.bind (.noting h n) fun c q _ hq => hf c q hq.sole) false

theorem threadOf (h : p.Sole) (thread : UInt64) : Minds E E (Host.threadOf thread) p := by
  obtain ⟨q, hon, hq, -⟩ := threadOf_on p thread
  exact ⟨_, q, hon, .turned h hq⟩

end Minds

namespace Sole

variable (h : p.Sole) (ha : p.hostAgent = some a)

include h ha

theorem entry (op : Operation) (hx : EntryPoint a 0 x) (hafter : op.after p = (x.on p).2) (hfits : op.Fits p)
    (hlicensed : op.Licensed (.living p)) (hlocal : op.Local) (hfair : op.Fair E) : Minds E (op.entered E) x p := by
  have hgo := hx.goes h.rest.sound (h.alive a ha) (h.rest.unlocked a)
  obtain ⟨r, q, hon, hq, -⟩ := h.asks ha op hgo hafter hfits hlicensed hlocal hfair
  exact ⟨r, q, hon, hq⟩

theorem startAgent (c : Settings) : Minds E E (startAgent a c) p :=
  h.entry ha (.start a c) (.start c) (on_discard_snd _) (h.alive a ha) (h.alive a ha) trivial trivial

theorem stopAgent : Minds E E (stopAgent a) p :=
  h.entry ha (.stop a) .stop (on_discard_snd _) (h.alive a ha) (h.alive a ha) trivial trivial

theorem addTag (c : ContextId) (t : Tag) : Minds E E (addTag 0 c t) p :=
  h.entry ha (.addTags 0 c [t]) (.addTag c t) (on_discard_snd _) trivial trivial trivial trivial

theorem removeTag (c : ContextId) (t : Tag) : Minds E E (removeTag 0 c t) p := by
  refine h.entry ha (.removeTags 0 c [t]) (.removeTag c t) ?_ trivial trivial trivial trivial
  refine (on_discard_snd _).trans ?_
  unfold Program.removeTag
  rw [on_bind]
  rcases (Program.removeTags 0 c [t]).on p with ⟨r | r, q⟩ <;> rfl

theorem addGlobal (t : Tag) : Minds E ((Operation.addGlobal 0 t).entered E) (addGlobal 0 t) p :=
  h.entry ha (.addGlobal 0 t) (.addGlobal t) (on_discard_snd _) trivial trivial trivial trivial

theorem removeGlobal (t : Tag) (ht : t ∈ E 0) :
    Minds E ((Operation.removeGlobal 0 t).entered E) (removeGlobal 0 t) p :=
  h.entry ha (.removeGlobal 0 t) (.removeGlobal t) (on_discard_snd _) trivial trivial trivial ht

end Sole

namespace Sole

variable (h : p.Sole)

include h

theorem start (options : Option Host.Options) (vs : Environment.Variables) :
    Minds E E (Host.start options vs) p := by
  unfold Host.start
  cases options
  -- Only where the settings of the caller come from makes a difference.
  all_goals refine .guarded_bind ?_ fun layer q _ hq => .of_settings hq.sole fun c r hr =>
    .of_hosted hr fun a t ht ha => .of_result (ht.startAgent ha c) rfl fun _ => ⟨_, rfl⟩
  case none => exact .pure h _
  case some o => exact .noting h o.layer

theorem stop : Minds E E Host.stop p :=
  .guarded (.of_hosted h fun _ _ hq ha => .of_result (hq.stopAgent ha) rfl fun _ => ⟨_, rfl⟩) false

theorem thread (k : Host.ThreadCall) : Minds E E k.perform p := by
  cases k with
  | add thread key value =>
    refine .of_tag h (fun _ => rfl) fun t q _ hq => .of_callStore hq fun a r hr ha => ?_
    refine .bind (.threadOf hr thread) fun c u _ hu => ?_
    exact .of_result (hu.sole.addTag (hu.host a ha) c t) rfl fun _ => ⟨_, rfl⟩
  | remove thread key value =>
    refine .of_tag h (fun _ => rfl) fun t q _ hq => .of_callStore hq fun a r hr ha => ?_
    exact .bind (.threadOf hr thread) fun c u _ hu => hu.sole.removeTag (hu.host a ha) c t

end Sole

/-- An agent that has seen every fork does nothing when its store tells it, so only the store notices. -/
theorem Watches.looked (h : Watches a 0 p) : Looked 0 p (p.mark 0) where
  on := checkStore_watches teller h
  aware := by simp [Aware]
  contexts := by simp
  peaceful hp := by
    obtain ⟨q, hq⟩ := Undisturbed.look (s := 0) (.inr hp)
    obtain rfl : p.mark 0 = q := congrArg Prod.snd ((checkStore_watches teller h).symm.trans hq.on)
    exact hq.peaceful hp
  still haware := mark_of_seen haware (lt_size_of_watcher h.watcher)

/-- What a call about a thread does: the tags of that thread's context in the first store change as the call
asks, and neither other tags nor agents do. -/
structure Attached (k : Host.ThreadCall) (p q : Program) : Prop where
  tags : q.tagsOn 0 = Function.update (p.tagsOn 0) (k.about p) (k.effect (p.tagsOn 0 (k.about p)))
  globals : (q.stores 0).tags.globals = (p.stores 0).tags.globals
  others : ∀ s, s ≠ 0 → q.stores s = p.stores s
  agents : q.agents = p.agents
  calls : q.calls = p.calls

theorem Attached.annotate {k : Host.ThreadCall} (h : Attached k p q) (notes : List (ThreadId × Log.Event)) :
    Attached k p (q.annotate notes) := ⟨h.tags, h.globals, h.others, h.agents, h.calls⟩

theorem Retagged.attached {k : Host.ThreadCall} {u : Use} {v : Program}
    (hr : Retagged 0 (u.leaves ((v.mark 0).stores 0).tags) (v.mark 0) r) (hturn : Turned p v) (hu : u.Modest)
    (htags : (u.leaves (p.stores 0).tags).contexts.tagsOf =
      Function.update (p.tagsOn 0) (k.about p) (k.effect (p.tagsOn 0 (k.about p)))) : Attached k p r := by
  obtain ⟨threads, thread, next, rfl⟩ := hturn
  have hsame : ∀ s, (Program.mark { p with threads := threads, thread := thread, nextContext := next } 0).stores s =
      (p.mark 0).stores s := fun _ => rfl
  have hstore : ((p.mark 0).stores 0).tags = (p.stores 0).tags := by simp
  rw [hsame, hstore] at hr
  refine ⟨?_, ?_, fun s hs => ?_, hr.same.agents, hr.same.calls⟩
  · unfold tagsOn
    rw [hr.tags]
    exact htags
  · rw [hr.tags, hu.globals]
  · rw [hr.others s hs, hsame, mark_stores, if_neg hs]

/-- A call about a thread takes its store from the agent that has decided about forks, so that is the first
one. -/
theorem Sole.attaches (h : q.Sole) (hon : Program.current.on p = (.ok a, q)) (ha : q.hostAgent = some a)
    (hab : q.Abreast a) (k : Host.ThreadCall) (hk : k.tag ≠ none) :
    ∃ answer r, k.perform.on p = (.ok answer, r) ∧ Attached k q r := by
  have hstore : Host.callStore.on p = (.ok 0, q) := h.home a ha ▸ callStore_on hon hab
  have hlooked : ∀ v, Turned q v → Looked 0 v (v.mark 0) := by
    rintro _ ⟨threads, thread, next, rfl⟩
    exact Watches.looked ⟨hab, h.watcher a ha, h.home a ha⟩
  obtain ⟨t, ht⟩ := Option.ne_none_iff_exists'.1 hk
  cases k with
  | add thread key value =>
    change Host.tagOf key value = some t at ht
    obtain ⟨v, hcontext, hturn, -⟩ := threadOf_on q thread
    obtain ⟨result, r, hadd, hr⟩ := (hlooked v hturn).addTag (q.hostContext thread) t
    have hattached : Attached (.add thread key value) q r := by
      refine hr.attached hturn trivial ?_
      rw [Use.tagsOf_leaves_addTag]
      simp only [Host.ThreadCall.effect, ht]
      rfl
    cases result with
    | ok _ => exact ⟨true, r, Host.call_on ht hstore hcontext (by rw [on_bind, hadd]; rfl), hattached⟩
    | error e =>
      exact ⟨false, _, Host.call_on ht hstore hcontext (by rw [on_bind, hadd]; rfl), hattached.annotate _⟩
  | remove thread key value =>
    change Host.tagOf key value = some t at ht
    obtain ⟨v, hcontext, hturn, -⟩ := threadOf_on q thread
    obtain ⟨found, r, hremove, hr⟩ := (hlooked v hturn).removeTag (q.hostContext thread) t
    refine ⟨found, r, Host.call_on ht hstore hcontext hremove, hr.attached hturn trivial ?_⟩
    rw [Use.tagsOf_leaves_removeTag]
    simp only [Host.ThreadCall.effect, ht]
    rfl

structure Succeeded (a : AgentId) (sampler : Sampler) (p q : Program) : Prop where
  host : q.hostAgent = some p.agents.size
  new : q.agents p.agents.size = ⟨0, true, p.generation, .fresh, none, false, sampler, 0, 0, 0⟩
  old : q.agents a = { p.agents a with alive := false }
  watcher : (q.stores 0).hook.watcher = some (.agent p.agents.size)
  tags : ∀ s, (q.stores s).tags = (p.stores s).tags
  calls : q.calls = p.calls

/-- What comes of registering a sampler in the place of an agent that has decided about forks. -/
inductive Registered (a : AgentId) (sampler : Sampler) (p : Program) :
    Except Halt (Except AgentError Unit) × Program → Prop
  | refused (hrun : (p.agents a).phase = .running) :
    Registered a sampler p (.ok (.error .alreadyRunning), p)
  | accepted {q : Program} (hrun : (p.agents a).phase ≠ .running) (h : Succeeded a sampler p q) :
    Registered a sampler p (.ok (.ok ()), q)

namespace Sole

variable (h : p.Sole) (ha : p.hostAgent = some a)

include h ha

theorem replaced_succeeds (sampler : Sampler) : Succeeded a sampler p (p.replaced a sampler) := by
  have hsize := size_of_alive (h.alive a ha)
  have hhome := h.home a ha
  exact
    { host := by
        unfold replaced gone yieldSlot
        split <;> rfl
      new := (replaced_new hsize).trans (by rw [hhome])
      old := replaced_gone hsize
      watcher := by
        rw [replaced_stores, watched_stores, if_pos hhome.symm]
      tags := replaced_tags
      calls := replaced_calls }

theorem replaced_upkeep (hs : sampler.Calm) (hrun : (p.agents a).phase ≠ .running) :
    Upkeep E E p (p.replaced a sampler) := by
  have hsucceeds := h.replaced_succeeds ha sampler
  have hjoined : Bygone p (p.joined (p.agents a).store sampler) := joined_bygone
  have hsize : p.agents.size ≤ (p.replaced a sampler).agents.size := by
    refine Nat.le_trans hjoined.size ?_
    unfold replaced gone
    rw [← yieldSlot_agents (p.joined (p.agents a).store sampler) a]
    exact size_le_amend _ a _
  have hothers : ∀ c, c ≠ p.agents.size → ((p.replaced a sampler).agents c).alive = false := by
    intro c hc
    by_cases hca : c = a
    · rw [hca, hsucceeds.old]
    · rw [replaced_old hca hc]
      by_contra halive
      have halone := (h.alone c (by simpa using halive)).symm.trans ha
      exact hca (Option.some.inj halone)
  exact
    { sole := .of_new (replaced_rest h.rest (size_of_alive (h.alive a ha)) hrun)
        (replaced_scripts h.calm hs) hsucceeds.host hsucceeds.new hothers hsucceeds.watcher
      bygone := ⟨hsize, fun b hb hdead => by
        have hba : b ≠ a := by
          rintro rfl
          rw [h.alive b ha] at hdead
          cases hdead
        refine ⟨replaced_old hba (Nat.ne_of_lt hb), ?_⟩
        unfold callsOf
        rw [hsucceeds.calls]⟩
      modest := replaced_staffed.modest
      accounts := fun _ hE => (Books.refl (joined_accounts hE)).gone.accounts }

theorem relieves (hab : p.Abreast a) (hs : sampler.Calm) :
    Registered a sampler p ((relieve a sampler).on p) ∧ Upkeep E E p ((relieve a sampler).on p).2 ∧
      (sampler.Modest → p.Modest → ((relieve a sampler).on p).2.Modest) := by
  by_cases hrun : (p.agents a).phase = .running
  · rw [relieve_running hrun]
    exact ⟨.refused hrun, .refl h, fun _ => id⟩
  · obtain ⟨installed, notes, notes', hon⟩ :=
      relieve_idle sampler hab (size_of_alive (h.alive a ha)) hrun
    have hbefore : Minded E E p { p with handlerInstalled := installed, notes := notes } :=
      .of_same h rfl ⟨rfl, rfl, rfl, rfl, fun _ => rfl⟩ rfl
    have hreplaced := hbefore.sole.replaced_upkeep (E := E) ha hs hrun
    rw [hon]
    refine ⟨.accepted hrun ?_, (hbefore.toUpkeep.trans hreplaced).trans (Minded.annotate hreplaced.sole _).toUpkeep,
      fun hs hp => replaced_scripts (hbefore.tamed hp) hs⟩
    obtain ⟨hhost, hnew, hold, hwatcher, htags, hcalls⟩ := hbefore.sole.replaced_succeeds ha sampler
    exact ⟨hhost, hnew, hold, hwatcher, htags, hcalls⟩

end Sole

theorem Minded.registers (hq : Minded E E p q) (hs : sampler.Calm) (hon : current.on p = (.ok a, q))
    (ha : q.hostAgent = some a) (hab : q.Abreast a) : Registered a sampler q ((registerSampler sampler).on p) ∧
      Upkeep E E p ((registerSampler sampler).on p).2 ∧
      (sampler.Modest → p.Modest → ((registerSampler sampler).on p).2.Modest) := by
  obtain ⟨hregistered, hupkeep, hmodest⟩ := hq.sole.relieves (E := E) ha hab hs
  rw [registerSampler_eq, on_bind, hon]
  exact ⟨hregistered, hq.toUpkeep.trans hupkeep, fun hs hp => hmodest hs (hq.tamed hp)⟩

end Program
end ProfilingAgent
