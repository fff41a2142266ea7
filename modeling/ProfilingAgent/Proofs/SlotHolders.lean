import ProfilingAgent.Proofs.HostWork
import ProfilingAgent.Proofs.Registration

set_option autoImplicit false

namespace ProfilingAgent

open Act Program

def License.starting (free : Option AgentId) : License where
  start a := some a = free
  join _ := True
  use _ := True
  act _ := True

namespace Program

variable {p q : Program} {a : AgentId} {free : Option AgentId}

def Held (free : Option AgentId) (p : Program) : Prop :=
  ∀ a, p.slot = some a → some a = free ∨ (p.agents a).phase = .running

theorem Held.congr (h : Held free p) (hslot : ∀ a, q.slot = some a → p.slot = some a)
    (hphase : ∀ a, q.slot = some a → (p.agents a).phase = .running → (q.agents a).phase = .running) :
    Held free q := fun a ha => (h a (hslot a ha)).imp_right (hphase a ha)

theorem Held.amend (h : Held free p) {f : Agent → Agent} (hf : some a = free ∨ ∀ x, (f x).phase = x.phase) :
    Held free (p.amend a f) := by
  intro b hb
  rcases hf with ha | hf
  · by_cases hba : b = a
    · exact .inl (hba ▸ ha)
    · rw [amend_of_ne _ _ _ _ hba]
      exact h b hb
  · rw [amend_field p a b f Agent.phase (hf _)]
    exact h b hb

theorem held_frame (free : Option AgentId) : StepFrame (.starting free) (Held free) where
  annotate _ h := h
  mark _ h := h
  count _ h := h
  granted ha _ := fun _ hb => .inl (hb ▸ ha)
  yielded b h := by
    refine h.congr (fun c hc => ((yieldSlot_slot _ b c).1 hc).1) fun c _ hrun => ?_
    rw [yieldSlot_agents]
    exact hrun
  amend b f _ hf h := h.amend (.inr fun x => (hf x).2.2)
  prepared ha h := h.amend (.inl ha)
  stopped {q} b _ h := by
    -- Whoever still has the slot is not the one that was stopped.
    refine h.congr (fun c hc => ((yieldSlot_slot _ b c).1 hc).1) fun c hc hrun => ?_
    rw [yieldSlot_agents, amend_of_ne _ _ _ _ ((yieldSlot_slot _ b c).1 hc).2]
    exact hrun
  adopt f ha _ h := h.amend (.inl ha)
  call _ _ _ h := h
  globals _ _ h := h
  retag _ _ h := h
  uses _ _ := .inr fun _ => trivial
  install _ h := h
  store h := h
  watched _ _ h := h
  housed {q} s sampler _ h := by
    refine h.congr (fun _ hc => hc) fun c _ hrun => ?_
    have hold : c ≠ q.agents.size := by
      rintro rfl
      rw [agents_size] at hrun
      cases hrun
    rw [housed_old hold]
    exact hrun

end Program

def Move.Fits (p : Program) : Move → Prop
  | operate op => op.Fits p
  | register _ => ∀ a, p.hostAgent = some a → (p.agents a).alive = true
  | _ => True

/-- The programs that moves lead to that all came to their end. From rest only a panic of a sampler keeps
a move from it. -/
inductive Unbroken : Program → Prop
  | start (pid : UInt32) (handler : Bool) : Unbroken (.start pid handler)
  | move {p q : Program} (h : Unbroken p) (m : Move) (hfits : m.Fits p)
    (hon : m.perform.on p = (.ok (), q)) : Unbroken q

namespace Program

variable {p q : Program} {a : AgentId} {free : Option AgentId}

theorem Turned.held (h : Turned p q) (hp : Held free p) : Held free q := by
  obtain ⟨threads, thread, next, rfl⟩ := h
  exact hp

theorem enter_held (s : StoreId) (provider : Provider) (tags : List Tag) :
    Keeps (Held none) (enter s provider tags) := by
  refine .bind (fun p hp => ?_) fun c => .bind ((held_frame none).addTags (held_frame none).tellAgent
    trivial c tags) fun r => ?_
  · obtain ⟨c, q, hon, hq, -⟩ := currentContext_turned (p := p) provider
    exact (ends_of_on hon).2 (hq.held hp)
  · cases r with
    | error e => exact .pure _
    | ok _ => exact .bind ((held_frame none).note _) fun _ => .pure _

theorem exit_held (x : Scope) : Keeps (Held none) (exit x) :=
  .bind (.discard ((held_frame none).removeTags (held_frame none).tellAgent trivial x.context x.tags))
    fun _ => (held_frame none).note _

/-- A start that comes to its end leaves the agent with the slot only if it runs. -/
theorem started_held {c : Settings} (hp : p.AtRest) (hheld : Held none p)
    (halive : (p.agents a).alive = true) :
    Ends (startAgent a c) p (fun _ q => Held none q) fun _ _ => True := by
  have hstart : Held (some a) p := fun b hb => .inr ((hheld b hb).resolve_left (by simp))
  refine Ends.mono (Ends.and (startAgent_goes hp.sound halive (hp.unlocked a))
    ((held_frame (some a)).startAgent rfl c p hstart)) ?_ fun _ _ _ => trivial
  rintro r q ⟨⟨-, -, q', -, -, -, hend⟩, hq⟩ b hb
  rcases hq b hb with hba | hrun
  · cases hba
    exact .inr (hend.holder hb)
  · exact .inr hrun

end Program

theorem Operation.held {p : Program} (op : Operation) (hp : p.AtRest) (hheld : Held none p)
    (hfits : op.Fits p) : Ends op.perform p (fun _ q => Held none q) fun _ _ => True := by
  have started : ∀ {a : AgentId} {q : Program} (c : Settings), q.AtRest → Held none q →
      (q.agents a).alive = true → Ends (discard (startAgent a c)) q (fun _ q => Held none q) fun _ _ => True := by
    intro a q c hq hheld ha
    rw [ends_discard]
    exact started_held hq hheld ha
  have other : op.Licensed (.starting none) → op.Local →
      Ends op.perform p (fun _ q => Held none q) fun _ _ => True := fun hlicensed hlocal =>
    Ends.mono ((held_frame none).operation op hlicensed hlocal p hheld) (fun _ _ h => h) fun _ _ _ => trivial
  cases op with
  | start a c => exact started c hp hheld hfits
  | reconfigure a c =>
    have hp' := hp.follows ((Follows.refl hp.sound).annotate
      ((p.thread, .say .info "Reconfiguring agent") :: p.notes))
    unfold perform Program.reconfigure
    rw [ends_discard, ends_bind, ends_say]
    exact started_held hp' hheld hfits
  | fork => exact hheld
  | child => exact hheld
  | _ => exact other trivial trivial

theorem Move.keeps_held {p q : Program} (m : Move) (hp : p.AtRest) (hheld : Held none p)
    (hfits : m.Fits p) (hon : m.perform.on p = (.ok (), q)) : q.AtRest ∧ Held none q := by
  suffices h : Ends m.perform p (fun _ q => q.AtRest ∧ Held none q) fun _ _ => True from
    (ends_of_on hon).1 h
  have both : ∀ {halted : Halt → Program → Prop}, Ends m.perform p (fun _ q => q.AtRest) halted →
      Ends m.perform p (fun _ q => Held none q) (fun _ _ => True) →
      Ends m.perform p (fun _ q => q.AtRest ∧ Held none q) fun _ _ => True := fun hrest hheld =>
    Ends.mono (Ends.and hrest hheld) (fun _ _ h => h) fun _ _ _ => trivial
  have kept : ∀ {x : Act Unit}, Keeps (Held none) x → Ends x p (fun _ q => Held none q) fun _ _ => True :=
    fun hx => Ends.mono (hx p hheld) (fun _ _ h => h) fun _ _ _ => trivial
  cases m with
  | operate op =>
    exact both (Ends.mono (op.rests hp hfits) (fun _ _ h => h.1) fun _ _ h => h) (op.held hp hheld hfits)
  | register sampler =>
    refine both ((ends_discard ..).2 (registerSampler_rests hp hfits)) (kept (.discard ?_))
    exact (held_frame none).registerSampler (fun _ => trivial) trivial trivial fun _ h => h
  | enter s provider tags =>
    exact both ((ends_discard ..).2 (Bides.enter s provider tags p hp)) (kept (.discard (enter_held s provider tags)))
  | exit x => exact both (Bides.exit x p hp) (kept (exit_held x))
  | turn threads thread next =>
    have hturned : Turned p { p with threads := threads, thread := thread, nextContext := next } :=
      ⟨threads, thread, next, rfl⟩
    exact ⟨hturned.atRest hp, hturned.held hheld⟩

theorem Unbroken.keeps_held {p : Program} (h : Unbroken p) : p.AtRest ∧ Held none p := by
  induction h with
  | start pid handler => exact ⟨start_atRest pid handler, fun _ hs => by cases hs⟩
  | move _ m hfits hon ih => exact m.keeps_held ih.1 ih.2 hfits hon

end ProfilingAgent
