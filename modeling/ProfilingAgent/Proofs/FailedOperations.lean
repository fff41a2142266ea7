import ProfilingAgent.Proofs.RefusedTags
import ProfilingAgent.Proofs.SlotHolders

set_option autoImplicit false

namespace ProfilingAgent

open Act Program

namespace Program

variable {α β : Type} {p q r : Program} {a : AgentId} {s : StoreId} {c : Settings}

def Says (R : α → Prop) (x : Act α) : Prop := ∀ p, Ends x p (fun r _ => R r) fun _ _ => True

namespace Says

theorem pure {R : α → Prop} {r : α} (h : R r) : Says R (pure r) := fun _ => h

theorem bind {Q : α → Prop} {R : β → Prop} {x : Act α} {f : α → Act β} (hx : Says Q x)
    (hf : ∀ r, Q r → Says R (f r)) : Says R (x >>= f) := by
  intro p
  rw [ends_bind]
  exact Ends.mono (hx p) (fun r q hr => hf r hr q) fun _ _ h => h

theorem any (x : Act α) : Says (fun _ => True) x := fun p => by
  unfold Ends
  split <;> trivial

theorem next {R : β → Prop} {x : Act α} {f : α → Act β} (hf : ∀ r, Says R (f r)) : Says R (x >>= f) :=
  (any x).bind fun r _ => hf r

theorem mono {Q R : α → Prop} {x : Act α} (h : Says Q x) (hqr : ∀ r, Q r → R r) : Says R x :=
  fun p => Ends.mono (h p) (fun r _ => hqr r) fun _ _ h => h

theorem protect {R : α → Prop} {x : Act α} {after : Act Unit} (h : Says R x) :
    Says R (protect x after) := by
  intro p
  rw [ends_protect]
  refine Ends.mono (h p) (fun r q hr => ?_) fun _ q _ => any after q
  exact Ends.mono (any after q) (fun _ _ _ => hr) fun _ _ h => h

theorem locking {R : α → Prop} {x : Act α} (h : Says R x) : Says R (locking a x) := by
  unfold Program.locking
  have locked : Says R (do
      Program.updateAgent a fun x => { x with locked := true }
      ProfilingAgent.protect x (Program.updateAgent a fun x => { x with locked := false })) :=
    .next fun _ => h.protect
  refine .next fun row => ?_
  split
  · exact .next fun _ => locked
  · exact locked

theorem exchange {old new : List Tag} (hnew : ∀ t ∈ new, t.isValid = true) :
    Says (· = .ok ()) (replaceGlobalsWith tellAgent s old new) := by
  unfold replaceGlobalsWith Program.revise
  refine .next fun _ => .next fun x => ?_
  have hok : ∃ tags, x.tags.replaceGlobals old new = .ok tags := by
    unfold TagStore.replaceGlobals
    rw [(Tag.checkAll_eq_ok_iff new).2 hnew]
    exact ⟨_, rfl⟩
  obtain ⟨tags, hok⟩ := hok
  dsimp only
  rw [hok]
  exact .next fun _ => .pure rfl

theorem configuredTags (c : Settings) : Says (· = c.validTags) (configuredTags c) := fun _ => rfl

end Says

inductive Tried : Except AgentError Unit → Prop
  | started : Tried (.ok ())
  | failed (m : String) : Tried (.error (.startup m))

theorem Says.launch (a : AgentId) (c : Settings) : Says Tried (launch a c) := by
  refine .next fun _ => .next fun x => (Says.configuredTags c).bind ?_
  rintro _ rfl
  refine (Says.exchange c.isValid_of_mem_validTags).bind ?_
  rintro _ rfl
  refine .next fun started => ?_
  cases started with
  | true => exact .next fun _ => .next fun _ => .pure .started
  | false =>
    refine (Says.exchange (by simp)).bind ?_
    rintro _ rfl
    exact .next fun _ => .next fun _ => .pure (.failed _)

theorem Says.relaunch (a : AgentId) (s : StoreId) (old : List Tag) (c : Settings) :
    Says Tried (relaunch a s old c) := by
  refine (Says.configuredTags c).bind ?_
  rintro _ rfl
  refine (Says.exchange c.isValid_of_mem_validTags).bind ?_
  rintro _ rfl
  refine .next fun started => ?_
  cases started with
  | true => exact .next fun _ => .next fun _ => .pure .started
  | false =>
    refine (Says.exchange (by simp)).bind ?_
    rintro _ rfl
    exact .next fun _ => .next fun _ => .next fun _ => .pure (.failed _)

theorem Says.swap (a : AgentId) (c : Settings) : Says Tried (swap a c) := by
  refine .next fun x => .next fun flushed => ?_
  have last : Says Tried (do
      let old ← previousTags x.settings
      Program.relaunch a x.store old c) := .next fun old => .relaunch a x.store old c
  cases flushed with
  | true => exact last
  | false => exact .next fun _ => last

theorem Says.startAgent (a : AgentId) (c : Settings) :
    Says (fun r => Tried r ∨ r = .error .alreadyRunning) (startAgent a c) := by
  refine .next fun _ => Says.locking (.next fun x => ?_)
  split
  · split
    · exact .next fun _ => .pure (.inl .started)
    · exact (Says.swap a c).mono fun _ => .inl
  · refine .next fun claimed => ?_
    cases claimed with
    | false => exact .pure (.inr rfl)
    | true =>
      change Says _ (if x.phase = .fresh then _ else _)
      split
      · exact .next fun _ => (Says.launch a c).mono fun _ => .inl
      · exact (Says.launch a c).mono fun _ => .inl

theorem Says.stopAgent (a : AgentId) : Says (fun r => r = .ok () ∨ (∃ m, r = .error (.shutdown m)) ∨
    ∃ phase, r = .error (.notRunning phase)) (stopAgent a) := by
  refine .next fun _ => Says.locking (.next fun x => ?_)
  cases x.phase with
  | running =>
    refine .next fun flushed => .next fun _ => ?_
    split
    · exact .next fun _ => .pure (.inl rfl)
    · exact .pure (.inr (.inl ⟨_, rfl⟩))
  | stopped => exact .next fun _ => .pure (.inl rfl)
  | fresh => exact .pure (.inr (.inr ⟨_, rfl⟩))
  | configured => exact .pure (.inr (.inr ⟨_, rfl⟩))

theorem lock_unlock (hl : (p.agents a).locked = false) (hsize : a < p.agents.size) :
    (p.amend a fun x => { x with locked := true }).amend a (fun x => { x with locked := false }) = p := by
  have hrow : (fun x : Agent => { x with locked := false }) (p.agents a) = p.agents a := by
    dsimp only
    rw [← hl]
  have hagents : p.agents.update a (fun x => { x with locked := false }) = p.agents :=
    (congrArg (p.agents.put a) hrow).trans (Table.put_row_self _ hsize)
  rw [amend_amend]
  unfold amend
  dsimp only
  rw [hagents]

theorem startLocked_refused (p : Program) (a : AgentId) (c : Settings) : Ends (startLocked a c) p
    (fun r q => r = .error .alreadyRunning → q = p) fun _ _ => True := by
  have tried : ∀ {x : Act (Except AgentError Unit)} {q}, Says Tried x →
      Ends x q (fun r t => r = .error .alreadyRunning → t = p) fun _ _ => True := by
    intro x q hx
    refine Ends.mono (hx q) (fun r t hr h => ?_) fun _ _ h => h
    rw [h] at hr
    cases hr
  unfold startLocked
  rw [ends_bind, ends_agent]
  split
  · split
    · exact tried (.next fun _ => .pure .started)
    · exact tried (.swap a c)
  · have launched : ∀ q, Ends (do
        if (p.agents a).phase = .fresh then setPhase a .configured
        Program.launch a c) q (fun r t => r = .error .alreadyRunning → t = p) fun _ _ => True := by
      intro q
      refine tried ?_
      split
      · exact .next fun _ => .launch a c
      · exact .launch a c
    unfold startFrom
    rw [ends_bind, ends_claim]
    split
    · exact launched _
    · by_cases hs : p.slot = some a
      · rw [decide_eq_true hs]
        exact launched p
      · rw [decide_eq_false hs]
        exact fun _ => rfl

/-- An agent without a pending fork goes through a transition that leaves everything as it was. -/
theorem transition_refused {body : Act α} {R : α → Prop} (ha : p.Abreast a)
    (hl : (p.agents a).locked = false) (hsize : a < p.agents.size)
    (hbody : ∀ q, Ends body q (fun r t => R r → t = q) fun _ _ => True) :
    Ends (do Program.tellAgent a; Program.locking a body) p (fun r q => R r → q = p) fun _ _ => True := by
  rw [ends_bind, ends_of_on (teller.abreast ha), ends_locking hl]
  refine Ends.mono (hbody _) (fun r t ht hr => ?_) fun _ _ h => h
  rw [ht hr, lock_unlock hl hsize]

theorem stopLocked_refused (p : Program) (a : AgentId) : Ends (stopLocked a) p
    (fun r q => (∃ phase, r = .error (.notRunning phase)) → q = p) fun _ _ => True := by
  unfold stopLocked
  rw [ends_bind, ends_agent]
  have answered : ∀ {x : Act (Except AgentError Unit)},
      Says (fun r => ∀ phase, r ≠ .error (.notRunning phase)) x →
      Ends x p (fun r q => (∃ phase, r = .error (.notRunning phase)) → q = p) fun _ _ => True := by
    intro x hx
    refine Ends.mono (hx p) (fun r t hr h => ?_) fun _ _ h => h
    obtain ⟨phase, h⟩ := h
    exact absurd h (hr phase)
  cases (p.agents a).phase with
  | running =>
    refine answered (.next fun flushed => .next fun _ => ?_)
    split
    · exact .next fun _ => .pure (by simp)
    · exact .pure (by simp)
  | stopped => exact answered (.next fun _ => .pure (by simp))
  | fresh => exact fun _ => rfl
  | configured => exact fun _ => rfl

theorem Still.exchange (h : p.Still s) {old new : List Tag} (hnew : ∀ t ∈ new, t.isValid = true) :
    Ends (replaceGlobalsWith tellAgent s old new) p (fun r q => r = .ok () ∧
      Revised s { (p.stores s).tags with
        globals := (removeBatch old (p.stores s).tags.globals).1 ++ new } p q) fun _ _ => False := by
  have huse : (p.stores s).tags.replaceGlobals old new = .ok { (p.stores s).tags with
      globals := (removeBatch old (p.stores s).tags.globals).1 ++ new } := by
    unfold TagStore.replaceGlobals
    rw [(Tag.checkAll_eq_ok_iff new).2 hnew]
  have hrevised := h.revised (·.replaceGlobals old new)
  rw [huse] at hrevised
  exact hrevised

def QuietStart (p : Program) (a : AgentId) : Prop :=
  ∀ script, (p.agents a).sampler = .scripted script →
    ∀ u ∈ (script.onStart (p.agents a).starts).uses, u = .state

theorem callStart_fails (ha : p.Abreast a) (hquiet : p.QuietStart a) (c : Settings) :
    Ends (callStart tellAgent a c) p (fun b q => b = false →
      ∃ k, q = (p.amend a fun x => { x with starts := x.starts + 1 }).call k) fun _ _ => True := by
  unfold callStart
  rw [ends_bind, ends_agent]
  cases hs : (p.agents a).sampler with
  | idle => exact fun h => by cases h
  | scripted script =>
    simp only [ends_bind, ends_updateAgent, ends_globals, ends_record]
    generalize SamplerCall.start a c _ = k
    have ha' : ((p.amend a fun x => { x with starts := x.starts + 1 }).call k).Abreast a := by
      simpa [Abreast] using ha
    exact Ends.mono (carryOut_quiet teller ha' (hquiet script hs)) (fun _ q hq _ => ⟨k, hq⟩)
      fun _ _ _ => trivial

/-- A start that the sampler fails has counted, and nothing else is left of it. -/
structure Undone (a : AgentId) (p q : Program) : Prop where
  tags : ∀ s, (q.stores s).tags = (p.stores s).tags
  agents : ∃ n, q.agents = p.agents.update a fun x => { x with starts := n }
  slot : q.slot = none

theorem launch_fails (hstill : p.Still (p.agents a).store) (ha : p.Abreast a)
    (hslot : p.slot = some a) (hquiet : p.QuietStart a) (c : Settings) :
    Ends (launch a c) p (fun r q => r ≠ .ok () → Undone a p q) fun _ _ => True := by
  unfold launch
  rw [ends_bind, ends_say, ends_bind, ends_agent, ends_bind, ends_configuredTags, ends_bind]
  generalize (List.map _ c.tagRemarks).reverse ++ _ = notes
  generalize _ :: p.notes = notes'
  have hstill' : ((p.annotate notes').annotate notes).Still (p.agents a).store :=
    hstill.congr rfl (.annotate p notes)
  refine Ends.mono (hstill'.exchange c.isValid_of_mem_validTags) ?_ fun _ _ h => h.elim
  rintro _ q ⟨rfl, hq⟩
  have hagents : q.agents = p.agents := hq.same.agents
  have haq : q.Abreast a := (hq.same.abreast a).2 ha
  have hquiet' : q.QuietStart a := by
    unfold QuietStart
    rw [hagents]
    exact hquiet
  dsimp only
  rw [ends_bind]
  refine Ends.mono (callStart_fails haq hquiet' c) (fun started r hr => ?_) fun _ _ h => h
  cases started with
  | true => exact fun h => absurd rfl h
  | false =>
    obtain ⟨k, rfl⟩ := hr rfl
    rw [if_neg Bool.false_ne_true, ends_bind]
    have haware : ((q.amend a fun x => { x with starts := x.starts + 1 }).call k).Aware
        (p.agents a).store := hq.aware
    refine Ends.mono (Still.exchange (.inl haware) (by simp)) ?_ fun _ _ h => h.elim
    rintro _ t ⟨rfl, ht⟩
    have hback : (removeBatch c.validTags (q.stores (p.agents a).store).tags.globals).1 ++ [] =
        (p.stores (p.agents a).store).tags.globals := by
      rw [hq.tags, List.append_nil]
      exact congrArg Prod.fst (removeBatch_append c.validTags _)
    simp only [ends_bind, ends_release, ends_say, ends_pure]
    refine fun _ => ⟨fun s => ?_, ⟨(p.agents a).starts + 1, ?_⟩, ?_⟩
    · rw [annotate_stores, yieldSlot_stores]
      by_cases hs : s = (p.agents a).store
      · rw [hs, ht.tags]
        exact (congrArg (fun g => { (q.stores (p.agents a).store).tags with globals := g }) hback).trans
          (by rw [hq.tags])
      · exact (ht.others s hs).trans (hq.others s hs)
    · rw [annotate_agents, yieldSlot_agents, ht.same.agents]
      unfold Program.call amend
      dsimp only
      rw [hagents]
      rfl
    · have hslot' : t.slot = some a := ht.same.slot.trans (hq.same.slot.trans hslot)
      unfold yieldSlot
      rw [if_pos hslot']
      rfl

theorem Still.amend (h : p.Still s) {f : Agent → Agent}
    (hf : ∀ x, (f x).alive = x.alive ∧ (f x).seen = x.seen) : (p.amend a f).Still s := by
  refine h.imp_right fun hw b hb halive => ?_
  rw [amend_field p a b f Agent.alive (hf _).1] at halive
  unfold Abreast
  rw [amend_field p a b f Agent.seen (hf _).2]
  exact hw b hb halive

/-- After a start that failed everything is as it was, except that the agent may have been configured
and that the start has counted. -/
structure FailedStart (a : AgentId) (p q : Program) : Prop where
  tags : ∀ s, (q.stores s).tags = (p.stores s).tags
  slot : q.slot = p.slot
  settings : (q.agents a).settings = (p.agents a).settings
  phase : (q.agents a).phase = (p.agents a).phase ∨
    (p.agents a).phase = .fresh ∧ (q.agents a).phase = .configured
  others : ∀ b, b ≠ a → q.agents b = p.agents b

theorem startAgent_fails (ha : p.Abreast a) (hl : (p.agents a).locked = false)
    (hstill : p.Still (p.agents a).store) (hrun : (p.agents a).phase ≠ .running)
    (hslot : p.slot ≠ some a) (hquiet : p.QuietStart a) (c : Settings) : Ends (startAgent a c) p
      (fun r q => (∃ m, r = .error (.startup m)) → FailedStart a p q) fun _ _ => True := by
  have launched : ∀ phase, p.slot = none → (phase = (p.agents a).phase ∨
      (p.agents a).phase = .fresh ∧ phase = .configured) → Ends (launch a c)
        ((p.amend a fun x => { x with locked := true, phase := phase }).give (some a))
        (fun r t => (∃ m, r = .error (.startup m)) →
          FailedStart a p (t.amend a fun x => { x with locked := false })) fun _ _ => True := by
    intro phase hnone hphase
    generalize hq : (p.amend a fun x => { x with locked := true, phase := phase }).give (some a) = q
    have hrow : q.agents a = { p.agents a with locked := true, phase := phase } := by
      rw [← hq]
      exact (amend_agents ..).trans (if_pos rfl)
    have hothers : ∀ b, b ≠ a → q.agents b = p.agents b := fun b hb => by
      rw [← hq]
      exact amend_of_ne p a b _ hb
    have hstores : q.stores = p.stores := hq ▸ rfl
    have hstill' : q.Still (q.agents a).store := by
      rw [hrow, ← hq]
      exact hstill.amend (by simp)
    have ha' : q.Abreast a := by
      unfold Abreast
      rw [hrow, ← hq]
      exact ha
    have hquiet' : q.QuietStart a := by
      unfold QuietStart
      rw [hrow]
      exact hquiet
    refine Ends.mono (launch_fails hstill' ha' (hq ▸ rfl) hquiet' c) (fun r t ht hr => ?_)
      fun _ _ h => h
    obtain ⟨m, rfl⟩ := hr
    obtain ⟨htags, ⟨n, hagents⟩, htslot⟩ := ht (by simp)
    have hta : t.agents a = { q.agents a with starts := n } := by
      rw [hagents, Table.update_row, if_pos rfl]
    exact
      { tags := fun s => (htags s).trans (by rw [hstores])
        slot := htslot.trans hnone.symm
        settings := by simp [hta, hrow]
        phase := by simpa [hta, hrow] using hphase
        others := fun b hb => by
          rw [amend_of_ne _ _ _ _ hb, hagents, Table.update_row, if_neg hb, hothers b hb] }
  unfold startAgent
  rw [ends_bind, ends_of_on (teller.abreast ha), ends_locking hl]
  unfold startLocked
  rw [ends_bind, ends_agent]
  have hrow : (p.amend a fun x => { x with locked := true }).agents a =
      { p.agents a with locked := true } := (amend_agents ..).trans (if_pos rfl)
  rw [hrow, if_neg hrun]
  unfold startFrom
  rw [ends_bind, ends_claim, amend_slot]
  by_cases hnone : p.slot = none
  · rw [if_pos hnone]
    change Ends (if (p.agents a).phase = .fresh then _ else _) _ _ _
    split
    · rename_i hfresh
      rw [ends_bind, ends_setPhase]
      have hamend := amend_amend p a (fun x => { x with locked := true })
        fun x => { x with phase := .configured }
      have hprogram : ((p.amend a fun x => { x with locked := true }).give (some a)).amend a
          (fun x => { x with phase := .configured }) =
          (p.amend a fun x => { x with locked := true, phase := .configured }).give (some a) :=
        congrArg (fun q => q.give (some a)) hamend
      rw [hprogram]
      exact launched .configured hnone (.inr ⟨hfresh, rfl⟩)
    · exact launched (p.agents a).phase hnone (.inl rfl)
  · rw [if_neg hnone, decide_eq_false hslot]
    rintro ⟨m, h⟩
    cases h

/-- No agent has a fork left to decide about. -/
def NonePending (p : Program) : Prop := ∀ a, (p.agents a).alive = true → p.Abreast a

theorem NonePending.still (h : p.NonePending) (s : StoreId) : p.Still s := .inr fun a _ => h a

inductive Initiates (a : AgentId) (c : Settings) : Act (Except AgentError Unit) → Prop
  | start : Initiates a c (startAgent a c)
  | reconfigure : Initiates a c (reconfigure a c)

structure AfterStart (a : AgentId) (p : Program) (r : Except AgentError Unit) (q : Program) : Prop where
  refused : r = .error .alreadyRunning → ∃ notes, q = p.annotate notes
  failed : ∀ m, r = .error (.startup m) → (p.agents a).phase ≠ .running → p.QuietStart a → FailedStart a p q
  free : r ≠ .ok () → q.slot ≠ some a
  untagged : ∀ e, r ≠ .error (.tag e)

theorem startAgent_leaves (hp : p.AtRest) (hheld : Held none p) (hfork : p.NonePending)
    (halive : (p.agents a).alive = true) (c : Settings) :
    Ends (startAgent a c) p (AfterStart a p) fun h _ => Broken p h := by
  have ha : p.Abreast a := hfork a halive
  have hl : (p.agents a).locked = false := hp.unlocked a
  have hrefused := transition_refused ha hl (size_of_alive halive) fun q => startLocked_refused q a c
  have hfailed : Ends (startAgent a c) p (fun r q => (p.agents a).phase ≠ .running → p.QuietStart a →
      (∃ m, r = .error (.startup m)) → FailedStart a p q) fun _ _ => True := by
    by_cases hrun : (p.agents a).phase = .running
    · exact Ends.mono (Says.any _ p) (fun _ _ _ h => absurd hrun h) fun _ _ h => h
    · by_cases hquiet : p.QuietStart a
      · have hslot : p.slot ≠ some a := fun hs => hrun ((hheld a hs).resolve_left (by simp))
        exact Ends.mono (startAgent_fails ha hl (hfork.still _) hrun hslot hquiet c)
          (fun _ _ h _ _ => h) fun _ _ h => h
      · exact Ends.mono (Says.any _ p) (fun _ _ _ _ h => absurd h hquiet) fun _ _ h => h
  have hends := Ends.and (Ends.and hrefused hfailed)
    (Ends.and (startAgent_goes hp.sound halive hl) (Says.startAgent a c p))
  refine Ends.mono hends ?_ fun _ _ h => h.2.1.2
  rintro r q ⟨⟨hq, hq'⟩, ⟨-, -, p', -, -, -, hend⟩, hsays⟩
  exact
    { refused := fun hr => ⟨p.notes, hq hr⟩
      failed := fun m hr hrun hquiet => hq' hrun hquiet ⟨m, hr⟩
      free := fun hr => by
        cases hend with
        | refused hb hslot _ _ =>
          obtain ⟨b, hb, hs⟩ := hb
          rw [hslot, hs]
          exact fun h => hb (Option.some.inj h)
        | running _ _ => exact absurd rfl hr
        | failed _ _ _ hslot => exact hslot
      untagged := fun e hr => by
        rw [hr] at hsays
        rcases hsays with hsays | hsays <;> cases hsays }

theorem AfterStart.before {notes : List (ThreadId × Log.Event)} {result : Except AgentError Unit}
    (h : AfterStart a (p.annotate notes) result q) : AfterStart a p result q where
  refused hr := by
    obtain ⟨notes', rfl⟩ := h.refused hr
    exact ⟨notes', rfl⟩
  failed m hr hrun hquiet := by
    have hq := h.failed m hr hrun hquiet
    exact ⟨hq.tags, hq.slot, hq.settings, hq.phase, hq.others⟩
  free := h.free
  untagged := h.untagged

theorem Initiates.leaves {c : Settings} {x : Act (Except AgentError Unit)} (hx : Initiates a c x)
    (hp : p.AtRest) (hheld : Held none p) (hfork : p.NonePending) (halive : (p.agents a).alive = true) :
    Ends x p (AfterStart a p) fun h _ => Broken p h := by
  cases hx with
  | start => exact startAgent_leaves hp hheld hfork halive c
  | reconfigure =>
    unfold Program.reconfigure
    rw [ends_bind, ends_say]
    generalize _ :: p.notes = notes
    have hp' : (p.annotate notes).AtRest := hp.follows ((Follows.refl hp.sound).annotate notes)
    exact Ends.mono (startAgent_leaves hp' hheld hfork halive c) (fun _ _ h => h.before) fun _ _ h => h

theorem stopAgent_leaves (hp : p.AtRest) (hfork : p.NonePending) (halive : (p.agents a).alive = true) :
    Ends (stopAgent a) p (fun r q => ((∃ phase, r = .error (.notRunning phase)) → q = p) ∧
      ∀ e, r ≠ .error (.tag e)) fun h _ => Broken p h := by
  have hrefused := transition_refused (hfork a halive) (hp.unlocked a) (size_of_alive halive)
    fun q => stopLocked_refused q a
  have hends := Ends.and hrefused (Ends.and (stopAgent_goes hp.sound halive (hp.unlocked a))
    (Says.stopAgent a p))
  refine Ends.mono hends ?_ fun _ _ h => h.2.1.2
  rintro r q ⟨hq, -, hsays⟩
  refine ⟨hq, fun e hr => ?_⟩
  rw [hr] at hsays
  rcases hsays with hsays | ⟨m, hsays⟩ | ⟨phase, hsays⟩ <;> cases hsays

end Program

/-- If no agent has a fork left to decide about, then in a process that no sampler's panic has halted, what
fails leaves everything as it was. A start that is refused calls no sampler. A start that the sampler
fails, without touching its store, leaves all tags in their order, the settings and the slot as they were,
and has at most configured its agent. To stop what does not run changes nothing. Tags are refused only for
a blank key, and the error has the value of the first tag with such a key. No start and no stop ever
answers with such an error, and who was not started does not have the slot. -/
theorem failed_operations_leave_state {p : Program} (hp : Unbroken p) (hfork : p.NonePending) :
    (∀ a, (p.agents a).alive = true → ∀ c x, Initiates a c x →
      Ends x p (AfterStart a p) fun h _ => Broken p h) ∧
    (∀ a, (p.agents a).alive = true →
      Ends (stopAgent a) p (fun r q => ((∃ phase, r = .error (.notRunning phase)) → q = p) ∧
        ∀ e, r ≠ .error (.tag e)) fun h _ => Broken p h) ∧
    (∀ (s : StoreId) (tags : List Tag) {α : Type} (x : Act (Except TagError α)), Attaches s tags x →
      Refuses s tags x p) ∧
    ∀ s provider tags, ∃ d p', (currentContext provider).on p = (.ok d, p') ∧ Turned p p' ∧
      (enter s provider tags).on p = (enterContext s d tags).on p' ∧
      Refuses s tags (enterContext s d tags) p' := by
  obtain ⟨hrest, hheld⟩ := hp.keeps_held
  exact ⟨fun a halive c x hx => hx.leaves hrest hheld hfork halive,
    fun a halive => stopAgent_leaves hrest hfork halive, fun s tags _ x hx => hx.refuses (hfork.still s),
    fun s provider tags => (hfork.still s).refuses_enter provider tags⟩

/-- An agent that fails to start is there, and users have entered the tag that it is to be started with,
and then another one. -/
def Program.entered : Program :=
  (Operation.addGlobal 0 ⟨"zone", "b"⟩).after
    ((Operation.addGlobal 0 ⟨"team", "a"⟩).after (manned (.failing fun _ => true)))

/-- Both tags are still there in their order after the start has failed. -/
theorem failed_operations_leave_state_entered : Unbroken entered ∧ entered.NonePending ∧
    (∃ q, (startAgent 0 (.tagged "team" "a")).on entered =
        (.ok (.error (.startup "sampler failed to start")), q) ∧ FailedStart 0 entered q ∧
      (q.stores 0).tags.globals = [⟨"team", "a"⟩, ⟨"zone", "b"⟩] ∧ q.slot = none) ∧
    (∃ q, (addTags 0 ⟨7⟩ [⟨"team", "a"⟩, ⟨" ", "b"⟩, ⟨"", "c"⟩]).on entered = (.ok (.error (.emptyKey "b")), q) ∧
      Unaltered 0 entered q) := by
  have hmanned : Unbroken (manned (.failing fun _ => true)) :=
    .move (.start 1 false) (.operate (.newAgent 0 (.scripted (.failing fun _ => true)))) trivial rfl
  have hteam : Unbroken ((Operation.addGlobal 0 ⟨"team", "a"⟩).after (manned (.failing fun _ => true))) :=
    .move hmanned (.operate (.addGlobal 0 ⟨"team", "a"⟩)) trivial rfl
  have hentered : Unbroken entered := .move hteam (.operate (.addGlobal 0 ⟨"zone", "b"⟩)) trivial rfl
  have hfork : entered.NonePending := by
    intro a halive
    cases a with
    | zero => rfl
    | succ a => cases halive
  obtain ⟨hstarts, -, hattaches, -⟩ := failed_operations_leave_state hentered hfork
  have hquiet : entered.QuietStart 0 := by
    intro script hs
    cases hs
    exact (Script.failing_quiet _ _).1
  obtain ⟨q, hon⟩ : ∃ q, (startAgent 0 (.tagged "team" "a")).on entered =
      (.ok (.error (.startup "sampler failed to start")), q) := ⟨_, rfl⟩
  have hleft := (ends_of_on hon).1 (hstarts 0 rfl (.tagged "team" "a") _ .start)
  have hfailed := hleft.failed _ rfl (by decide) hquiet
  obtain ⟨r, hon'⟩ : ∃ r, (addTags 0 ⟨7⟩ [⟨"team", "a"⟩, ⟨" ", "b"⟩, ⟨"", "c"⟩]).on entered =
      (.ok (.error (.emptyKey "b")), r) := ⟨_, rfl⟩
  have hrefused := (ends_of_on hon').1 (hattaches 0 _ _ (.addTags ⟨7⟩ _))
  refine ⟨hentered, hfork, ⟨q, hon, hfailed, ?_, hfailed.slot⟩, r, hon', (hrefused _ rfl).1⟩
  rw [hfailed.tags]
  rfl

end ProfilingAgent
