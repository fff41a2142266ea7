import ProfilingAgent.Proofs.GlobalTags

set_option autoImplicit false

namespace ProfilingAgent

open Act Program

namespace Operation

def entered (E : Ledger) : Operation → Ledger
  | addGlobal s t => fun x => if x = s ∧ t.isValid = true then t ::ₘ E x else E x
  | removeGlobal s t => fun x => if x = s then (E x).erase t else E x
  | replaceGlobals s old new => fun x =>
    if x = s ∧ ∀ t ∈ new, t.isValid = true then E x - old + new else E x
  | _ => E

/-- Only what was entered and is still there is taken off. -/
def Fair (E : Ledger) : Operation → Prop
  | removeGlobal s t => t ∈ E s
  | replaceGlobals s old _ => (old : Multiset Tag) ≤ E s
  | _ => True

end Operation

/-- The programs that operations lead to, each with the ledger of what users entered. -/
inductive Accounted : Program → Ledger → Prop
  | start (pid : UInt32) (handler : Bool) : Accounted (.start pid handler) fun _ => 0
  | perform {p : Program} {E : Ledger} (h : Accounted p E) (op : Operation) (hfits : op.Fits p)
    (hfair : op.Fair E) : Accounted (op.after p) (op.entered E)

theorem Accounted.reachable {p : Program} {E : Ledger} (h : Accounted p E) : Reachable p := by
  induction h with
  | start pid handler => exact .start pid handler
  | perform _ op hfits _ ih => exact .perform ih op hfits

namespace Program

variable {p q r : Program} {a : AgentId} {s : StoreId} {E U : Ledger}

theorem Accounts.revised {tags : TagStore} (h : Accounts E p)
    (htags : ∀ X, p.tagsAt s = E s + X → ((tags.globals : List Tag) : Multiset Tag) = U s + X)
    (hother : ∀ x, x ≠ s → U x = E x) : Accounts U (p.retag s tags) := by
  have hat : ∀ x X, p.tagsAt x = E x + X → (p.retag s tags).tagsAt x = U x + X := by
    intro x X hX
    unfold tagsAt
    rw [retag_stores]
    by_cases hx : x = s
    · rw [if_pos hx, hx]
      exact htags X (hx ▸ hX)
    · rw [if_neg hx, hother x hx]
      exact hX
  constructor
  · intro b hb
    obtain ⟨c, hset, hc⟩ := h.running b hb
    exact ⟨c, hset, hat _ _ hc⟩
  · intro x hx
    have hnone := hat x 0 (by rw [h.others x hx, Multiset.add_zero])
    rw [hnone, Multiset.add_zero]

def Entered (E U : Ledger) (p q : Program) : Prop := Accounts U q ∧ Squared E p q

theorem Books.entered {tags : TagStore} (h : Books E p q)
    (htags : ∀ X, q.tagsAt s = E s + X → ((tags.globals : List Tag) : Multiset Tag) = U s + X)
    (hother : ∀ x, x ≠ s → U x = E x) : Entered E U p (q.retag s tags) :=
  ⟨h.accounts.revised htags hother, h.calls.since rfl⟩

theorem Books.contexts {tags : TagStore} (h : Books E p q)
    (htags : tags.globals = (q.stores s).tags.globals) : Entered E E p (q.retag s tags) :=
  h.entered (fun _ hX => by rw [htags]; exact hX) fun _ _ => rfl

section Uses

variable (hp : p.AtRest) (hc : p.Calm) (hdiscreet : p.Discreet) (hE : Accounts E p)

include hp hc hdiscreet hE

theorem check_books (s : StoreId) :
    Ends (checkStore tellAgent s) p (fun _ q => Books E p q) fun _ _ => True :=
  checkStore_books clerk hp.sound hc hdiscreet (.inl trivial) hE

theorem revise_books {use : TagStore → Except TagError TagStore}
    (hok : ∀ q tags, Books E p q → use (q.stores s).tags = .ok tags →
      Entered E U p (q.retag s tags))
    (herror : ∀ q e, Books E p q → use (q.stores s).tags = .error e → Entered E U p q) :
    Ends (revise tellAgent s use) p (fun _ q => Entered E U p q) fun _ _ => True := by
  unfold revise
  rw [ends_bind]
  refine Ends.mono (check_books hp hc hdiscreet hE s) ?_ fun _ _ h => h
  intro _ q hq
  rw [ends_bind, ends_store]
  cases huse : use (q.stores s).tags with
  | error e => exact herror q e hq huse
  | ok tags => exact hok q tags hq huse

theorem addTags_books (c : ContextId) (ts : List Tag) :
    Ends (addTags s c ts) p (fun _ q => Entered E E p q) fun _ _ => True := by
  have hrevised : Ends (revise tellAgent s (·.addTags c ts)) p (fun _ q => Entered E E p q)
      fun _ _ => True :=
    revise_books hp hc hdiscreet hE (fun q tags hq huse => hq.contexts (TagStore.addTags_globals huse))
      fun q e hq _ => ⟨hq.accounts, hq.calls⟩
  unfold addTags addTagsWith
  rw [ends_bind]
  refine Ends.mono hrevised ?_ fun _ _ h => h
  intro x q hq
  cases x with
  | error e => exact hq
  | ok _ =>
    dsimp only
    split
    · exact ⟨hq.1.called ((Called.refl q).annotate _), hq.2⟩
    · exact hq

theorem removeTags_books (c : ContextId) (ts : List Tag) :
    Ends (removeTags s c ts) p (fun _ q => Entered E E p q) fun _ _ => True := by
  unfold removeTags removeTagsWith
  rw [ends_bind]
  refine Ends.mono (check_books hp hc hdiscreet hE s) ?_ fun _ _ h => h
  intro _ q hq
  have hbooks : Entered E E p (q.retag s ((q.stores s).tags.removeTags c ts).1) := hq.contexts rfl
  simp only [ends_bind, ends_store, ends_setTags]
  split
  · exact ⟨hbooks.1.called ((Called.refl _).annotate _), hbooks.2⟩
  · exact hbooks

theorem addGlobal_books (t : Tag) : Ends (Program.addGlobal s t) p
    (fun _ q => Entered E ((Operation.addGlobal s t).entered E) p q) fun _ _ => True := by
  unfold Program.addGlobal addGlobalWith
  refine revise_books hp hc hdiscreet hE (fun q tags hq huse => hq.entered (fun X hX => ?_) ?_) ?_
  · unfold TagStore.addGlobal Tag.check at huse
    cases hvalid : t.isValid with
    | false =>
      simp only [hvalid] at huse
      cases huse
    | true =>
      simp only [hvalid, if_true] at huse
      cases huse
      have hX' : ((q.stores s).tags.globals : Multiset Tag) = E s + X := hX
      simp only [Operation.entered, hvalid, and_self, if_true]
      rw [← Multiset.coe_add, hX', Multiset.cons_add, ← Multiset.singleton_add t,
        Multiset.add_comm, Multiset.coe_singleton]
  · intro x hx
    simp only [Operation.entered, hx, false_and, if_false]
  · intro q e hq huse
    unfold TagStore.addGlobal Tag.check at huse
    cases hvalid : t.isValid with
    | false =>
      have hsame : (Operation.addGlobal s t).entered E = E := by
        funext x
        simp [Operation.entered, hvalid]
      rw [hsame]
      exact ⟨hq.accounts, hq.calls⟩
    | true =>
      simp only [hvalid, if_true] at huse
      cases huse

theorem removeGlobal_books (t : Tag) (ht : t ∈ E s) : Ends (Program.removeGlobal s t) p
    (fun _ q => Entered E ((Operation.removeGlobal s t).entered E) p q) fun _ _ => True := by
  unfold Program.removeGlobal removeGlobalWith
  rw [ends_bind]
  refine Ends.mono (check_books hp hc hdiscreet hE s) ?_ fun _ _ h => h
  intro _ q hq
  simp only [ends_bind, ends_store, ends_setTags, ends_pure]
  refine hq.entered (fun X hX => ?_) fun x hx => ?_
  · have hX' : ((q.stores s).tags.globals : Multiset Tag) = E s + X := hX
    unfold TagStore.removeGlobal
    dsimp only
    rw [coe_removeLatest, hX', Multiset.erase_add_left_pos X ht]
    simp [Operation.entered]
  · simp [Operation.entered, hx]

theorem replaceGlobals_books (old new : List Tag) (hold : (old : Multiset Tag) ≤ E s) :
    Ends (Program.replaceGlobals s old new) p
      (fun _ q => Entered E ((Operation.replaceGlobals s old new).entered E) p q)
      fun _ _ => True := by
  unfold Program.replaceGlobals replaceGlobalsWith
  refine revise_books hp hc hdiscreet hE (fun q tags hq huse => hq.entered (fun X hX => ?_) ?_) ?_
  · unfold TagStore.replaceGlobals at huse
    cases hvalid : Tag.checkAll new with
    | error e =>
      rw [hvalid] at huse
      cases huse
    | ok _ =>
      rw [hvalid] at huse
      cases huse
      have hX' : ((q.stores s).tags.globals : Multiset Tag) = E s + X := hX
      have hall := (Tag.checkAll_eq_ok_iff new).1 hvalid
      have hU : (Operation.replaceGlobals s old new).entered E s = E s - old + new := by
        simp only [Operation.entered]
        rw [if_pos ⟨trivial, hall⟩]
      rw [hU, ← Multiset.coe_add, coe_removeBatch, hX', Multiset.add_comm (E s) X,
        Multiset.add_sub_assoc hold, Multiset.add_comm X, Multiset.add_assoc, Multiset.add_assoc,
        Multiset.add_comm X]
  · intro x hx
    simp only [Operation.entered, hx, false_and, if_false]
  · intro q e hq huse
    unfold TagStore.replaceGlobals at huse
    have hsame : (Operation.replaceGlobals s old new).entered E = E := by
      funext x
      simp only [Operation.entered]
      rw [if_neg]
      rintro ⟨-, hall⟩
      rw [(Tag.checkAll_eq_ok_iff new).2 hall] at huse
      cases huse
    rw [hsame]
    exact ⟨hq.accounts, hq.calls⟩

end Uses

theorem Accounts.of_running (h : Accounts E p) (htags : ∀ s, q.tagsAt s = p.tagsAt s)
    (hrow : ∀ b, (p.agents b).phase = .running ∨ (q.agents b).phase = .running →
      q.agents b = p.agents b) : Accounts E q where
  running b hb := by
    have hrow' := hrow b (.inr hb)
    rw [hrow', htags]
    exact h.running b (by rw [← hrow', hb])
  others s hs := by
    rw [htags]
    apply h.others s
    intro b hb
    have hrow' := hrow b (.inl hb)
    rw [← hrow']
    exact hs b (by rw [hrow', hb])

theorem newStore_tagsAt (p : Program) (s : StoreId) :
    tagsAt { p with stores := p.stores.push ⟨.empty, ⟨p.generation, none⟩⟩ } s = p.tagsAt s := by
  unfold tagsAt
  dsimp only
  rw [Table.push_row]
  by_cases hs : s = p.stores.size
  · rw [if_pos hs, hs, Table.row_size]
    rfl
  · rw [if_neg hs]

theorem housed_accounts {sampler : Sampler} (hE : Accounts E p) :
    Accounts E (p.housed s sampler) := by
  refine hE.of_running (fun t => ?_) fun b hb => housed_old ?_
  · unfold tagsAt
    rw [housed_stores]
    by_cases ht : t = s
    · rw [if_pos ht, ht]
    · rw [if_neg ht]
  · rintro rfl
    rw [agents_size, housed_new] at hb
    rcases hb with hb | hb <;> cases hb

theorem newAgentOn_books (s : StoreId) (sampler : Sampler) (hE : Accounts E p) :
    Ends (newAgentOn s sampler) p (fun _ q => Entered E E p q) fun _ _ => True := by
  unfold newAgentOn install
  simp only [ends_bind, ends_discard, ends_get]
  by_cases hi : (!p.handlerInstalled) = true
  · rw [if_pos hi, ends_bind, ends_modify, ends_bind, ends_say]
    have hE' : Accounts E (annotate { p with handlerInstalled := true }
        ((p.thread, .say .debug "Registered fork handler") :: p.notes)) :=
      hE.congr (fun _ => rfl) (fun _ => rfl) (fun _ => rfl) fun _ => rfl
    exact ⟨housed_accounts hE', (Books.refl hE).calls.since rfl⟩
  · rw [if_neg hi]
    exact ⟨housed_accounts hE, (Books.refl hE).calls.since rfl⟩

end Program

theorem Operation.discreet_books {p : Program} {E : Ledger} (hp : p.AtRest) (hc : p.Calm)
    (hdiscreet : p.Discreet) (hE : Accounts E p) (op : Operation) (hfits : op.Fits p) (hfair : op.Fair E) :
    Ends op.perform p (fun _ q => Entered E (op.entered E) p q) fun _ _ => True := by
  have kept : ∀ {α : Type} {x : Act α}, Ends x p (fun _ q => Books E p q) (fun _ _ => True) →
      Ends (discard x) p (fun _ q => Entered E E p q) fun _ _ => True := by
    intro α x hx
    rw [ends_discard]
    exact Ends.mono hx (fun _ _ hq => ⟨hq.accounts, hq.calls⟩) fun _ _ h => h
  have told : ∀ a, (p.agents a).alive = true →
      Ends (tellAgent a) p (fun _ q => Books E p q) fun _ _ => True :=
    fun a halive => tellAgent_books hp.sound hc hdiscreet halive (hp.unlocked a) hE
  have still : ∀ q : Program, q.calls = p.calls → (∀ s, q.tagsAt s = p.tagsAt s) →
      q.agents = p.agents → Entered E E p q := by
    intro q hcalls htags hagents
    refine ⟨hE.of_running htags fun b _ => by rw [hagents], (Books.refl hE).calls.since hcalls⟩
  cases op with
  | newStore => exact still _ rfl (newStore_tagsAt p) rfl
  | newAgent s sampler =>
    unfold perform
    rw [ends_discard]
    exact newAgentOn_books s sampler hE
  | start a c => exact kept (startAgent_books hp hc hdiscreet hfits hE)
  | reconfigure a c =>
    apply kept
    unfold Program.reconfigure
    rw [ends_bind, ends_say]
    have hsame := (Books.refl hE).annotate ((p.thread, .say .info "Reconfiguring agent") :: p.notes)
    have hp' := hp.follows ((Follows.refl hp.sound).annotate
      ((p.thread, .say .info "Reconfiguring agent") :: p.notes))
    refine Ends.mono (startAgent_books hp' hc hdiscreet hfits hsame.accounts) ?_ fun _ _ h => h
    exact fun _ _ hq => hsame.trans hq (fun _ => rfl) fun _ => rfl
  | stop a => exact kept (stopAgent_books hp hc hdiscreet hfits hE)
  | handleFork a =>
    apply kept
    have h := told a hfits
    unfold tellAgent at h
    rw [ends_discard] at h
    exact h
  | drop a =>
    exact Ends.mono (dropAgent_books hp hc hdiscreet hfits hE) (fun _ _ hq => ⟨hq.accounts, hq.calls⟩)
      fun _ _ h => h
  | state a =>
    apply kept
    unfold Program.state
    rw [ends_bind]
    exact told a hfits
  | tags a =>
    apply kept
    unfold storeOf
    rw [ends_bind]
    exact told a hfits
  | fork => exact still _ rfl (fun _ => rfl) rfl
  | child => exact still _ rfl (fun _ => rfl) rfl
  | watch s c =>
    refine still (p.watched s (.counter c)) rfl (fun t => ?_) rfl
    unfold tagsAt
    rw [watched_stores]
    by_cases ht : t = s
    · rw [if_pos ht, ht]
    · rw [if_neg ht]
  | addTags s c ts =>
    unfold perform
    rw [ends_discard]
    exact addTags_books hp hc hdiscreet hE c ts
  | removeTags s c ts =>
    unfold perform
    rw [ends_discard]
    exact removeTags_books hp hc hdiscreet hE c ts
  | addGlobal s t =>
    unfold perform
    rw [ends_discard]
    exact addGlobal_books hp hc hdiscreet hE t
  | removeGlobal s t =>
    unfold perform
    rw [ends_discard]
    exact removeGlobal_books hp hc hdiscreet hE t hfair
  | replaceGlobals s old new =>
    unfold perform
    rw [ends_discard]
    exact replaceGlobals_books hp hc hdiscreet hE old new hfair
  | snapshot s c =>
    apply kept
    unfold Program.snapshot snapshotWith
    rw [ends_bind]
    exact check_books hp hc hdiscreet hE s
  | clearContext s c =>
    unfold perform Program.clearContext clearContextWith
    rw [ends_discard, ends_bind]
    refine Ends.mono (check_books hp hc hdiscreet hE s) ?_ fun _ _ h => h
    exact fun _ q hq => hq.contexts rfl

theorem Operation.books {p : Program} {E : Ledger} (hp : p.AtRest) (hc : p.Calm) (hquiet : p.Quiet)
    (hE : Accounts E p) (op : Operation) (hfits : op.Fits p) (hfair : op.Fair E) :
    Ends op.perform p (fun _ q => Entered E (op.entered E) p q) fun _ _ => True :=
  op.discreet_books hp hc hquiet.discreet hE hfits hfair

theorem Accounted.accounts {p : Program} {E : Ledger} (h : Accounted p E) (hc : p.Calm)
    (hquiet : p.Quiet) : Accounts E p := by
  induction h with
  | start pid handler =>
    refine ⟨fun b hb => ?_, fun s _ => rfl⟩
    cases hb
  | perform h op hfits hfair ih =>
    have hrest := h.reachable.atRest
    have hstaff := op.staffed hrest hfits
    have hc' := hstaff.calm hc
    have hquiet' := hstaff.quiet hquiet
    have hop := op.books hrest hc' hquiet' (ih hc' hquiet') hfits hfair
    rw [ends_of_on (op.returns hrest hc' hfits).1] at hop
    exact hop.1

/-- If no sampler panics or touches a store, then in every program that operations lead to, the
global tags of each store are what users entered and did not take off again, and besides the
configured tags of the agent that runs on it, once, if there is one. Every operation returns, and
whenever a sampler is started or stopped in its course, the tags of just the settings that it is
started with, or that it runs with, are attached. -/
theorem global_tags_accounted {p : Program} {E : Ledger} (h : Accounted p E) (hc : p.Calm)
    (hquiet : p.Quiet) :
    (∀ a, (p.agents a).phase = .running → ∃ c, (p.agents a).settings = some c ∧
      p.tagsAt (p.agents a).store = E (p.agents a).store + (c.validTags : Multiset Tag)) ∧
    (∀ s, (∀ a, (p.agents a).phase = .running → (p.agents a).store ≠ s) → p.tagsAt s = E s) ∧
    ∀ op : Operation, op.Fits p → op.Fair E →
      op.perform.on p = (.ok (), op.after p) ∧ Accounts (op.entered E) (op.after p) ∧
        Squared E p (op.after p) := by
  have hE := h.accounts hc hquiet
  have hrest := h.reachable.atRest
  refine ⟨hE.running, hE.others, fun op hfits hfair => ?_⟩
  have hon := (op.returns hrest hc hfits).1
  have hop := op.books hrest hc hquiet hE hfits hfair
  rw [ends_of_on hon] at hop
  exact ⟨hon, hop⟩

def Program.doubled : Program :=
  (Operation.start 0 (.tagged "team" "a")).after
    ((Operation.addGlobal 0 ⟨"team", "a"⟩).after (manned (.failing fun _ => false)))

/-- The store has the tag twice then, and the user may take off its own. -/
theorem global_tags_accounted_doubled : ∃ E : Ledger, Accounted doubled E ∧ doubled.Calm ∧
    doubled.Quiet ∧ (doubled.agents 0).phase = .running ∧ E 0 = {⟨"team", "a"⟩} ∧
    doubled.tagsAt 0 = {⟨"team", "a"⟩} + ((Settings.tagged "team" "a").validTags : Multiset Tag) ∧
    Accounts ((Operation.removeGlobal 0 ⟨"team", "a"⟩).entered E)
      ((Operation.removeGlobal 0 ⟨"team", "a"⟩).after doubled) := by
  have hmanned : Accounted (manned (.failing fun _ => false)) fun _ => 0 :=
    (Accounted.start 1 false).perform (.newAgent 0 _) trivial trivial
  have hacc := (hmanned.perform (.addGlobal 0 ⟨"team", "a"⟩) trivial trivial).perform
    (.start 0 (.tagged "team" "a")) rfl trivial
  have hscripts : ∀ a script, (doubled.agents a).sampler = .scripted script →
      script = .failing fun _ => false := by
    intro a script hs
    cases a with
    | zero =>
      cases hs
      rfl
    | succ a => cases hs
  have hcalm : doubled.Calm := fun a script hs => hscripts a script hs ▸ Script.failing_calm _
  have hquiet : doubled.Quiet := fun a script hs => hscripts a script hs ▸ Script.failing_quiet _
  have hentered : (Operation.addGlobal 0 ⟨"team", "a"⟩).entered (fun _ => 0) 0 =
      ({⟨"team", "a"⟩} : Multiset Tag) := by
    have hvalid : (⟨"team", "a"⟩ : Tag).isValid = true := rfl
    simp [Operation.entered, hvalid]
  obtain ⟨hrunning, -, hops⟩ := global_tags_accounted hacc hcalm hquiet
  obtain ⟨c, hset, htags⟩ := hrunning 0 rfl
  have hc : c = .tagged "team" "a" := (Option.some.inj hset).symm
  refine ⟨_, hacc, hcalm, hquiet, rfl, hentered, ?_, (hops (.removeGlobal 0 _) trivial ?_).2.1⟩
  · rw [← hc, ← hentered]
    exact htags
  · change _ ∈ (Operation.addGlobal 0 ⟨"team", "a"⟩).entered (fun _ => 0) 0
    rw [hentered]
    exact Multiset.mem_singleton_self _

end ProfilingAgent
