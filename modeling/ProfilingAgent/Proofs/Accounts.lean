import Mathlib.Data.Multiset.AddSub
import ProfilingAgent.Proofs.Operations
import ProfilingAgent.Proofs.Quiet

set_option autoImplicit false

/-!
# Accounts of global tags

The global tags of a store are what users entered, and the configured tags of the agent that runs
on it. Seen as multisets, taking tags off is subtraction, so what an agent attached is taken off
without touching what users entered. Agents that handle forks keep the accounts.
-/
namespace ProfilingAgent

theorem coe_removeLatest (t : Tag) (tags : List Tag) :
    ((removeLatest t tags : List Tag) : Multiset Tag) = (tags : Multiset Tag).erase t := by
  unfold removeLatest
  rw [Multiset.coe_reverse, ← Multiset.coe_erase, Multiset.coe_reverse]

theorem coe_removeBatch (batch tags : List Tag) :
    (((removeBatch batch tags).1 : List Tag) : Multiset Tag) = (tags : Multiset Tag) - batch := by
  induction batch with
  | nil => simp [removeBatch]
  | cons t rest ih =>
    have hstep : (((removeBatch (t :: rest) tags).1 : List Tag) : Multiset Tag) =
        (((removeBatch rest tags).1 : List Tag) : Multiset Tag).erase t := by
      change ((if t ∈ (removeBatch rest tags).1 then _ else _ : List Tag × Nat).1 : Multiset Tag) = _
      by_cases ht : t ∈ (removeBatch rest tags).1
      · rw [if_pos ht, coe_removeLatest]
        rfl
      · rw [if_neg ht, Multiset.erase_of_notMem (by simpa using ht)]
        rfl
    rw [hstep, ih, ← Multiset.cons_coe, ← Multiset.singleton_add, Multiset.add_comm,
      Multiset.sub_add_eq_sub_sub, Multiset.sub_singleton]

/-- How often users entered each tag as a global tag of each store. -/
abbrev Ledger := StoreId → Multiset Tag

namespace Program

open Act

variable {tell : AgentId → Act Unit} {able : Prop} {own free : Option AgentId}
  {p₀ p q r : Program} {a : AgentId} {s : StoreId} {E : Ledger}

def tagsAt (p : Program) (s : StoreId) : Multiset Tag := ((p.stores s).tags.globals : List Tag)

/-- The global tags of each store are those entered, and the configured tags of the agent that runs
on it, if there is one. -/
structure Accounts (E : Ledger) (p : Program) : Prop where
  running : ∀ a, (p.agents a).phase = .running → ∃ c, (p.agents a).settings = some c ∧
    p.tagsAt (p.agents a).store = E (p.agents a).store + (c.validTags : Multiset Tag)
  others : ∀ s, (∀ a, (p.agents a).phase = .running → (p.agents a).store ≠ s) → p.tagsAt s = E s

/-- A sampler is called while the tags of the settings in question are attached, once. -/
def Squares (E : Ledger) (p : Program) : SamplerCall → Prop
  | .start a c globals =>
    (globals : Multiset Tag) = E (p.agents a).store + (c.validTags : Multiset Tag)
  | .stop a globals => ∃ c tags, (p.agents a).settings = some c ∧ globals = some tags ∧
    (tags : Multiset Tag) = E (p.agents a).store + (c.validTags : Multiset Tag)
  | .reset _ => True

/-- The accounts were right whenever a sampler was called. -/
def Squared (E : Ledger) (p q : Program) : Prop :=
  ∃ new, q.calls = p.calls ++ new ∧ ∀ k ∈ new, Squares E p k

structure Books (E : Ledger) (p q : Program) : Prop where
  accounts : Accounts E q
  calls : Squared E p q

theorem Accounts.congr (h : Accounts E p) (htags : ∀ s, q.tagsAt s = p.tagsAt s)
    (hphase : ∀ b, (q.agents b).phase = (p.agents b).phase)
    (hsettings : ∀ b, (q.agents b).settings = (p.agents b).settings)
    (hstore : ∀ b, (q.agents b).store = (p.agents b).store) : Accounts E q where
  running b hb := by
    rw [hsettings, hstore, htags]
    exact h.running b (by rw [← hphase, hb])
  others s hs := by
    rw [htags]
    apply h.others s
    intro b hb
    rw [← hstore]
    exact hs b (by rw [hphase, hb])

theorem Accounts.called {new : List SamplerCall} (h : Accounts E p) (hq : Called new p q) :
    Accounts E q := by
  refine h.congr (fun s => ?_) hq.phase hq.settings hq.store
  unfold tagsAt
  rw [hq.globals]

theorem Squares.congr {k : SamplerCall} (h : Squares E q k)
    (hstore : ∀ b, (q.agents b).store = (p.agents b).store)
    (hsettings : ∀ b, (q.agents b).settings = (p.agents b).settings) : Squares E p k := by
  cases k with
  | start b c globals =>
    simp only [Squares] at h ⊢
    rw [← hstore]
    exact h
  | stop b globals =>
    simp only [Squares] at h ⊢
    rw [← hstore, ← hsettings]
    exact h
  | reset b => trivial

namespace Squared

theorem trans (h : Squared E p q) (h' : Squared E q r)
    (hstore : ∀ b, (q.agents b).store = (p.agents b).store)
    (hsettings : ∀ b, (q.agents b).settings = (p.agents b).settings) : Squared E p r := by
  obtain ⟨new, hnew, hn⟩ := h
  obtain ⟨new', hnew', hn'⟩ := h'
  refine ⟨new ++ new', by rw [hnew', hnew, List.append_assoc], fun k hk => ?_⟩
  rcases List.mem_append.1 hk with hk | hk
  · exact hn k hk
  · exact (hn' k hk).congr hstore hsettings

theorem since (h : Squared E p q) (hcalls : r.calls = q.calls) : Squared E p r := by
  unfold Squared
  rw [hcalls]
  exact h

end Squared

namespace Books

theorem refl (h : Accounts E p) : Books E p p := ⟨h, [], by simp, by simp⟩

theorem trans (h : Books E p q) (h' : Books E q r)
    (hstore : ∀ b, (q.agents b).store = (p.agents b).store)
    (hsettings : ∀ b, (q.agents b).settings = (p.agents b).settings) : Books E p r :=
  ⟨h'.accounts, h.calls.trans h'.calls hstore hsettings⟩

theorem called {new : List SamplerCall} (h : Accounts E p) (hq : Called new p q)
    (hnew : ∀ k ∈ new, Squares E p k) : Books E p q := ⟨h.called hq, new, hq.calls, hnew⟩

theorem annotate (h : Books E p q) (notes : List (ThreadId × Log.Event)) :
    Books E p (q.annotate notes) := ⟨h.accounts.called ((Called.refl q).annotate notes), h.calls⟩

end Books

/-- Whoever tells agents keeps the accounts if samplers change no global tags and keep to themselves. -/
structure Clerk (tell : AgentId → Act Unit) (able : Prop) : Prop extends Teller tell able where
  books : able → ∀ {p a E}, p.Sound → p.Calm → p.Discreet → (p.agents a).alive = true →
    (p.agents a).locked = false → (p.stores (p.agents a).store).hook.seen = p.generation →
    Accounts E p → Ends (tell a) p (fun _ q => Books E p q) fun _ _ => True

theorem Accounts.mark (h : Accounts E p) (s : StoreId) : Accounts E (p.mark s) := by
  refine h.congr (fun t => ?_) (fun _ => rfl) (fun _ => rfl) fun _ => rfl
  unfold tagsAt
  by_cases ht : t = s <;> simp [ht]

theorem checkStore_books (T : Clerk tell able) (hp : p.Sound) (hc : p.Calm) (hdiscreet : p.Discreet)
    (hs : Ready able p s) (hE : Accounts E p) :
    Ends (checkStore tell s) p (fun _ q => Books E p q) fun _ _ => True := by
  unfold checkStore
  simp only [ends_bind, ends_get]
  by_cases hseen : (p.stores s).hook.seen = p.generation
  · rw [if_neg (by simpa using hseen)]
    exact Books.refl hE
  · rw [if_pos hseen, ends_bind]
    change Ends _ (p.mark s) _ _
    have hm : (p.mark s).Sound := (Same.mark p s).sound hp
    have hmark : Books E p (p.mark s) := ⟨hE.mark s, [], by simp, by simp⟩
    cases hw : (p.stores s).hook.watcher with
    | none => exact hmark
    | some w =>
      cases w with
      | counter c =>
        unfold inform
        rw [ends_modify]
        dsimp only
        split
        · exact ⟨hmark.accounts.congr (fun _ => rfl) (fun _ => rfl) (fun _ => rfl) fun _ => rfl,
            hmark.calls⟩
        · exact hmark
      | agent b =>
        unfold inform
        simp only [ends_bind, ends_get]
        by_cases hb : ((p.mark s).agents b).alive = true
        · rw [if_pos hb]
          by_cases hab : (p.mark s).Abreast b
          · rw [ends_of_on (T.abreast hab)]
            exact hmark
          · have hl : ((p.mark s).agents b).locked = false := hm.unlocked hab
            have hstore : ((p.mark s).agents b).store = s := (hp.home s b hw).2
            have htold := T.books (hs.resolve_right hseen) hm ((Same.mark p s).calm.2 hc)
              ((Same.mark p s).discreet.2 hdiscreet) hb hl
              (by rw [hstore]; simp) (hE.mark s)
            refine Ends.mono htold ?_ fun _ _ h => h
            exact fun _ q hq => hmark.trans hq (fun _ => rfl) fun _ => rfl
        · rw [if_neg hb]
          exact hmark

def exchanged (p : Program) (s : StoreId) (old new : List Tag) : Program :=
  p.retag s { (p.stores s).tags with
    globals := (removeBatch old (p.stores s).tags.globals).1 ++ new }

theorem exchanged_tagsAt (p : Program) (s t : StoreId) (old new : List Tag) :
    (p.exchanged s old new).tagsAt t =
      if t = s then p.tagsAt s - (old : Multiset Tag) + (new : Multiset Tag) else p.tagsAt t := by
  unfold tagsAt exchanged
  rw [retag_stores]
  by_cases ht : t = s
  · rw [if_pos ht, if_pos ht]
    dsimp only
    rw [← Multiset.coe_add, coe_removeBatch]
  · rw [if_neg ht, if_neg ht]

theorem exchange_books (T : Clerk tell able) (hp : p.Sound) (hc : p.Calm) (hdiscreet : p.Discreet)
    (hs : Ready able p s) (hE : Accounts E p) {old new : List Tag}
    (hnew : ∀ t ∈ new, t.isValid = true) :
    Ends (replaceGlobalsWith tell s old new) p
      (fun x r => x = .ok () ∧ ∃ q, Follows none none p q ∧ Books E p q ∧
        (q.stores s).hook.seen = q.generation ∧ r = q.exchanged s old new) fun _ _ => True := by
  unfold replaceGlobalsWith revise
  rw [ends_bind]
  refine Ends.mono (Ends.and (checkStore_goes T.toTeller hp hs)
    (checkStore_books T hp hc hdiscreet hs hE)) ?_ fun _ _ _ => trivial
  rintro _ q ⟨⟨hq, hseen⟩, hbooks⟩
  rw [ends_bind, ends_store]
  have huse : (q.stores s).tags.replaceGlobals old new = .ok { (q.stores s).tags with
      globals := (removeBatch old (q.stores s).tags.globals).1 ++ new } := by
    unfold TagStore.replaceGlobals
    rw [(Tag.checkAll_eq_ok_iff new).2 hnew]
  dsimp only
  rw [huse]
  exact ⟨rfl, q, hq, hbooks, hseen, rfl⟩

theorem exchange_seen (h : (p.stores s).hook.seen = p.generation) {old new : List Tag}
    (hnew : ∀ t ∈ new, t.isValid = true) :
    (replaceGlobalsWith tell s old new).on p = (.ok (.ok ()), p.exchanged s old new) := by
  have hread : (store s).on p = (.ok (p.stores s), p) := rfl
  unfold replaceGlobalsWith revise
  rw [on_bind, checkStore_seen h]
  dsimp only
  rw [on_bind, hread]
  unfold TagStore.replaceGlobals
  dsimp only
  rw [(Tag.checkAll_eq_ok_iff new).2 hnew]
  rfl

structure Dressed (E : Ledger) (a : AgentId) (tags : List Tag) (p : Program) : Prop where
  tags : ∀ s, p.tagsAt s = E s + if s = (p.agents a).store then (tags : Multiset Tag) else 0
  alone : ∀ b, b ≠ a → (p.agents b).phase ≠ .running

theorem Sound.alone (hp : p.Sound) (hs : p.slot = some a) {b : AgentId} (hb : b ≠ a) :
    (p.agents b).phase ≠ .running := by
  intro hr
  have h := (hp.slotted b hr).symm.trans hs
  exact hb (Option.some.inj h)

namespace Dressed

variable {c : Settings} {tags : List Tag}

theorem of_running (hE : Accounts E p) (hp : p.Sound) (hrun : (p.agents a).phase = .running)
    (hset : (p.agents a).settings = some c) : Dressed E a c.validTags p where
  tags s := by
    by_cases hs : s = (p.agents a).store
    · obtain ⟨c', hc', htags⟩ := hE.running a hrun
      obtain rfl : c = c' := Option.some.inj (hset.symm.trans hc')
      rw [if_pos hs, hs, htags]
    · rw [if_neg hs, Multiset.add_zero]
      apply hE.others s
      intro b hb
      by_cases hba : b = a
      · rw [hba]
        exact fun h => hs h.symm
      · exact absurd hb (hp.alone (hp.slotted a hrun) hba)
  alone _ hb := hp.alone (hp.slotted a hrun) hb

theorem of_idle (hE : Accounts E p) (halone : ∀ b, b ≠ a → (p.agents b).phase ≠ .running)
    (hrun : (p.agents a).phase ≠ .running) : Dressed E a [] p where
  tags s := by
    have hnone : ∀ b, (p.agents b).phase = .running → (p.agents b).store ≠ s := by
      intro b hb
      by_cases hba : b = a
      · rw [hba] at hb
        exact absurd hb hrun
      · exact absurd hb (halone b hba)
    rw [hE.others s hnone]
    simp
  alone := halone

theorem congr (h : Dressed E a tags p) (htags : ∀ s, q.tagsAt s = p.tagsAt s)
    (hstore : (q.agents a).store = (p.agents a).store)
    (hphase : ∀ b, b ≠ a → (q.agents b).phase = (p.agents b).phase) : Dressed E a tags q where
  tags s := by
    rw [htags, h.tags, hstore]
  alone b hb := by
    rw [hphase b hb]
    exact h.alone b hb

theorem called {new : List SamplerCall} (h : Dressed E a tags p) (hq : Called new p q) :
    Dressed E a tags q := by
  refine h.congr (fun s => ?_) (hq.store a) fun b _ => hq.phase b
  unfold tagsAt
  rw [hq.globals]

theorem exchanged (h : Dressed E a tags p) (new : List Tag) :
    Dressed E a new (p.exchanged (p.agents a).store tags new) where
  tags s := by
    have hagents : (p.exchanged (p.agents a).store tags new).agents = p.agents := rfl
    rw [exchanged_tagsAt, hagents, h.tags s, h.tags (p.agents a).store]
    by_cases hs : s = (p.agents a).store
    · rw [if_pos hs, if_pos hs, if_pos rfl, hs, Multiset.add_sub_cancel_right]
    · rw [if_neg hs, if_neg hs, if_neg hs]
  alone := h.alone

theorem running (h : Dressed E a c.validTags p) (hset : (p.agents a).settings = some c)
    (hrun : (p.agents a).phase = .running) : Accounts E p where
  running b hb := by
    by_cases hba : b = a
    · rw [hba]
      exact ⟨c, hset, by rw [h.tags, if_pos rfl]⟩
    · exact absurd hb (h.alone b hba)
  others s hs := by
    rw [h.tags, if_neg fun heq => hs a hrun heq.symm, Multiset.add_zero]

theorem idle (h : Dressed E a [] p) (hrun : (p.agents a).phase ≠ .running) : Accounts E p where
  running b hb := by
    by_cases hba : b = a
    · rw [hba] at hb
      exact absurd hb hrun
    · exact absurd hb (h.alone b hba)
  others s _ := by
    rw [h.tags]
    simp

theorem stopped (h : Dressed E a [] p) :
    Accounts E ((p.amend a fun x => { x with phase := .stopped }).yieldSlot a) := by
  refine (h.congr (fun s => ?_) ?_ fun b hb => ?_).idle ?_
  · unfold tagsAt
    rw [yieldSlot_stores]
    rfl
  · simp
  · simp [hb]
  · simp

end Dressed

theorem retire_books (T : Clerk tell able) (hp : p.Sound) (hc : p.Calm) (hdiscreet : p.Discreet)
    (hl : (p.agents a).locked = true) (hs : Ready able p (p.agents a).store)
    (hrun : (p.agents a).phase = .running) (hE : Accounts E p) :
    Ends (retire tell a) p (fun _ q => Books E p q) fun _ _ => True := by
  obtain ⟨c, hset, -⟩ := hE.running a hrun
  unfold retire
  rw [ends_bind, ends_agent]
  simp only [hset, ends_bind, ends_configuredTags]
  generalize (c.tagRemarks.map fun e => (p.thread, e)).reverse ++ p.notes = notes
  have hE' : Accounts E (p.annotate notes) := hE.called ((Called.refl p).annotate notes)
  refine Ends.mono (exchange_books T ((Same.annotate p notes).sound hp) hc hdiscreet hs hE' (by simp)) ?_
    fun _ _ _ => trivial
  rintro _ _ ⟨rfl, q, hq, hbooks, -, rfl⟩
  obtain ⟨hrow, -, -⟩ := hq.kept hl
  have hrow' : q.agents a = p.agents a := hrow
  have hd : Dressed E a c.validTags q :=
    .of_running hbooks.accounts hq.sound (by rw [hrow', hrun]) (by rw [hrow', hset])
  have hd' := hd.exchanged []
  rw [hrow'] at hd'
  have hbooks' : Books E p q :=
    ((Books.refl hE).annotate notes).trans hbooks (fun _ => rfl) fun _ => rfl
  dsimp only
  rw [ends_bind, ends_setPhase, ends_release]
  exact ⟨hd'.stopped, hbooks'.calls.since (yieldSlot_calls _ a)⟩

theorem decideFork_books (T : Clerk tell able) (h : Follows (some a) none p₀ p) (hc : p.Calm)
    (hdiscreet : p.Discreet) (halive : (p.agents a).alive = true) (hl : (p.agents a).locked = true)
    (hs : Ready able p₀ (p₀.agents a).store) (hnew : ¬ p₀.Abreast a) (hE : Accounts E p) :
    Ends (decideFork tell a) p (fun _ q => Books E p q) fun _ _ => True := by
  unfold decideFork
  rw [ends_bind]
  refine Ends.mono (Ends.and (callReset_goes T.toTeller h hl (hs.home h) hnew)
    (callReset_called T.toTeller (hdiscreet a halive) (h.owner a rfl))) ?_ fun _ _ _ => trivial
  rintro _ q ⟨⟨hq, hk, -⟩, new, hcalled, hresets⟩
  have hbooks : Books E p q := .called hE hcalled fun k hk => by
    rw [hresets k hk]
    trivial
  have hcq : q.Calm := hq.calm.2 (h.calm.1 hc)
  have hdiscreet' : q.Discreet := hq.discreet.2 (h.discreet.1 hdiscreet)
  have halive' : (q.agents a).alive = true := (hq.alive a).trans ((h.alive a).symm.trans halive)
  have hlq : (q.agents a).locked = true := hk.locked.trans hl
  unfold carryOn
  simp only [ends_bind, ends_agent]
  by_cases hrun : (q.agents a).phase = .running
  · rw [if_neg (by simpa using hrun)]
    obtain ⟨c, hset, htags⟩ := hbooks.accounts.running a hrun
    simp only [hset]
    cases ForkAction.decide c.detectSubprocesses with
    | restart =>
      dsimp only
      rw [ends_bind]
      refine Ends.mono (Ends.and (callStart_goes T.toTeller hq hlq (hs.home hq) c)
        (callStart_called T.toTeller (hdiscreet' a halive') (hq.owner a rfl) c)) ?_ fun _ _ _ => trivial
      rintro b r ⟨⟨hr, hk', -⟩, new', hcalled', hstarts⟩
      have hbooks' : Books E p r := by
        refine hbooks.trans (.called hbooks.accounts hcalled' fun k hk => ?_) hcalled.store
          hcalled.settings
        rw [hstarts k hk]
        exact htags
      cases b with
      | true =>
        simp only [if_true, ends_bind, ends_say, ends_pure]
        exact hbooks'.annotate _
      | false =>
        simp only [Bool.false_eq_true, if_false, ends_bind, ends_say, ends_pure]
        generalize (r.thread, Log.Event.say .error _) :: r.notes = notes
        have hr' := hr.annotate notes
        refine Ends.mono (retire_books T hr'.sound (hr'.calm.2 (h.calm.1 hc))
          (hr'.discreet.2 (h.discreet.1 hdiscreet)) (hk'.locked.trans hlq) (hs.home hr')
          (hk'.phase.trans hrun) (hbooks'.annotate notes).accounts) ?_ fun _ _ _ => trivial
        exact fun _ t ht => (hbooks'.annotate notes).trans ht
          (fun b => (hcalled'.store b).trans (hcalled.store b))
          fun b => (hcalled'.settings b).trans (hcalled.settings b)
    | inert =>
      simp only [ends_bind, ends_say, ends_pure]
      generalize (q.thread, Log.Event.say .debug _) :: q.notes = notes
      have hq' := hq.annotate notes
      refine Ends.mono (retire_books T hq'.sound hcq hdiscreet' hlq (hs.home hq') hrun
        (hbooks.annotate notes).accounts) ?_ fun _ _ _ => trivial
      exact fun _ t ht => (hbooks.annotate notes).trans ht hcalled.store hcalled.settings
  · rw [if_pos hrun]
    exact hbooks.annotate _

theorem applyFork_books (T : Clerk tell able) (hp : p.Sound) (hc : p.Calm) (hdiscreet : p.Discreet)
    (halive : (p.agents a).alive = true) (hl : (p.agents a).locked = false)
    (hs : Ready able p (p.agents a).store) (hE : Accounts E p) :
    Ends (applyFork tell a) p (fun _ q => Books E p q) fun _ _ => True := by
  by_cases hab : p.Abreast a
  · rw [ends_of_on (applyFork_abreast hab)]
    exact Books.refl hE
  · rw [ends_applyFork hab hl]
    have hr : Follows (some a) none p (p.deciding a) := .deciding hp
    have hcalled : Called [] p (p.deciding a) := ((Called.refl p).amend (by simp)).annotate _
    refine Ends.mono (decideFork_books T hr (hr.calm.2 hc) (hr.discreet.2 hdiscreet)
      ((hr.alive a).trans halive) (by simp [deciding]) hs hab (hE.called hcalled)) ?_ fun _ _ _ => trivial
    rintro _ q hq
    have hbooks : Books E p q := (Books.called hE hcalled (by simp)).trans hq hcalled.store
      hcalled.settings
    exact ⟨hbooks.accounts.called ((Called.refl q).amend (by simp)), hbooks.calls⟩

theorem Clerk.next (T : Clerk tell able) : Clerk (fun b => discard (applyFork tell b)) True where
  toTeller := T.toTeller.next
  books := by
    intro _ p a E hp hc hdiscreet halive hl hseen hE
    rw [ends_discard]
    exact applyFork_books T hp hc hdiscreet halive hl (.inr hseen) hE

theorem clerk_one : Clerk (fun b => discard (settle 1 b)) False where
  toTeller := teller_one
  books := fun h => h.elim

theorem clerk_two : Clerk (fun b => discard (settle 2 b)) True := clerk_one.next

theorem clerk : Clerk tellAgent True := clerk_two.next

theorem tellAgent_books (hp : p.Sound) (hc : p.Calm) (hdiscreet : p.Discreet)
    (halive : (p.agents a).alive = true) (hl : (p.agents a).locked = false) (hE : Accounts E p) :
    Ends (tellAgent a) p (fun _ q => Books E p q) fun _ _ => True := by
  unfold tellAgent
  rw [ends_discard]
  exact applyFork_books clerk_two hp hc hdiscreet halive hl (.inl trivial) hE

end Program
end ProfilingAgent
