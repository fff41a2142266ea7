import ProfilingAgent.Proofs.JobPolls

set_option autoImplicit false

/-!
# Jobs that stay apart

Jobs are polled in any order and by any threads, and any of them may be given up between two polls. Each
keeps the id that it got at its first poll, which no other job and no thread has. On it are the tags of
the scopes that the job holds, and no others.
-/
namespace ProfilingAgent

open Act Program

variable {α ι : Type} {s : StoreId} {c : ContextId} {p₀ p q : Program} {jobs : ι → Job α}

/-- No id that was not handed out yet is a thread's or has tags. -/
structure Unissued (s : StoreId) (p : Program) : Prop where
  threads : ∀ t c, (p.threads t).own = some c → c.raw.toNat < p.nextContext
  tags : ∀ c : ContextId, p.nextContext ≤ c.raw.toNat → p.tagsOn s c = []

theorem raw_ofNat {n : Nat} (h : n < 2 ^ 64) : (⟨UInt64.ofNat n⟩ : ContextId).raw.toNat = n :=
  UInt64.toNat_ofNat_of_lt h

/-- Jobs and threads have different ids, which were handed out, those of jobs since the start. -/
structure Numbered (p₀ p : Program) (jobs : ι → Job α) : Prop where
  grown : p₀.nextContext ≤ p.nextContext
  threads : ∀ t c, (p.threads t).own = some c → c.raw.toNat < p.nextContext
  issued : ∀ i c, (jobs i).context = some c →
    p₀.nextContext ≤ c.raw.toNat ∧ c.raw.toNat < p.nextContext
  distinct : ∀ i j c, (jobs i).context = some c → (jobs j).context = some c → i = j
  apart : ∀ i t c, (jobs i).context = some c → (p.threads t).own ≠ some c

namespace Numbered

theorem asked {jobs' : ι → Job α} (h : Numbered p₀ p jobs) (hq : Asked p q)
    (hids : q.nextContext ≤ 2 ^ 64) (hjobs : ∀ i, (jobs' i).context = (jobs i).context) :
    Numbered p₀ q jobs' := by
  have hnew : ∀ {t c}, (q.threads t).own = some c → (p.threads t).own = some c ∨
      c.raw.toNat = p.nextContext ∧ q.nextContext = p.nextContext + 1 := by
    intro t c ht
    refine (hq.own ht).imp_right ?_
    rintro ⟨rfl, hnext⟩
    exact ⟨raw_ofNat (by omega), hnext⟩
  refine ⟨h.grown.trans hq.next_le, fun t c ht => ?_, fun i c hi => ?_, fun i j c hi hj => ?_,
    fun i t c hi ht => ?_⟩
  · rcases hnew ht with hold | ⟨hraw, hnext⟩
    · exact (h.threads t c hold).trans_le hq.next_le
    · omega
  · rw [hjobs] at hi
    exact ⟨(h.issued i c hi).1, (h.issued i c hi).2.trans_le hq.next_le⟩
  · rw [hjobs] at hi hj
    exact h.distinct i j c hi hj
  · rw [hjobs] at hi
    rcases hnew ht with hold | ⟨hraw, -⟩
    · exact h.apart i t c hi hold
    · exact absurd hraw (h.issued i c hi).2.ne

theorem issue [DecidableEq ι] (h : Numbered p₀ p jobs) {i : ι} {j : Job α}
    (hids : p.nextContext < 2 ^ 64) (hj : j.context = some ⟨UInt64.ofNat p.nextContext⟩) :
    Numbered p₀ { p with nextContext := p.nextContext + 1 } (Function.update jobs i j) := by
  have hraw := raw_ofNat hids
  have hcontext : ∀ {k c}, (Function.update jobs i j k).context = some c →
      k = i ∧ c.raw.toNat = p.nextContext ∨ k ≠ i ∧ (jobs k).context = some c := by
    intro k c hk
    by_cases hki : k = i
    · rw [hki, Function.update_self, hj] at hk
      rw [← Option.some.inj hk]
      exact .inl ⟨hki, hraw⟩
    · rw [Function.update_of_ne hki] at hk
      exact .inr ⟨hki, hk⟩
  refine ⟨h.grown.trans (Nat.le_succ _), fun t c ht => Nat.lt_succ_of_lt (h.threads t c ht),
    fun k c hk => ?_, fun k l c hk hl => ?_, fun k t c hk ht => ?_⟩
  · have hgrown := h.grown
    rcases hcontext hk with ⟨-, hc⟩ | ⟨-, hold⟩
    · exact ⟨by omega, by change _ < p.nextContext + 1; omega⟩
    · exact ⟨(h.issued k c hold).1, Nat.lt_succ_of_lt (h.issued k c hold).2⟩
  · rcases hcontext hk with ⟨hki, hc⟩ | ⟨-, hkold⟩
    · rcases hcontext hl with ⟨hli, -⟩ | ⟨-, hlold⟩
      · rw [hki, hli]
      · exact absurd hc (h.issued l c hlold).2.ne
    · rcases hcontext hl with ⟨-, hc⟩ | ⟨-, hlold⟩
      · exact absurd hc (h.issued k c hkold).2.ne
      · exact h.distinct k l c hkold hlold
  · rcases hcontext hk with ⟨-, hc⟩ | ⟨-, hold⟩
    · exact absurd hc (h.threads t c ht).ne
    · exact h.apart k t c hold ht

end Numbered

structure Tidy (s : StoreId) (p₀ p : Program) (jobs : ι → Job α) : Prop where
  numbered : Numbered p₀ p jobs
  kept : Retagged s (p.stores s).tags p₀ p
  globals : (p.stores s).tags.globals = (p₀.stores s).tags.globals
  placed : ∀ i, (jobs i).Placed s
  tags : ∀ i c, (jobs i).context = some c → p.tagsOn s c = (jobs i).openTags
  elsewhere : ∀ c, (∀ i, (jobs i).context ≠ some c) → p.tagsOn s c = p₀.tagsOn s c

theorem extended_without (c : ContextId) (tags : List Tag) (lists : ContextId → List Tag) :
    extended c tags (Function.update lists c []) = Function.update lists c tags := by
  unfold extended
  rw [Function.update_self, Function.update_idem, List.nil_append]

namespace Tidy

theorem changed {jobs' : ι → Job α} (h : Tidy s p₀ p jobs) (hq : Tended s p q)
    (hids : q.nextContext ≤ 2 ^ 64) (hcontext : ∀ k, (jobs' k).context = (jobs k).context)
    (hplaced : ∀ k, (jobs' k).Placed s)
    (htags : ∀ k c, (jobs k).context = some c → q.tagsOn s c = (jobs' k).openTags)
    (helsewhere : ∀ c, (∀ k, (jobs k).context ≠ some c) → q.tagsOn s c = p.tagsOn s c) :
    Tidy s p₀ q jobs' where
  numbered := h.numbered.asked hq.asked hids hcontext
  kept := h.kept.trans hq.kept
  globals := hq.globals.trans h.globals
  placed := hplaced
  tags k c hk := htags k c ((hcontext k).symm.trans hk)
  elsewhere c hc := by
    have hnone : ∀ k, (jobs k).context ≠ some c := fun k => hcontext k ▸ hc k
    rw [helsewhere c hnone, h.elsewhere c hnone]

theorem unissued (h : Tidy s p₀ p jobs) (h₀ : Unissued s p₀) (hids : p.nextContext < 2 ^ 64) :
    (∀ i, (jobs i).context ≠ some ⟨UInt64.ofNat p.nextContext⟩) ∧
      p.tagsOn s ⟨UInt64.ofNat p.nextContext⟩ = [] := by
  have hraw := raw_ofNat hids
  have hnone : ∀ i, (jobs i).context ≠ some ⟨UInt64.ofNat p.nextContext⟩ := fun i hi =>
    (h.numbered.issued i _ hi).2.ne hraw
  refine ⟨hnone, (h.elsewhere _ hnone).trans (h₀.tags _ ?_)⟩
  rw [hraw]
  exact h.numbered.grown

theorem openTags_of_fresh (h : Tidy s p₀ p jobs) {i : ι} (hi : (jobs i).context = none) :
    (jobs i).openTags = [] := by
  unfold Job.openTags
  cases hpending : (jobs i).pending with
  | none => rfl
  | some rest =>
    obtain ⟨x, rfl⟩ := (h.placed i).fresh rest hi hpending
    rfl

/-- On the id of a job are the tags of its scopes, also if it gets the id only now. -/
theorem tags_id (h : Tidy s p₀ p jobs) (h₀ : Unissued s p₀) {i : ι}
    (hids : (jobs i).context = none → p.nextContext < 2 ^ 64) :
    p.tagsOn s ((jobs i).id p) = (jobs i).openTags := by
  unfold Job.id
  cases hi : (jobs i).context with
  | some c => exact h.tags i c hi
  | none => exact (h.unissued h₀ (hids hi)).2.trans (h.openTags_of_fresh hi).symm

theorem polls (h : Tidy s p₀ p jobs) (h₀ : Unissued s p₀) (hp : p.Aware s) {i : ι}
    {rest : Pending α} (hpending : (jobs i).pending = some rest)
    (hids : (jobs i).context = none → p.nextContext < 2 ^ 64) :
    ∃ q, ((jobs i).poll s).on p = (.ok ((jobs i).goesOn s p), q) ∧
      Tended s ((jobs i).begun p) q ∧
      q.tagsOn s =
        Function.update (p.tagsOn s) ((jobs i).id p) ((jobs i).goesOn s p).1.openTags ∧
      ((jobs i).goesOn s p).1.context = some ((jobs i).id p) ∧
      ((jobs i).goesOn s p).1.Placed s := by
  have hon : rest.On s ((jobs i).id p) := by
    cases hi : (jobs i).context with
    | some c =>
      unfold Job.id
      rw [hi]
      exact (h.placed i).on c rest hi hpending
    | none =>
      obtain ⟨x, rfl⟩ := (h.placed i).fresh rest hi hpending
      trivial
  have htags : p.tagsOn s = extended ((jobs i).id p) (jobs i).openTags
      (Function.update (p.tagsOn s) ((jobs i).id p) []) := by
    rw [extended_without, ← h.tags_id h₀ hids, Function.update_eq_self]
  obtain ⟨q, hon, hq, hleft, hcontext, hplaced⟩ := Job.poll_on hp hpending hon htags
  exact ⟨q, hon, hq, hleft.trans (extended_without _ _ _), hcontext, hplaced⟩

theorem drops (h : Tidy s p₀ p jobs) (hp : p.Aware s) {i : ι} (hi : (jobs i).context = some c) :
    ∃ q, (jobs i).drop.on p = (.ok ⟨some c, none⟩, q) ∧ Tended s p q ∧
      q.tagsOn s = Function.update (p.tagsOn s) c [] := by
  refine Job.drop_on hp (h.placed i) hi ?_
  rw [extended_without, ← h.tags i c hi, Function.update_eq_self]

variable [DecidableEq ι]

theorem acts (h : Tidy s p₀ p jobs) {i : ι} {j : Job α} (hi : (jobs i).context = some c)
    (hq : Tended s p q) (hids : q.nextContext ≤ 2 ^ 64) (hj : j.context = some c)
    (hplaced : j.Placed s) (htags : q.tagsOn s = Function.update (p.tagsOn s) c j.openTags) :
    Tidy s p₀ q (Function.update jobs i j) := by
  refine h.changed hq hids (fun k => ?_) (fun k => ?_) (fun k d hk => ?_) fun d hd => ?_
  · by_cases hk : k = i
    · rw [hk, Function.update_self, hi, hj]
    · rw [Function.update_of_ne hk]
  · by_cases hk : k = i
    · rw [hk, Function.update_self]
      exact hplaced
    · rw [Function.update_of_ne hk]
      exact h.placed k
  · rw [htags]
    by_cases hki : k = i
    · subst hki
      rw [hi] at hk
      cases hk
      rw [Function.update_self, Function.update_self]
    · have hd : d ≠ c := fun hdc => hki (h.numbered.distinct k i c (hdc ▸ hk) hi)
      rw [Function.update_of_ne hki, Function.update_of_ne hd, h.tags k d hk]
  · have hdc : d ≠ c := fun hdc => hd i (hdc ▸ hi)
    rw [htags, Function.update_of_ne hdc]

theorem begun (h : Tidy s p₀ p jobs) (h₀ : Unissued s p₀) {i : ι}
    (hids : (jobs i).context = none → p.nextContext < 2 ^ 64) :
    Tidy s p₀ ((jobs i).begun p)
      (Function.update jobs i ⟨some ((jobs i).id p), (jobs i).pending⟩) := by
  have htags := h.tags_id h₀ hids
  cases hi : (jobs i).context with
  | some c =>
    have hsame : (⟨some ((jobs i).id p), (jobs i).pending⟩ : Job α) = jobs i := by
      unfold Job.id
      rw [hi, Option.getD_some, ← hi]
    rw [hsame, Function.update_eq_self]
    unfold Job.begun
    rw [hi]
    exact h
  | none =>
    have hid : (jobs i).id p = ⟨UInt64.ofNat p.nextContext⟩ := by
      unfold Job.id
      rw [hi]
      rfl
    have hbegun : (jobs i).begun p = { p with nextContext := p.nextContext + 1 } := by
      unfold Job.begun
      rw [hi]
    rw [hbegun]
    rw [hid] at htags ⊢
    refine ⟨h.numbered.issue (hids hi) rfl, h.kept.turned _ _ _, h.globals, fun k => ?_,
      fun k d hk => ?_, fun d hd => ?_⟩
    · by_cases hk : k = i
      · rw [hk, Function.update_self]
        refine ⟨fun d rest _ hrest => ?_, fun rest hnone => nomatch hnone⟩
        obtain ⟨x, rfl⟩ := (h.placed i).fresh rest hi hrest
        trivial
      · rw [Function.update_of_ne hk]
        exact h.placed k
    · by_cases hki : k = i
      · rw [hki, Function.update_self] at hk ⊢
        cases hk
        exact htags
      · rw [Function.update_of_ne hki] at hk ⊢
        exact h.tags k d hk
    · refine h.elsewhere d fun k hk => hd k ?_
      have hki : k ≠ i := by
        rintro rfl
        rw [hi] at hk
        cases hk
      rw [Function.update_of_ne hki]
      exact hk

end Tidy

section Turns

variable [DecidableEq ι] {jobs₀ jobs' : ι → Job α}

inductive Turn (s : StoreId) (p : Program) (jobs : ι → Job α) : Program → (ι → Job α) → Prop
  | poll {q : Program} (i : ι) {j : Job α} {answer : Job.Answer α}
    (hon : ((jobs i).poll s).on p = (.ok (j, answer), q)) :
    Turn s p jobs q (Function.update jobs i j)
  | drop {q : Program} (i : ι) {j : Job α} (hon : (jobs i).drop.on p = (.ok j, q)) :
    Turn s p jobs q (Function.update jobs i j)
  | switch (t : ThreadId) : Turn s p jobs { p with thread := t } jobs
  | ask {q : Program} {c : ContextId} (hon : threadContext.on p = (.ok c, q)) : Turn s p jobs q jobs

/-- Any number of turns. Ids are not used up by them. -/
inductive Turns (s : StoreId) (p₀ : Program) (jobs₀ : ι → Job α) : Program → (ι → Job α) → Prop
  | start : Turns s p₀ jobs₀ p₀ jobs₀
  | next {p q : Program} {jobs jobs' : ι → Job α} (h : Turns s p₀ jobs₀ p jobs)
    (hturn : Turn s p jobs q jobs') (hids : q.nextContext ≤ 2 ^ 64) : Turns s p₀ jobs₀ q jobs'

theorem Job.poll_next {j : Job α} {rest : Pending α} {r : Except Halt (Job α × Job.Answer α)}
    (hp : p.Aware s) (hplaced : j.Placed s) (hnone : j.context = none)
    (hpending : j.pending = some rest) (hon : (j.poll s).on p = (r, q)) :
    p.nextContext < q.nextContext := by
  obtain ⟨x, rfl⟩ := hplaced.fresh rest hnone hpending
  have htags : p.tagsOn s = extended (j.id p) j.openTags (p.tagsOn s) := by
    unfold Job.openTags
    rw [hpending]
    exact (extended_nil _ _).symm
  obtain ⟨q', hon', hq, -⟩ := Job.poll_on hp hpending trivial htags
  rw [hon] at hon'
  cases hon'
  have hnext := hq.asked.next_le
  unfold Job.begun at hnext
  rw [hnone] at hnext
  exact hnext

theorem Turn.tidy (hturn : Turn s p jobs q jobs') (h : Tidy s p₀ p jobs) (h₀ : Unissued s p₀)
    (hp₀ : p₀.Aware s) (hids : q.nextContext ≤ 2 ^ 64) : Tidy s p₀ q jobs' := by
  have hp : p.Aware s := h.kept.aware.2 hp₀
  cases hturn with
  | @poll q i j answer hon =>
    cases hpending : (jobs i).pending with
    | none =>
      unfold Job.poll at hon
      rw [hpending] at hon
      cases hon
      rw [Function.update_eq_self]
      exact h
    | some rest =>
      have hleft : (jobs i).context = none → p.nextContext < 2 ^ 64 := fun hnone =>
        (Job.poll_next hp (h.placed i) hnone hpending hon).trans_le hids
      obtain ⟨q', hon', hq, htags, hcontext, hplaced⟩ := h.polls h₀ hp hpending hleft
      generalize (jobs i).goesOn s p = outcome at hon' htags hcontext hplaced
      rw [hon] at hon'
      cases hon'
      have hbegun : ((jobs i).begun p).tagsOn s = p.tagsOn s := by
        unfold tagsOn
        rw [Job.begun_stores]
      rw [← hbegun] at htags
      have hacts := (h.begun h₀ hleft).acts (by rw [Function.update_self]) hq hids hcontext hplaced htags
      rwa [Function.update_idem] at hacts
  | @drop q i j hon =>
    cases hi : (jobs i).context with
    | none =>
      rw [Job.drop_fresh hi] at hon
      cases hon
      refine h.changed (.refl p s) hids (fun k => ?_) (fun k => ?_) (fun k d hk => ?_) fun _ _ => rfl
      · by_cases hk : k = i
        · rw [hk, Function.update_self, hi]
        · rw [Function.update_of_ne hk]
      · by_cases hk : k = i
        · rw [hk, Function.update_self]
          exact ⟨nofun, nofun⟩
        · rw [Function.update_of_ne hk]
          exact h.placed k
      · have hki : k ≠ i := by
          rintro rfl
          rw [hi] at hk
          cases hk
        rw [Function.update_of_ne hki]
        exact h.tags k d hk
    | some c =>
      obtain ⟨q', hon', hq, htags⟩ := h.drops hp hi
      rw [hon] at hon'
      cases hon'
      exact h.acts hi hq hids rfl ⟨nofun, nofun⟩ htags
  | switch t =>
    exact ⟨⟨h.numbered.grown, h.numbered.threads, h.numbered.issued, h.numbered.distinct,
      h.numbered.apart⟩, h.kept.turned _ _ _, h.globals, h.placed, h.tags, h.elsewhere⟩
  | @ask q c hon =>
    obtain ⟨q', hon', hasked, hstores, hsame⟩ := threadContext_on p
    rw [hon] at hon'
    cases hon'
    have htags : q.tagsOn s = p.tagsOn s := by
      unfold tagsOn
      rw [hstores]
    exact h.changed (.of_stores hstores hsame hasked) hids (fun _ => rfl) h.placed
      (fun k c hk => htags ▸ h.tags k c hk) fun c _ => by rw [htags]

theorem Turns.tidy (h : Turns s p₀ jobs₀ p jobs) (hfresh : ∀ i, ∃ x, jobs₀ i = .ofWork x)
    (h₀ : Unissued s p₀) (hp₀ : p₀.Aware s) : Tidy s p₀ p jobs := by
  induction h with
  | start =>
    have hnone : ∀ i, (jobs₀ i).context = none := by
      intro i
      obtain ⟨x, hx⟩ := hfresh i
      rw [hx]
      rfl
    refine ⟨⟨le_rfl, h₀.threads, ?_, ?_, ?_⟩, .refl p₀ s, rfl, fun i => ?_, ?_, fun _ _ => rfl⟩
    · intro i c hi
      rw [hnone] at hi
      cases hi
    · intro i j c hi
      rw [hnone] at hi
      cases hi
    · intro i t c hi
      rw [hnone] at hi
      cases hi
    · obtain ⟨x, hx⟩ := hfresh i
      rw [hx]
      exact ⟨nofun, fun rest _ hrest => ⟨x, (Option.some.inj hrest).symm⟩⟩
    · intro i c hi
      rw [hnone] at hi
      cases hi
  | next _ hturn hids ih => exact hturn.tidy ih h₀ hp₀ hids

theorem Turn.keeps (hturn : Turn s p jobs q jobs') {i : ι} (hi : (jobs i).context = some c) :
    (jobs' i).context = some c := by
  cases hturn with
  | @poll q k j answer hon =>
    by_cases hk : i = k
    · subst hk
      rw [Function.update_self]
      exact Job.poll_keeps hi hon
    · rw [Function.update_of_ne hk]
      exact hi
  | @drop q k j hon =>
    by_cases hk : i = k
    · subst hk
      rw [Function.update_self]
      exact Job.drop_keeps hi hon
    · rw [Function.update_of_ne hk]
      exact hi
  | switch t => exact hi
  | ask hon => exact hi

theorem Turns.keeps (h : Turns s p jobs q jobs') {i : ι} (hi : (jobs i).context = some c) :
    (jobs' i).context = some c := by
  induction h with
  | start => exact hi
  | next _ hturn _ ih => exact hturn.keeps ih

structure Isolated (s : StoreId) (p₀ p : Program) (jobs : ι → Job α) : Prop where
  distinct : ∀ i j c, (jobs i).context = some c → (jobs j).context = some c → i = j
  apart : ∀ i t c, (jobs i).context = some c → (p.threads t).own ≠ some c
  keeps : ∀ q jobs', Turns s p jobs q jobs' → ∀ i c, (jobs i).context = some c →
    (jobs' i).context = some c
  snapshot : ∀ i c, (jobs i).context = some c →
    (p.stores s).tags.snapshot c = (p₀.stores s).tags.globals ++ (jobs i).openTags
  unpolled : ∀ i, (jobs i).context = none → (jobs i).openTags = []
  elsewhere : ∀ c, (∀ i, (jobs i).context ≠ some c) → p.tagsOn s c = p₀.tagsOn s c
  /-- A poll gives what the work means on an id that is the job's alone. It uses up two ids at most,
  the job's and the thread's. -/
  polls : ∀ i rest, (jobs i).pending = some rest →
    ((jobs i).context = none → p.nextContext < 2 ^ 64) →
    ((jobs i).goesOn s p).1.context = some ((jobs i).id p) ∧
      ∃ q, ((jobs i).poll s).on p = (.ok ((jobs i).goesOn s p), q) ∧
        (∀ d, d ≠ (jobs i).id p → q.tagsOn s d = p.tagsOn s d) ∧
        q.nextContext ≤ p.nextContext + 2
  drops : ∀ i, ∃ q, (jobs i).drop.on p = (.ok ⟨(jobs i).context, none⟩, q) ∧
    (∀ d, q.tagsOn s d = if (jobs i).context = some d then [] else p.tagsOn s d) ∧
    q.nextContext ≤ p.nextContext + 1
  released : (∀ i, (jobs i).openTags = []) → p.tagsOn s = p₀.tagsOn s ∧
    (p.stores s).tags.contextCount = (p₀.stores s).tags.contextCount
  globals : (p.stores s).tags.globals = (p₀.stores s).tags.globals
  others : Retagged s (p.stores s).tags p₀ p

/-- Jobs that are polled in any order, on any threads, and given up between any two polls, never see or
touch each other's tags. Each has an id of its own at all of its polls, and on it are the global tags
and the tags of the scopes that the job holds, in the order of nesting. What is completed or given up
has left nothing behind. -/
theorem jobs_stay_apart {jobs : ι → Job α} (hp₀ : p₀.Aware s) (h₀ : Unissued s p₀)
    {work : ι → Async α} (h : Turns s p₀ (fun i => .ofWork (work i)) p jobs) :
    Isolated s p₀ p jobs := by
  have ht := h.tidy (fun i => ⟨work i, rfl⟩) h₀ hp₀
  have hp : p.Aware s := ht.kept.aware.2 hp₀
  have hsame : (∀ i, (jobs i).openTags = []) → p.tagsOn s = p₀.tagsOn s := by
    intro hnone
    funext c
    by_cases hc : ∃ i, (jobs i).context = some c
    · obtain ⟨i, hi⟩ := hc
      rw [ht.tags i c hi, hnone, h₀.tags c (ht.numbered.issued i c hi).1]
    · exact ht.elsewhere c fun i hi => hc ⟨i, hi⟩
  exact
    { distinct := ht.numbered.distinct
      apart := ht.numbered.apart
      keeps := fun q jobs' hturns i c hi => hturns.keeps hi
      snapshot := fun i c hi => by
        rw [← ht.globals, ← ht.tags i c hi]
        rfl
      unpolled := fun i hi => ht.openTags_of_fresh hi
      elsewhere := ht.elsewhere
      polls := fun i rest hrest hids => by
        obtain ⟨q, hon, hq, htags, hcontext, -⟩ := ht.polls h₀ hp hrest hids
        refine ⟨hcontext, q, hon, fun d hd => by rw [htags, Function.update_of_ne hd], ?_⟩
        exact hq.asked.next_le_succ.trans (Nat.succ_le_succ ((jobs i).begun_next_le p))
      drops := fun i => by
        cases hi : (jobs i).context with
        | none =>
          exact ⟨p, Job.drop_fresh hi p, fun d => by rw [if_neg nofun], Nat.le_succ _⟩
        | some c =>
          obtain ⟨q, hon, hq, htags⟩ := ht.drops hp hi
          refine ⟨q, hon, fun d => ?_, hq.asked.next_le_succ⟩
          rw [htags, Function.update_apply]
          simp only [Option.some.injEq, eq_comm]
      released := fun hnone => by
        refine ⟨hsame hnone, ContextTags.count_congr fun c => ?_⟩
        change p.tagsOn s c = [] ↔ p₀.tagsOn s c = []
        rw [hsame hnone]
      globals := ht.globals
      others := ht.kept }

def sharing : Bool → Async (List Tag)
  | true => .within [⟨"zone", "a"⟩] (.within [⟨"zone", "a"⟩]
      (.segment (.current .task fun c => .look c .done) fun seen => .wait (.done seen))
      fun r => .done (r.toOption.getD [])) fun r => .done (r.toOption.getD [])
  | false => .within [⟨"zone", "a"⟩] (.wait (.done [])) fun _ => .done []

/-- Two jobs attach the same pair. One waits inside two scopes when the other one is given up. -/
theorem jobs_stay_apart_dropped : (start 1 false).Aware 0 ∧ Unissued 0 (start 1 false) ∧
    ∃ p jobs, Turns 0 (start 1 false) (fun i => .ofWork (sharing i)) p jobs ∧
      (jobs true).openTags = [⟨"zone", "a"⟩, ⟨"zone", "a"⟩] ∧ (jobs false).pending = none ∧
      ((jobs true).goesOn 0 p).2 = .ok (some [⟨"zone", "a"⟩, ⟨"zone", "a"⟩]) ∧
      Isolated 0 (start 1 false) p jobs := by
  have haware : (start 1 false).Aware 0 := rfl
  have hunissued : Unissued 0 (start 1 false) := by
    refine ⟨fun t c ht => ?_, fun _ _ => rfl⟩
    cases t <;> cases ht
  have h₀ : Turns 0 (start 1 false) (fun i => .ofWork (sharing i)) _ _ := .start
  have h₁ := h₀.next (.poll false rfl) (by decide)
  have h₂ := h₁.next (.poll true rfl) (by decide)
  obtain ⟨q, hon, -, hids⟩ := (jobs_stay_apart haware hunissued h₂).drops false
  have h₃ := h₂.next (.drop false hon) (hids.trans (by decide))
  exact ⟨haware, hunissued, q, _, h₃, rfl, rfl, rfl, jobs_stay_apart haware hunissued h₃⟩

end Turns
end ProfilingAgent
