import ProfilingAgent.Proofs.Sound

set_option autoImplicit false

/-!
# What uses of a store may bring about

A use of a store may tell an agent about a fork. Whoever may be told keeps to `Follows`, so that a
use of a store, and whatever a sampler does during a call, leaves agents in transition alone. Such
an action is halted only by a panic of a sampler.
-/
namespace ProfilingAgent.Program

open Act

def Broken (p : Program) (h : Halt) : Prop := (∃ m, h = .panicked m) ∧ ¬ p.Calm

/-- On `q`, the action leaves a program that follows `p`. Only a panic keeps it from its result. -/
def Goes {α : Type} (own free : Option AgentId) (p : Program) (x : Act α) (q : Program)
    (post : α → Program → Prop) : Prop :=
  Ends x q (fun a r => Follows own free p r ∧ post a r) (fun h r => Follows own free p r ∧ Broken p h)

namespace Goes

variable {α β : Type} {own free : Option AgentId} {p q : Program} {x : Act α}
  {post : α → Program → Prop}

theorem mono {post' : α → Program → Prop} (h : Goes own free p x q post)
    (hpost : ∀ a r, Follows own free p r → post a r → post' a r) : Goes own free p x q post' :=
  Ends.mono h (fun a r ⟨hr, ha⟩ => ⟨hr, hpost a r hr ha⟩) fun _ _ h => h

theorem bind {f : α → Act β} {post' : β → Program → Prop} (h : Goes own free p x q post)
    (hf : ∀ a r, Follows own free p r → post a r → Goes own free p (f a) r post') :
    Goes own free p (x >>= f) q post' := by
  unfold Goes
  rw [ends_bind]
  exact Ends.mono h (fun a r ⟨hr, ha⟩ => hf a r hr ha) fun _ _ h => h

theorem discard {post' : Unit → Program → Prop} (h : Goes own free p x q post)
    (hpost : ∀ a r, post a r → post' () r) : Goes own free p (Functor.discard x) q post' := by
  unfold Goes
  rw [ends_discard]
  exact Ends.mono h (fun a r ⟨hr, ha⟩ => ⟨hr, hpost a r ha⟩) fun _ _ h => h

/-- What leaves everybody alone may happen amidst what one agent does. -/
theorem amid (h : Goes none none q x q post) (hq : Follows own free p q) :
    Goes own free p x q (fun a r => Follows none none q r ∧ post a r) :=
  Ends.mono h (fun _ _ ⟨hr, ha⟩ => ⟨hq.trans (hr.widen free), hr, ha⟩)
    fun _ _ ⟨hr, hh, hc⟩ => ⟨hq.trans (hr.widen free), hh, fun h => hc (hq.calm.2 h)⟩

end Goes

/-- What is relied on of whoever tells agents: who has seen the fork is told nothing, and the
others, if they may have to be told at all, act on it and have seen it then. -/
structure Teller (tell : AgentId → Act Unit) (able : Prop) : Prop where
  abreast : ∀ {p a}, p.Abreast a → (tell a).on p = (.ok (), p)
  behind : able → ∀ {p a}, p.Sound → (p.agents a).alive = true → a < p.agents.size →
    (p.agents a).locked = false → (p.stores (p.agents a).store).hook.seen = p.generation →
    Goes none none p (tell a) p (fun _ _ => True) ∧ ((tell a).on p).2.Abreast a

section Uses

variable {tell : AgentId → Act Unit} {able : Prop} {p : Program} {a : AgentId} {s : StoreId}

/-- Looking for a fork on behalf of a store needs nobody to be told if the store has seen it. -/
def Ready (able : Prop) (p : Program) (s : StoreId) : Prop :=
  able ∨ (p.stores s).hook.seen = p.generation

theorem Ready.follows {own free : Option AgentId} {q : Program} (h : Ready able p s)
    (hq : Follows own free p q) : Ready able q s := by
  apply h.imp_right
  intro hs
  rw [hq.generation]
  rcases hq.told s with ht | ht
  · rw [ht, hs]
  · exact ht.1

theorem Ready.home {own free : Option AgentId} {q : Program} (h : Ready able p (p.agents a).store)
    (hq : Follows own free p q) : Ready able q (q.agents a).store := by
  rw [hq.store]
  exact h.follows hq

theorem inform_goes (T : Teller tell able) (hp : p.Sound) (hs : Ready able p s) {w : Watcher}
    (hw : (p.stores s).hook.watcher = some w) (hseen : (p.stores s).hook.seen ≠ p.generation) :
    Goes none none p (inform tell w) (p.mark s) (fun _ q => (q.stores s).hook.seen = q.generation) := by
  have able : able := hs.resolve_right hseen
  have hm : (p.mark s).Sound := (Same.mark p s).sound hp
  have hmark : ((p.mark s).stores s).hook.seen = p.generation := by simp
  -- Nobody that watches the store has to be told.
  have quiet : ∀ q, Same (p.mark s) q → (∀ t, (q.stores t).hook = ((p.mark s).stores t).hook) →
      (∀ b, w = .agent b → (p.agents b).alive = true → q.Abreast b) →
      Follows none none p q ∧ (q.stores s).hook.seen = q.generation := by
    intro q hq hh hb
    refine ⟨Follows.of_mark (hq.follows hm fun t => by rw [hh]) fun b hwb ha => ?_, ?_⟩
    · rw [hw, Option.some.injEq] at hwb
      exact hb b hwb ha
    · rw [hh, hmark, hq.generation]
      rfl
  cases w with
  | counter c =>
    unfold Goes inform
    rw [ends_modify]
    dsimp only
    split
    · exact quiet _ (Same.count _ _) (fun _ => rfl) (by simp)
    · exact quiet _ ⟨rfl, rfl, rfl, rfl, fun _ => rfl⟩ (fun _ => rfl) (by simp)
  | agent b =>
    unfold Goes inform
    simp only [ends_bind, ends_get]
    have here : Same (p.mark s) (p.mark s) := ⟨rfl, rfl, rfl, rfl, fun _ => rfl⟩
    by_cases hb : ((p.mark s).agents b).alive = true
    · rw [if_pos hb]
      obtain ⟨hsize, hstore⟩ := hp.home s b hw
      by_cases hab : (p.mark s).Abreast b
      · rw [ends_of_on (T.abreast hab)]
        refine quiet _ here (fun _ => rfl) fun c hc _ => ?_
        obtain rfl : b = c := by simpa using hc
        exact hab
      · have hl : (p.agents b).locked = false := hm.unlocked hab
        obtain ⟨hgo, hafter⟩ := T.behind able hm hb hsize hl (by
          rw [mark_agents, hstore]
          exact hmark)
        have told : Ends (tell b) (p.mark s) (fun _ q => q.Abreast b) (fun _ q => q.Abreast b) := by
          rw [ends_iff]
          exact ⟨fun _ _ => hafter, fun _ _ => hafter⟩
        have follow : ∀ q, Follows none none (p.mark s) q → q.Abreast b → Follows none none p q := by
          intro q hq hbq
          refine Follows.of_mark hq fun c hc _ => ?_
          rw [hw, Option.some.injEq, Watcher.agent.injEq] at hc
          exact hc ▸ hbq
        have seen : ∀ q, Follows none none (p.mark s) q → (q.stores s).hook.seen = q.generation := by
          intro q hq
          have hready : Ready False (p.mark s) s := .inr hmark
          exact (hready.follows hq).resolve_left id
        refine Ends.mono (Ends.and hgo told) ?_ ?_
        · rintro _ q ⟨⟨hq, -⟩, hbq⟩
          exact ⟨follow q hq hbq, seen q hq⟩
        · rintro h q ⟨⟨hq, hbroken⟩, hbq⟩
          exact ⟨follow q hq hbq, hbroken⟩
    · rw [if_neg hb]
      refine quiet _ here (fun _ => rfl) fun c hc ha => ?_
      obtain rfl : b = c := by simpa using hc
      exact absurd ha hb

theorem checkStore_seen (h : (p.stores s).hook.seen = p.generation) :
    (checkStore tell s).on p = (.ok (), p) := by
  unfold checkStore
  rw [on_bind]
  change ((if (p.stores s).hook.seen ≠ p.generation then _ else _ : Act Unit)).on p = _
  rw [if_neg (by simpa using h)]
  rfl

theorem checkStore_behind {w : Watcher} (h : (p.stores s).hook.seen ≠ p.generation)
    (hw : (p.stores s).hook.watcher = some w) :
    (checkStore tell s).on p = (inform tell w).on (p.mark s) := by
  unfold checkStore
  rw [on_bind]
  change ((if (p.stores s).hook.seen ≠ p.generation then _ else _ : Act Unit)).on p = _
  rw [if_pos h, on_bind, hw]
  rfl

theorem on_inform : (inform tell (.agent a)).on p =
    if (p.agents a).alive = true then (tell a).on p else (.ok (), p) := by
  unfold inform
  rw [on_bind]
  change ((if (p.agents a).alive = true then tell a else pure () : Act Unit)).on p = _
  split <;> rfl

theorem checkStore_goes (T : Teller tell able) (hp : p.Sound) (hs : Ready able p s) :
    Goes none none p (checkStore tell s) p (fun _ q => (q.stores s).hook.seen = q.generation) := by
  unfold Goes checkStore
  simp only [ends_bind, ends_get]
  by_cases hseen : (p.stores s).hook.seen = p.generation
  · rw [if_neg (by simpa using hseen)]
    exact ⟨Follows.refl hp, hseen⟩
  · rw [if_pos hseen, ends_bind]
    change Ends _ (p.mark s) _ _
    cases hw : (p.stores s).hook.watcher with
    | none =>
      refine ⟨Follows.of_mark (Follows.refl ((Same.mark p s).sound hp)) ?_, by simp⟩
      simp [hw]
    | some w => exact inform_goes T hp hs hw hseen

theorem Follows.retag {own free : Option AgentId} {q : Program} (h : Follows own free p q) (tags : TagStore) :
    Follows own free p (q.retag s tags) := by
  refine h.trans (((Same.retag q s tags).follows h.sound fun t => ?_).widen free)
  by_cases ht : t = s <;> simp [ht]

theorem Follows.annotate {own free : Option AgentId} {q : Program} (h : Follows own free p q)
    (notes : List (ThreadId × Log.Event)) : Follows own free p (q.annotate notes) :=
  h.trans (((Same.annotate q notes).follows h.sound fun _ => rfl).widen free)

theorem revise_goes (T : Teller tell able) (hp : p.Sound) (hs : Ready able p s)
    {use : TagStore → Except TagError TagStore} :
    Goes none none p (revise tell s use) p (fun r q => (q.stores s).hook.seen = q.generation ∧
      ∀ e, r = .error e → ∃ tags, use tags = .error e) := by
  unfold revise
  apply (checkStore_goes T hp hs).bind
  intro _ q hq hseen
  unfold Goes
  simp only [ends_bind, ends_store]
  cases huse : use (q.stores s).tags with
  | error e => exact ⟨hq, hseen, fun e' he => ⟨_, huse.trans (by simpa using he)⟩⟩
  | ok tags =>
    simp only [ends_bind, ends_setTags, ends_pure]
    exact ⟨hq.retag tags, by simpa using hseen, by simp⟩

theorem replaceGlobals_goes (T : Teller tell able) (hp : p.Sound) (hs : Ready able p s)
    {old new : List Tag} (hnew : ∀ t ∈ new, t.isValid = true) :
    Goes none none p (replaceGlobalsWith tell s old new) p
      (fun r q => r = .ok () ∧ (q.stores s).hook.seen = q.generation) := by
  refine (revise_goes T hp hs).mono fun r q _ ⟨hseen, herr⟩ => ⟨?_, hseen⟩
  cases r with
  | ok _ => rfl
  | error e =>
    obtain ⟨tags, htags⟩ := herr e rfl
    unfold TagStore.replaceGlobals at htags
    rw [(Tag.checkAll_eq_ok_iff new).2 hnew] at htags
    cases htags

theorem useOnce_goes (T : Teller tell able) (hp : p.Sound) (hs : Ready able p s) (u : Use)
    (ha : u = .state → p.Abreast a) : Goes none none p (useOnce tell a s u) p (fun _ _ => True) := by
  have check {α : Type} (f : Act α) (hf : ∀ q, Follows none none p q → Goes none none p f q fun _ _ => True) :
      Goes none none p (checkStore tell s >>= fun _ => f) p fun _ _ => True :=
    (checkStore_goes T hp hs).bind fun _ q hq _ => hf q hq
  cases u with
  | addTags c tags =>
    refine Goes.discard (Goes.bind (revise_goes T hp hs) fun r q hq _ => ?_) fun _ _ h => h
    cases r with
    | error e => exact ⟨hq, trivial⟩
    | ok _ =>
      unfold Goes
      dsimp only
      split
      · exact ⟨hq.annotate _, trivial⟩
      · exact ⟨hq, trivial⟩
  | removeTags c tags =>
    refine Goes.discard (check _ fun q hq => ?_) fun _ _ h => h
    unfold Goes
    simp only [ends_bind, ends_store, ends_setTags]
    split
    · exact ⟨(hq.retag _).annotate _, trivial⟩
    · exact ⟨hq.retag _, trivial⟩
  | addGlobal t =>
    exact Goes.discard (revise_goes T hp hs) fun _ _ _ => trivial
  | removeGlobal t =>
    refine Goes.discard (check _ fun q hq => ?_) fun _ _ h => h
    exact ⟨hq.retag _, trivial⟩
  | replaceGlobals old new =>
    exact Goes.discard (revise_goes T hp hs) fun _ _ _ => trivial
  | snapshot c =>
    refine Goes.discard (check _ fun q hq => ?_) fun _ _ h => h
    exact ⟨hq, trivial⟩
  | clearContext c =>
    refine Goes.discard (check _ fun q hq => ?_) fun _ _ h => h
    exact ⟨hq.retag _, trivial⟩
  | state =>
    unfold Goes
    change Ends (tell a) p _ _
    rw [ends_of_on (T.abreast (ha rfl))]
    exact ⟨Follows.refl hp, trivial⟩

theorem useAll_goes (T : Teller tell able) (hp : p.Sound) (hs : Ready able p s)
    (ha : p.Abreast a) (us : List Use) : Goes none none p (useAll tell a s us) p (fun _ _ => True) := by
  induction us generalizing p with
  | nil => exact ⟨Follows.refl hp, trivial⟩
  | cons u us ih =>
    unfold useAll
    apply (useOnce_goes T hp hs u fun _ => ha).bind
    intro _ q hq _
    exact ((ih hq.sound (hs.follows hq) (hq.abreast a ha)).amid hq).mono fun _ _ _ _ => trivial

end Uses
end ProfilingAgent.Program
