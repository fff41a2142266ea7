import Mathlib.Algebra.Order.Group.Multiset
import ProfilingAgent.Proofs.Accounts
import ProfilingAgent.Proofs.Undisturbed

set_option autoImplicit false

/-!
# Scopes that are open

Scopes on a store are opened and closed in any order, and users attach single tags and take them off
again. Taking a tag off removes its latest occurrence, whoever attached it. So the order of a
context's tags depends on the order of closing, but how often each tag is there does not: as a
multiset the tags of a context are those of the open scopes and those that users attached.
-/
namespace ProfilingAgent

open Act Program

/-- How often users attached each tag to each context. -/
abbrev Manual := ContextId → Multiset Tag

def opened (live : List Scope) : Except TagError Scope → List Scope
  | .ok x => x :: live
  | .error _ => live

def Manual.attached (manual : Manual) (c : ContextId) (t : Tag) : Except TagError Unit → Manual
  | .ok _ => Function.update manual c (t ::ₘ manual c)
  | .error _ => manual

def Manual.taken (manual : Manual) (c : ContextId) (t : Tag) : Manual :=
  Function.update manual c ((manual c).erase t)

/-- What has come of a program while scopes on one store were opened and closed. Along with it, the
scopes that are open and what users attached and did not take off again. -/
inductive Scoping (s : StoreId) (p₀ : Program) : Program → List Scope → Manual → Prop
  | start : Scoping s p₀ p₀ [] fun _ => 0
  | enter {p q : Program} {live : List Scope} {manual : Manual} {r : Except TagError Scope}
    (h : Scoping s p₀ p live manual) (provider : Provider) (tags : List Tag)
    (hon : (Program.enter s provider tags).on p = (.ok r, q)) : Scoping s p₀ q (opened live r) manual
  | exit {p q : Program} {live : List Scope} {manual : Manual} (h : Scoping s p₀ p live manual)
    {x : Scope} (hx : x ∈ live) (hon : (Program.exit x).on p = (.ok (), q)) :
    Scoping s p₀ q (live.erase x) manual
  | attach {p q : Program} {live : List Scope} {manual : Manual} {r : Except TagError Unit}
    (h : Scoping s p₀ p live manual) (c : ContextId) (t : Tag)
    (hon : (Program.addTag s c t).on p = (.ok r, q)) : Scoping s p₀ q live (manual.attached c t r)
  | detach {p q : Program} {live : List Scope} {manual : Manual} {found : Bool}
    (h : Scoping s p₀ p live manual) (c : ContextId) {t : Tag} (ht : t ∈ manual c)
    (hon : (Program.removeTag s c t).on p = (.ok found, q)) : Scoping s p₀ q live (manual.taken c t)
  | turn {p : Program} {live : List Scope} {manual : Manual} (h : Scoping s p₀ p live manual)
    (threads : Table Thread) (thread : ThreadId) (next : Nat) :
    Scoping s p₀ { p with threads := threads, thread := thread, nextContext := next } live manual
  /-- Something else is done, if no sampler panics or touches a store. The process may fork. -/
  | operate {p : Program} {live : List Scope} {manual : Manual} (h : Scoping s p₀ p live manual)
    (hp : p.Peaceful) (op : Operation) (hfits : op.Fits p) (hop : op.Licensed (.sparing s)) :
    Scoping s p₀ (op.after p) live manual

def openTags (c : ContextId) : List Scope → Multiset Tag
  | [] => 0
  | x :: rest => (if x.context = c then (x.tags : Multiset Tag) else 0) + openTags c rest

theorem openTags_erase {c : ContextId} {x : Scope} {live : List Scope} (h : x ∈ live) :
    openTags c live = (if x.context = c then (x.tags : Multiset Tag) else 0) +
      openTags c (live.erase x) := by
  induction live with
  | nil => cases h
  | cons y rest ih =>
    by_cases hy : y = x
    · rw [hy, List.erase_cons_head, openTags]
    · have hmem : x ∈ rest := (List.mem_cons.1 h).resolve_left (Ne.symm hy)
      rw [List.erase_cons_tail (by simpa using hy), openTags, openTags, ih hmem]
      exact add_left_comm _ _ _

theorem openTags_of_elsewhere {c : ContextId} {live : List Scope}
    (h : ∀ x ∈ live, x.context ≠ c) : openTags c live = 0 := by
  induction live with
  | nil => rfl
  | cons y rest ih =>
    rw [openTags, if_neg (h y List.mem_cons_self), ih fun x hx => h x (List.mem_cons_of_mem y hx)]
    rfl

theorem removeBatch_snd {batch tags : List Tag} (h : (batch : Multiset Tag) ≤ tags) :
    (removeBatch batch tags).2 = batch.length := by
  induction batch with
  | nil => rfl
  | cons t rest ih =>
    have hadd : ({t} : Multiset Tag) + rest ≤ tags := h
    have hmem : t ∈ (removeBatch rest tags).1 := by
      rw [← Multiset.mem_coe, coe_removeBatch, ← Multiset.singleton_le]
      exact le_tsub_of_add_le_right hadd
    have hrest : (rest : Multiset Tag) ≤ tags := (Multiset.le_add_left _ _).trans hadd
    have hstep : (removeBatch (t :: rest) tags).2 = (removeBatch rest tags).2 + 1 := by
      change (if t ∈ (removeBatch rest tags).1 then _ else _ : List Tag × Nat).2 = _
      rw [if_pos hmem]
      rfl
    rw [hstep, ih hrest, List.length_cons]

namespace TagStore

variable (tags : TagStore) (c : ContextId) {batch : List Tag}

theorem addTags_valid (h : ∀ t ∈ batch, t.isValid = true) :
    (attempted tags (tags.addTags c batch)).1 = .ok () ∧ ∀ d,
      (attempted tags (tags.addTags c batch)).2.contexts.tagsOf d =
        if d = c then tags.contexts.tagsOf c ++ batch else tags.contexts.tagsOf d := by
  unfold addTags
  rw [(Tag.checkAll_eq_ok_iff batch).2 h]
  dsimp only
  by_cases hb : batch = []
  · rw [if_pos hb]
    refine ⟨rfl, fun d => ?_⟩
    by_cases hd : d = c
    · rw [if_pos hd, hb, List.append_nil, hd]
      rfl
    · rw [if_neg hd]
      rfl
  · rw [if_neg hb]
    exact ⟨rfl, fun d => ContextTags.tagsOf_put _ _ _ _⟩

theorem addTags_blank (h : ∃ t ∈ batch, t.isValid = false) :
    ∃ e, tags.addTags c batch = .error e := by
  unfold addTags
  cases hcheck : Tag.checkAll batch with
  | error e => exact ⟨e, rfl⟩
  | ok _ =>
    obtain ⟨t, ht, hblank⟩ := h
    rw [(Tag.checkAll_eq_ok_iff batch).1 hcheck t ht] at hblank
    cases hblank

theorem removeTags_tagsOf (d : ContextId) : (tags.removeTags c batch).1.contexts.tagsOf d =
    if d = c then (removeBatch batch (tags.contexts.tagsOf c)).1 else tags.contexts.tagsOf d :=
  ContextTags.tagsOf_put _ _ _ _

end TagStore

namespace Program

variable {p q r : Program} {s : StoreId} {c : ContextId} {batch : List Tag}

def contextTags (p : Program) (s : StoreId) (c : ContextId) : Multiset Tag :=
  ((p.stores s).tags.contexts.tagsOf c : List Tag)

structure Served (s : StoreId) (p q : Program) : Prop where
  aware : q.Aware s
  peaceful : p.Peaceful → q.Peaceful

theorem Served.annotate (h : Served s p q) (notes : List (ThreadId × Log.Event)) :
    Served s p (q.annotate notes) where
  aware := h.aware
  peaceful hp := by
    have hq := h.peaceful hp
    exact ⟨hq.rest.same (Same.annotate q notes) fun _ => .inl rfl, hq.calm, hq.quiet⟩

theorem Looked.served {tags : TagStore} (h : Looked s p q) (hr : Retagged s tags q r) :
    Served s p r :=
  ⟨hr.aware.2 h.aware, fun hp => hr.peaceful (h.peaceful hp)⟩

theorem addTags_attaches (hp : Undisturbed s p) (h : ∀ t ∈ batch, t.isValid = true) :
    ∃ q, (addTags s c batch).on p = (.ok (.ok ()), q) ∧ Served s p q ∧
      ∀ d, q.contextTags s d = p.contextTags s d + if d = c then (batch : Multiset Tag) else 0 := by
  obtain ⟨q, hq⟩ := hp.look
  obtain ⟨hok, htags⟩ := (q.stores s).tags.addTags_valid c h
  have hyields : Yields (addTags s c batch) q s _ _ := addTags_yields hq.aware c batch
  obtain ⟨r, hon, hr⟩ := hyields
  have hlook : (addTags s c batch).on p = (addTags s c batch).on q := by
    unfold addTags addTagsWith revise
    rw [bind_assoc]
    exact hq.use
  refine ⟨r, by rw [hlook, hon, hok], hq.served hr, fun d => ?_⟩
  unfold contextTags
  rw [hr.tags, htags, ← hq.contexts]
  by_cases hd : d = c
  · rw [if_pos hd, if_pos hd, ← Multiset.coe_add, hd]
  · rw [if_neg hd, if_neg hd, add_zero]

/-- A batch with a blank key is refused, and nothing has happened but that somebody has looked for a
fork. -/
theorem addTags_refuses (hp : Undisturbed s p) (h : ∃ t ∈ batch, t.isValid = false) :
    ∃ e q, (addTags s c batch).on p = (.ok (.error e), q) ∧ Looked s p q := by
  obtain ⟨q, hq⟩ := hp.look
  obtain ⟨e, he⟩ := (q.stores s).tags.addTags_blank c h
  refine ⟨e, q, ?_, hq⟩
  unfold addTags addTagsWith revise
  rw [bind_assoc, on_bind, hq.on]
  dsimp only
  rw [bind_assoc, on_bind, on_store]
  dsimp only
  rw [he]
  rfl

theorem removeTags_takes (hp : Undisturbed s p) (h : (batch : Multiset Tag) ≤ p.contextTags s c) :
    ∃ q, (removeTags s c batch).on p = (.ok batch.length, q) ∧ Served s p q ∧
      ∀ d, q.contextTags s d = p.contextTags s d - if d = c then (batch : Multiset Tag) else 0 := by
  obtain ⟨q, hq⟩ := hp.look
  have hyields : Yields (removeTags s c batch) q s _ _ := removeTags_yields hq.aware c batch
  obtain ⟨r, hon, hr⟩ := hyields
  have hlook : (removeTags s c batch).on p = (removeTags s c batch).on q := hq.use
  have hcount : ((q.stores s).tags.removeTags c batch).2 = batch.length := by
    apply removeBatch_snd
    rw [hq.contexts]
    exact h
  refine ⟨r, by rw [hlook, hon, hcount], hq.served hr, fun d => ?_⟩
  unfold contextTags
  rw [hr.tags, TagStore.removeTags_tagsOf, ← hq.contexts]
  by_cases hd : d = c
  · rw [if_pos hd, if_pos hd, coe_removeBatch, hd]
  · rw [if_neg hd, if_neg hd, tsub_zero]

/-- Nothing has changed but threads, tasks, and the count of their contexts. -/
def Turned (p q : Program) : Prop :=
  ∃ threads thread next, q = { p with threads := threads, thread := thread, nextContext := next }

theorem Turned.still (h : Turned p q) : (p.Peaceful → q.Peaceful) ∧
    (q.Aware s ↔ p.Aware s) ∧ q.stores = p.stores := by
  obtain ⟨threads, thread, next, rfl⟩ := h
  refine ⟨fun hp => ⟨hp.rest.same ⟨rfl, rfl, rfl, rfl, fun _ => rfl⟩ fun _ => .inl rfl, hp.calm, hp.quiet⟩,
    Iff.rfl, rfl⟩

theorem Turned.undisturbed (h : Turned p q) (hp : Undisturbed s p) : Undisturbed s q :=
  hp.imp (h.still (s := s)).2.1.2 (h.still (s := s)).1

theorem currentContext_turned (provider : Provider) : ∃ c q,
    (currentContext provider).on p = (.ok c, q) ∧ Turned p q ∧
      ∀ d, provider = .fixed d → c = d ∧ q = p := by
  have found : ∃ c q, threadContext.on p = (.ok c, q) ∧ Turned p q := by
    have hget : (get : Act Program).on p = (.ok p, p) := rfl
    unfold threadContext
    rw [on_bind, hget]
    dsimp only
    cases (p.threads p.thread).own with
    | some c => exact ⟨c, p, rfl, p.threads, p.thread, p.nextContext, rfl⟩
    | none => exact ⟨_, _, rfl, _, _, _, rfl⟩
  cases provider with
  | fixed c => exact ⟨c, p, rfl, ⟨p.threads, p.thread, p.nextContext, rfl⟩, by simp⟩
  | thread =>
    obtain ⟨c, q, hon, hq⟩ := found
    exact ⟨c, q, hon, hq, by simp⟩
  | task =>
    have hget : (get : Act Program).on p = (.ok p, p) := rfl
    unfold currentContext taskContext
    rw [on_bind, hget]
    dsimp only
    cases (p.threads p.thread).task with
    | some c => exact ⟨c, p, rfl, ⟨p.threads, p.thread, p.nextContext, rfl⟩, by simp⟩
    | none =>
      obtain ⟨c, q, hon, hq⟩ := found
      exact ⟨c, q, hon, hq, by simp⟩

theorem enter_opens (hp : Undisturbed s p) (provider : Provider) (h : ∀ t ∈ batch, t.isValid = true) :
    ∃ x q, (enter s provider batch).on p = (.ok (.ok x), q) ∧ x.store = s ∧ x.tags = batch ∧
      Served s p q ∧ ∀ d, q.contextTags s d = p.contextTags s d +
        if x.context = d then (batch : Multiset Tag) else 0 := by
  obtain ⟨c, p', hc, hturn, -⟩ := currentContext_turned (p := p) provider
  obtain ⟨q, hon, hq, htags⟩ := addTags_attaches (c := c) (hturn.undisturbed hp) h
  obtain ⟨hpeace, -, hstores⟩ := hturn.still (s := s)
  have hpq : Served s p q := ⟨hq.aware, fun hp => hq.peaceful (hpeace hp)⟩
  have hentered : ∃ notes, (enter s provider batch).on p =
      (.ok (.ok ⟨s, c, batch⟩), q.annotate notes) := by
    unfold enter enterContext
    rw [on_bind, hc]
    dsimp only
    rw [on_bind, hon]
    exact ⟨_, rfl⟩
  obtain ⟨notes, hentered⟩ := hentered
  refine ⟨⟨s, c, batch⟩, q.annotate notes, hentered, rfl, rfl, hpq.annotate notes, fun d => ?_⟩
  · have hsame : p'.contextTags s d = p.contextTags s d := by
      unfold contextTags
      rw [hstores]
    rw [← hsame]
    refine (htags d).trans ?_
    simp only [eq_comm]

/-- A scope that cannot be opened leaves what is left if only its context is found and somebody looks
for a fork. -/
theorem enter_refuses (hp : Undisturbed s p) (provider : Provider)
    (h : ∃ t ∈ batch, t.isValid = false) : ∃ e p' q,
      (enter s provider batch).on p = (.ok (.error e), q) ∧ Turned p p' ∧ Looked s p' q ∧
        ∀ d, provider = .fixed d → p' = p := by
  obtain ⟨c, p', hc, hturn, hfixed⟩ := currentContext_turned (p := p) provider
  obtain ⟨e, q, hon, hlooked⟩ := addTags_refuses (c := c) (hturn.undisturbed hp) h
  refine ⟨e, p', q, ?_, hturn, hlooked, fun d hd => (hfixed d hd).2⟩
  unfold enter
  rw [on_bind, hc]
  dsimp only
  unfold enterContext
  rw [on_bind, hon]
  rfl

theorem exit_closes {x : Scope} (hp : Undisturbed s p) (hx : x.store = s)
    (h : (x.tags : Multiset Tag) ≤ p.contextTags s x.context) :
    ∃ q, (exit x).on p = (.ok (), q) ∧ Served s p q ∧ ∀ d, q.contextTags s d =
      p.contextTags s d - if x.context = d then (x.tags : Multiset Tag) else 0 := by
  obtain ⟨q, hon, hq, htags⟩ := removeTags_takes hp h
  have hexited : ∃ notes, (exit x).on p = (.ok (), q.annotate notes) := by
    unfold exit
    rw [hx, on_bind, on_discard, hon]
    exact ⟨_, rfl⟩
  obtain ⟨notes, hexited⟩ := hexited
  refine ⟨q.annotate notes, hexited, hq.annotate notes, fun d => (htags d).trans ?_⟩
  simp only [eq_comm]

theorem removeTag_finds {t : Tag} (hp : Undisturbed s p) (h : t ∈ p.contextTags s c) :
    ∃ q, (removeTag s c t).on p = (.ok true, q) ∧ Served s p q ∧ ∀ d, q.contextTags s d =
      p.contextTags s d - if d = c then ({t} : Multiset Tag) else 0 := by
  have hle : (([t] : List Tag) : Multiset Tag) ≤ p.contextTags s c := Multiset.singleton_le.2 h
  obtain ⟨q, hon, hq, htags⟩ := removeTags_takes hp hle
  refine ⟨q, ?_, hq, htags⟩
  unfold removeTag
  rw [on_bind, hon]
  rfl

end Program

variable {s : StoreId} {p₀ p : Program} {live : List Scope} {manual : Manual}

structure Tallied (s : StoreId) (p₀ p : Program) (live : List Scope) (manual : Manual) : Prop where
  undisturbed : Undisturbed s p
  peaceful : p₀.Peaceful → p.Peaceful
  homes : ∀ x ∈ live, x.store = s
  tags : ∀ c, p.contextTags s c = p₀.contextTags s c + manual c + openTags c live

namespace Tallied

variable {c : ContextId}

theorem le_of_live {x : Scope} (h : Tallied s p₀ p live manual) (hx : x ∈ live) :
    (x.tags : Multiset Tag) ≤ p.contextTags s x.context := by
  rw [h.tags, openTags_erase hx, if_pos rfl]
  exact (Multiset.le_add_right _ _).trans (Multiset.le_add_left _ _)

theorem mem_of_manual {t : Tag} (h : Tallied s p₀ p live manual) (ht : t ∈ manual c) :
    t ∈ p.contextTags s c := by
  rw [h.tags]
  exact Multiset.mem_add.2 (.inl (Multiset.mem_add.2 (.inr ht)))

theorem served {q : Program} {live' : List Scope} {manual' : Manual} (h : Tallied s p₀ p live manual)
    (hq : Served s p q) (hhomes : ∀ x ∈ live', x.store = s)
    (htags : ∀ d, q.contextTags s d = p₀.contextTags s d + manual' d + openTags d live') :
    Tallied s p₀ q live' manual' :=
  ⟨.inl hq.aware, fun hp => hq.peaceful (h.peaceful hp), hhomes, htags⟩

end Tallied

theorem Scoping.tallied (h₀ : Undisturbed s p₀) (h : Scoping s p₀ p live manual) :
    Tallied s p₀ p live manual := by
  induction h with
  | start => exact ⟨h₀, id, by simp, fun c => by simp [openTags]⟩
  | @enter p q live manual r _ provider tags hon ih =>
    by_cases hvalid : ∀ t ∈ tags, t.isValid = true
    · obtain ⟨x, q', hon', hstore, hx, hq, htags⟩ := enter_opens ih.undisturbed provider hvalid
      rw [hon] at hon'
      cases hon'
      refine ih.served hq (fun y hy => ?_) fun d => ?_
      · rcases List.mem_cons.1 hy with rfl | hy
        · exact hstore
        · exact ih.homes y hy
      · rw [htags, ih.tags, opened, openTags, hx, add_assoc, add_comm (openTags d live)]
    · have hblank : ∃ t ∈ tags, t.isValid = false := by simpa using hvalid
      obtain ⟨e, p', q', hon', hturn, hlooked, -⟩ := enter_refuses ih.undisturbed provider hblank
      rw [hon] at hon'
      cases hon'
      obtain ⟨hpeace, -, hstores⟩ := hturn.still (s := s)
      refine ih.served ⟨hlooked.aware, fun hp => hlooked.peaceful (hpeace hp)⟩ ih.homes fun d => ?_
      rw [opened, ← ih.tags]
      unfold contextTags
      rw [hlooked.contexts, hstores]
  | @exit p q live manual _ x hx hon ih =>
    obtain ⟨q', hon', hq, htags⟩ := exit_closes ih.undisturbed (ih.homes x hx) (ih.le_of_live hx)
    rw [hon] at hon'
    cases hon'
    refine ih.served hq (fun y hy => ih.homes y (List.mem_of_mem_erase hy)) fun d => ?_
    rw [htags, ih.tags, openTags_erase hx, add_comm (ite _ _ _) (openTags d _), ← add_assoc,
      Multiset.add_sub_cancel_right]
  | @attach p q live manual r _ c t hon ih =>
    by_cases hvalid : t.isValid = true
    · have hall : ∀ u ∈ [t], u.isValid = true := by simpa using hvalid
      obtain ⟨q', hon', hq, htags⟩ := addTags_attaches (c := c) ih.undisturbed hall
      rw [Program.addTag, hon'] at hon
      cases hon
      refine ih.served hq ih.homes fun d => ?_
      rw [htags, ih.tags, Manual.attached]
      by_cases hd : d = c
      · subst hd
        have hcons : t ::ₘ manual d = manual d + ([t] : List Tag) := add_comm ([t] : Multiset Tag) _
        rw [if_pos rfl, Function.update_self, hcons, add_right_comm, add_assoc (p₀.contextTags s d)]
      · rw [if_neg hd, Function.update_of_ne hd, add_zero]
    · have hblank : ∃ u ∈ [t], u.isValid = false := by simpa using hvalid
      obtain ⟨e, q', hon', hlooked⟩ := addTags_refuses (c := c) ih.undisturbed hblank
      rw [Program.addTag, hon'] at hon
      cases hon
      refine ih.served ⟨hlooked.aware, hlooked.peaceful⟩ ih.homes fun d => ?_
      rw [Manual.attached, ← ih.tags]
      unfold contextTags
      rw [hlooked.contexts]
  | @detach p q live manual found _ c t ht hon ih =>
    obtain ⟨q', hon', hq, htags⟩ := removeTag_finds ih.undisturbed (ih.mem_of_manual ht)
    rw [hon] at hon'
    cases hon'
    refine ih.served hq ih.homes fun d => ?_
    rw [htags, ih.tags, Manual.taken]
    by_cases hd : d = c
    · subst hd
      rw [if_pos rfl, Function.update_self, Multiset.sub_singleton,
        Multiset.erase_add_left_pos _ (Multiset.mem_add.2 (.inr ht)), Multiset.erase_add_right_pos _ ht]
    · rw [if_neg hd, Function.update_of_ne hd, tsub_zero]
  | @turn p live manual _ threads thread next ih =>
    have hturn : Turned p { p with threads := threads, thread := thread, nextContext := next } :=
      ⟨threads, thread, next, rfl⟩
    exact ⟨hturn.undisturbed ih.undisturbed, fun hp => hturn.still (s := s) |>.1 (ih.peaceful hp),
      ih.homes, ih.tags⟩
  | @operate p live manual _ hp op hfits hop ih =>
    obtain ⟨-, hpeace, hcontexts⟩ := hp.operate op hfits hop
    refine ⟨.inr hpeace, fun _ => hpeace, ih.homes, fun d => ?_⟩
    rw [← ih.tags]
    unfold contextTags
    rw [hcontexts]

/-- What holds between any two steps. -/
structure Balanced (s : StoreId) (p₀ p : Program) (live : List Scope) (manual : Manual) : Prop where
  tags : ∀ c, p.contextTags s c = p₀.contextTags s c + manual c + openTags c live
  closes : ∀ x ∈ live, (∃ q, (removeTags x.store x.context x.tags).on p = (.ok x.tags.length, q)) ∧
    ∃ q, (exit x).on p = (.ok (), q)
  opens : ∀ provider tags, (∀ t ∈ tags, t.isValid = true) →
    ∃ x q, (enter s provider tags).on p = (.ok (.ok x), q) ∧ x.store = s ∧ x.tags = tags
  /-- A scope with a blank key is not opened. If no fork is pending, every store is as it was, and if
  the context is given then so is everything. -/
  refuses : ∀ provider tags, (∃ t ∈ tags, t.isValid = false) →
    ∃ e q, (enter s provider tags).on p = (.ok (.error e), q) ∧
      (q.stores s).tags.contexts = (p.stores s).tags.contexts ∧
      (p.Aware s → q.stores = p.stores ∧ ∀ c, provider = .fixed c → q = p)
  attaches : ∀ c t, t.isValid = true → ∃ q, (addTag s c t).on p = (.ok (.ok ()), q)
  detaches : ∀ c, ∀ t ∈ manual c, ∃ q, (removeTag s c t).on p = (.ok true, q)
  /-- A context that had no tags at the start, has no open scope, and keeps nothing that users
  attached is not in the store. -/
  gone : ∀ c, p₀.contextTags s c = 0 → manual c = 0 → (∀ x ∈ live, x.context ≠ c) →
    (p.stores s).tags.contexts.holds c = false
  count : live = [] → (∀ c, manual c = 0) →
    (p.stores s).tags.contextCount = (p₀.stores s).tags.contextCount
  peaceful : p₀.Peaceful → p.Peaceful

/-- Scopes on a store are opened and closed in any order, on any contexts and by any threads, while
users attach tags and take off what they attached. As long as the store has seen every fork, or no
sampler panics or touches a store, the tags of each context are, as a multiset, those that it had,
those that users attached, and those of the scopes that are open on it. Every scope can be closed,
which takes off all of its tags, and when all is closed and taken off, nothing is left. -/
theorem scopes_leave_what_is_open (h₀ : Undisturbed s p₀) (h : Scoping s p₀ p live manual) :
    Balanced s p₀ p live manual := by
  have ht := h.tallied h₀
  have hsame : live = [] → (∀ c, manual c = 0) → ∀ c, p.contextTags s c = p₀.contextTags s c := by
    rintro rfl hmanual c
    rw [ht.tags, hmanual, openTags, add_zero, add_zero]
  have hempty : ∀ {q : Program} {c}, (q.stores s).tags.contexts.tagsOf c = [] ↔
      q.contextTags s c = 0 := fun {q c} => Multiset.coe_eq_zero _ |>.symm
  exact
    { tags := ht.tags
      closes := fun x hx => by
        have hhome := ht.homes x hx
        obtain ⟨q, hon, -⟩ := removeTags_takes ht.undisturbed (ht.le_of_live hx)
        obtain ⟨q', hon', -⟩ := exit_closes ht.undisturbed hhome (ht.le_of_live hx)
        exact ⟨⟨q, by rw [hhome, hon]⟩, q', hon'⟩
      opens := fun provider tags hvalid => by
        obtain ⟨x, q, hon, hx, htags, -⟩ := enter_opens ht.undisturbed provider hvalid
        exact ⟨x, q, hon, hx, htags⟩
      refuses := fun provider tags hblank => by
        obtain ⟨e, p', q, hon, hturn, hlooked, hfixed⟩ := enter_refuses ht.undisturbed provider hblank
        obtain ⟨-, haware, hstores⟩ := hturn.still (s := s)
        refine ⟨e, q, hon, by rw [hlooked.contexts, hstores], fun ha => ?_⟩
        obtain rfl := hlooked.still (haware.2 ha)
        exact ⟨hstores, hfixed⟩
      attaches := fun c t hvalid => by
        have hall : ∀ u ∈ [t], u.isValid = true := by simpa using hvalid
        obtain ⟨q, hon, -⟩ := addTags_attaches (c := c) ht.undisturbed hall
        exact ⟨q, hon⟩
      detaches := fun c t hmem => by
        obtain ⟨q, hon, -⟩ := removeTag_finds ht.undisturbed (ht.mem_of_manual hmem)
        exact ⟨q, hon⟩
      gone := fun c hnone hmanual hlive => by
        rw [Bool.eq_false_iff, ne_eq, ContextTags.holds_iff, not_not, hempty, ht.tags, hnone, hmanual,
          openTags_of_elsewhere hlive, add_zero, add_zero]
      count := fun hlive hmanual => ContextTags.count_congr fun c => by
        rw [hempty, hempty, hsame hlive hmanual]
      peaceful := ht.peaceful }

theorem start_peaceful (pid : UInt32) (handler : Bool) : (start pid handler).Peaceful where
  rest := start_atRest pid handler
  calm := fun _ _ hs => by cases hs
  quiet := fun _ _ hs => by cases hs

/-- Two scopes share a pair, which a user attaches once more, and the process forks. Then the scope
that was opened first is closed first. -/
theorem scopes_leave_what_is_open_crossed : Undisturbed 0 (start 1 false) ∧
    ∃ p q manual, Scoping 0 (start 1 false) p [⟨0, ⟨7⟩, [⟨"zone", "a"⟩, ⟨"zone", "a"⟩]⟩] manual ∧
      p.contextTags 0 ⟨7⟩ = {⟨"zone", "a"⟩, ⟨"zone", "a"⟩, ⟨"zone", "a"⟩} ∧
      Scoping 0 (start 1 false) q [] (manual.taken ⟨7⟩ ⟨"zone", "a"⟩) ∧
      (q.stores 0).tags.contexts.holds ⟨7⟩ = false ∧ (q.stores 0).tags.contextCount = 0 := by
  have hundisturbed : Undisturbed 0 (start 1 false) := .inl rfl
  have h₀ : Scoping 0 (start 1 false) (start 1 false) [] fun _ => 0 := .start
  have h₁ := h₀.enter (.fixed ⟨7⟩) [⟨"zone", "a"⟩, ⟨"team", "b"⟩] rfl
  have h₂ := h₁.enter (.fixed ⟨7⟩) [⟨"zone", "a"⟩, ⟨"zone", "a"⟩] rfl
  have h₃ := h₂.attach ⟨7⟩ ⟨"zone", "a"⟩ rfl
  have h₄ := h₃.operate ((scopes_leave_what_is_open hundisturbed h₃).peaceful (start_peaceful 1 false))
    .fork trivial trivial
  have h₅ := h₄.exit (x := ⟨0, ⟨7⟩, [⟨"zone", "a"⟩, ⟨"team", "b"⟩]⟩)
    (List.mem_cons_of_mem _ List.mem_cons_self) rfl
  have hbalanced := scopes_leave_what_is_open hundisturbed h₅
  have h₆ := h₅.exit (x := ⟨0, ⟨7⟩, [⟨"zone", "a"⟩, ⟨"zone", "a"⟩]⟩) List.mem_cons_self rfl
  have h₇ := h₆.detach ⟨7⟩ (t := ⟨"zone", "a"⟩) (by simp [Manual.attached]) rfl
  have hdone := scopes_leave_what_is_open hundisturbed h₇
  have hnone : ∀ c, Manual.taken (Manual.attached (fun _ => 0) ⟨7⟩ ⟨"zone", "a"⟩ (.ok ())) ⟨7⟩
      ⟨"zone", "a"⟩ c = 0 := by
    intro c
    by_cases hc : c = ⟨7⟩ <;> simp [Manual.taken, Manual.attached, hc]
  refine ⟨hundisturbed, _, _, _, h₅, ?_, h₇, hdone.gone ⟨7⟩ rfl (hnone _) (by simp [opened]),
    hdone.count rfl hnone⟩
  rw [hbalanced.tags]
  rfl

end ProfilingAgent
