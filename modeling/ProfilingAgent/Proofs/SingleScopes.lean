import ProfilingAgent.Proofs.OpenScopes
import ProfilingAgent.Proofs.TagStoreRefinement

set_option autoImplicit false

namespace ProfilingAgent

open Act Program

theorem removeLatest_append (t : Tag) (tags : List Tag) : removeLatest t (tags ++ [t]) = tags := by
  unfold removeLatest
  rw [List.reverse_append, List.reverse_singleton, List.singleton_append, List.erase_cons_head,
    List.reverse_reverse]

/-- What was attached last comes off again, also where the list has the same tags before. -/
theorem removeBatch_append (batch tags : List Tag) :
    removeBatch batch (tags ++ batch) = (tags, batch.length) := by
  induction batch generalizing tags with
  | nil => rw [List.append_nil]; rfl
  | cons t rest ih =>
    have hrest := ih (tags ++ [t])
    rw [List.append_assoc, List.singleton_append] at hrest
    change (if t ∈ (removeBatch rest (tags ++ t :: rest)).1 then _ else _ : List Tag × Nat) = _
    rw [if_pos (by rw [hrest]; exact List.mem_append_right _ List.mem_cons_self)]
    change (removeLatest t (removeBatch rest (tags ++ t :: rest)).1,
      (removeBatch rest (tags ++ t :: rest)).2 + 1) = _
    rw [hrest, removeLatest_append]
    rfl

def extended (c : ContextId) (tags : List Tag) (lists : ContextId → List Tag) :
    ContextId → List Tag := Function.update lists c (lists c ++ tags)

theorem extended_self (c : ContextId) (tags : List Tag) (lists : ContextId → List Tag) :
    extended c tags lists c = lists c ++ tags := Function.update_self _ _ _

theorem extended_of_ne {c d : ContextId} (h : d ≠ c) (tags : List Tag)
    (lists : ContextId → List Tag) : extended c tags lists d = lists d := Function.update_of_ne h _ _

theorem extended_apply (c d : ContextId) (tags : List Tag) (lists : ContextId → List Tag) :
    extended c tags lists d = if d = c then lists c ++ tags else lists d := Function.update_apply _ _ _ _

theorem extended_append (c : ContextId) (tags globals : List Tag) (lists : ContextId → List Tag) :
    (fun d => globals ++ extended c tags lists d) = extended c tags fun d => globals ++ lists d := by
  funext d
  rw [extended_apply, extended_apply]
  by_cases hd : d = c
  · rw [if_pos hd, if_pos hd, List.append_assoc]
  · rw [if_neg hd, if_neg hd]

namespace Program

variable {p q r : Program} {s : StoreId}

def tagsOn (p : Program) (s : StoreId) : ContextId → List Tag := (p.stores s).tags.contexts.tagsOf

def threadId (p : Program) : ContextId :=
  (p.threads p.thread).own.getD ⟨UInt64.ofNat p.nextContext⟩

def contextFor (p : Program) : Provider → ContextId
  | .fixed c => c
  | .thread => p.threadId
  | .task => (p.threads p.thread).task.getD p.threadId

inductive Asked (p q : Program) : Prop
  | nobody (thread : q.thread = p.thread) (next : q.nextContext = p.nextContext)
    (rows : ∀ t, q.threads t = p.threads t)
  | somebody (own : (p.threads p.thread).own = none) (thread : q.thread = p.thread)
    (next : q.nextContext = p.nextContext + 1)
    (rows : ∀ t, q.threads t =
      if t = p.thread then { p.threads t with own := some ⟨UInt64.ofNat p.nextContext⟩ }
      else p.threads t)

namespace Asked

theorem refl (p : Program) : Asked p p := .nobody rfl rfl fun _ => rfl

theorem of_same (hthreads : q.threads = p.threads) (hthread : q.thread = p.thread)
    (hnext : q.nextContext = p.nextContext) : Asked p q :=
  .nobody hthread hnext fun t => by rw [hthreads]

theorem trans (h : Asked p q) (h' : Asked q r) : Asked p r := by
  cases h with
  | nobody hthread hnext hrows =>
    cases h' with
    | nobody hthread' hnext' hrows' =>
      exact .nobody (hthread'.trans hthread) (hnext'.trans hnext) fun t => (hrows' t).trans (hrows t)
    | somebody hown hthread' hnext' hrows' =>
      refine .somebody ?_ (hthread'.trans hthread) (by rw [hnext', hnext]) fun t => ?_
      · rw [← hrows, ← hthread]
        exact hown
      · rw [hrows', hrows, hthread, hnext]
  | somebody hown hthread hnext hrows =>
    cases h' with
    | nobody hthread' hnext' hrows' =>
      exact .somebody hown (hthread'.trans hthread) (hnext'.trans hnext) fun t =>
        (hrows' t).trans (hrows t)
    | somebody hown' _ _ _ =>
      rw [hthread, hrows, if_pos rfl] at hown'
      cases hown'

theorem thread (h : Asked p q) : q.thread = p.thread := by
  cases h with
  | nobody h => exact h
  | somebody _ h => exact h

theorem task (h : Asked p q) (t : ThreadId) : (q.threads t).task = (p.threads t).task := by
  cases h with
  | nobody _ _ hrows => rw [hrows]
  | somebody _ _ _ hrows =>
    rw [hrows]
    by_cases ht : t = p.thread
    · rw [if_pos ht]
    · rw [if_neg ht]

theorem next_le (h : Asked p q) : p.nextContext ≤ q.nextContext := by
  cases h with
  | nobody _ hnext => exact hnext.ge
  | somebody _ _ hnext => omega

theorem next_le_succ (h : Asked p q) : q.nextContext ≤ p.nextContext + 1 := by
  cases h with
  | nobody _ hnext => omega
  | somebody _ _ hnext => exact hnext.le

theorem own (h : Asked p q) {t : ThreadId} {c : ContextId} (ht : (q.threads t).own = some c) :
    (p.threads t).own = some c ∨
      c = ⟨UInt64.ofNat p.nextContext⟩ ∧ q.nextContext = p.nextContext + 1 := by
  cases h with
  | nobody _ _ hrows =>
    rw [hrows] at ht
    exact .inl ht
  | somebody _ _ hnext hrows =>
    rw [hrows] at ht
    by_cases hp : t = p.thread
    · rw [if_pos hp] at ht
      exact .inr ⟨(Option.some.inj ht).symm, hnext⟩
    · rw [if_neg hp] at ht
      exact .inl ht

theorem threadId (h : Asked p q) : q.threadId = p.threadId := by
  unfold Program.threadId
  rw [h.thread]
  cases h with
  | nobody _ hnext hrows => rw [hrows, hnext]
  | somebody hown _ _ hrows =>
    rw [hrows, if_pos rfl, hown]
    rfl

theorem contextFor (h : Asked p q) : q.contextFor = p.contextFor := by
  funext provider
  cases provider with
  | fixed c => rfl
  | thread => exact h.threadId
  | task =>
    unfold Program.contextFor
    rw [h.thread, h.task, h.threadId]

end Asked

theorem update_threads (p : Program) (f : Thread → Thread) (t : ThreadId) :
    p.threads.update p.thread f t = if t = p.thread then f (p.threads t) else p.threads t := by
  refine (Table.update_row _ _ _ _).trans ?_
  by_cases ht : t = p.thread
  · rw [if_pos ht, if_pos ht, ht]
  · rw [if_neg ht, if_neg ht]

theorem threadContext_on (p : Program) :
    ∃ q, threadContext.on p = (.ok p.threadId, q) ∧ Asked p q ∧ q.stores = p.stores ∧ Same p q := by
  have hget : (get : Act Program).on p = (.ok p, p) := rfl
  unfold threadContext threadId
  rw [on_bind, hget]
  dsimp only
  cases hown : (p.threads p.thread).own with
  | some c => exact ⟨p, rfl, .refl p, rfl, ⟨rfl, rfl, rfl, rfl, fun _ => rfl⟩⟩
  | none =>
    exact ⟨_, rfl, .somebody hown rfl rfl (p.update_threads _), rfl,
      ⟨rfl, rfl, rfl, rfl, fun _ => rfl⟩⟩

theorem currentContext_on (p : Program) (provider : Provider) :
    ∃ q, (currentContext provider).on p = (.ok (p.contextFor provider), q) ∧ Asked p q ∧
      q.stores = p.stores ∧ Same p q := by
  cases provider with
  | fixed c => exact ⟨p, rfl, .refl p, rfl, ⟨rfl, rfl, rfl, rfl, fun _ => rfl⟩⟩
  | thread => exact threadContext_on p
  | task =>
    have hget : (get : Act Program).on p = (.ok p, p) := rfl
    unfold currentContext taskContext contextFor
    rw [on_bind, hget]
    dsimp only
    cases (p.threads p.thread).task with
    | some c => exact ⟨p, rfl, .refl p, rfl, ⟨rfl, rfl, rfl, rfl, fun _ => rfl⟩⟩
    | none => exact threadContext_on p

theorem placed_frame (p : Program) : Frame .any fun q =>
    q.threads = p.threads ∧ q.thread = p.thread ∧ q.nextContext = p.nextContext where
  annotate _ h := h
  mark _ h := h
  count _ h := h
  give _ h := h
  alter _ _ _ h := h
  adopt _ _ _ h := h
  call _ _ _ h := h
  globals _ _ h := h
  retag _ _ h := h
  uses _ _ := .inr fun _ => trivial
  fork _ _ h := h
  install _ h := h
  store h := h
  watched _ _ h := h
  housed _ _ _ h := h

/-- Nothing has changed but the tags of contexts in one store, what was said, and perhaps the running
thread's id, which may have been handed out. -/
structure Tended (s : StoreId) (p q : Program) : Prop where
  kept : Retagged s (q.stores s).tags p q
  globals : (q.stores s).tags.globals = (p.stores s).tags.globals
  asked : Asked p q

namespace Tended

theorem refl (p : Program) (s : StoreId) : Tended s p p := ⟨.refl p s, rfl, .refl p⟩

theorem of_stores (hstores : q.stores = p.stores) (hsame : Same p q) (h : Asked p q) :
    Tended s p q := by
  refine ⟨⟨rfl, fun _ => ?_, fun _ _ => ?_, hsame⟩, ?_, h⟩
  all_goals rw [hstores]

theorem trans (h : Tended s p q) (h' : Tended s q r) : Tended s p r :=
  ⟨h.kept.trans h'.kept, h'.globals.trans h.globals, h.asked.trans h'.asked⟩

theorem annotate (h : Tended s p q) (notes : List (ThreadId × Log.Event)) :
    Tended s p (q.annotate notes) :=
  ⟨h.kept.annotate notes, h.globals, h.asked.trans (.of_same rfl rfl rfl)⟩

theorem aware (h : Tended s p q) (hp : p.Aware s) : q.Aware s := h.kept.aware.2 hp

theorem snapshot (h : Tended s p q) :
    (q.stores s).tags.snapshot = fun c => (p.stores s).tags.globals ++ q.tagsOn s c := by
  funext c
  unfold TagStore.snapshot
  rw [h.globals]
  rfl

theorem snapshot_extended {c : ContextId} {tags : List Tag} {lists : ContextId → List Tag}
    (h : Tended s p q) (htags : q.tagsOn s = extended c tags lists) :
    (q.stores s).tags.snapshot =
      extended c tags fun d => (p.stores s).tags.globals ++ lists d := by
  rw [h.snapshot, htags, extended_append]

end Tended

theorem Yields.tended {α : Type} {x : Act α} {a : α} {tags : TagStore} (hx : Yields x p s a tags)
    (hglobals : tags.globals = (p.stores s).tags.globals)
    (hkeeps : Keeps (fun q => q.threads = p.threads ∧ q.thread = p.thread ∧
      q.nextContext = p.nextContext) x) :
    ∃ q, x.on p = (.ok a, q) ∧ Tended s p q ∧ q.tagsOn s = tags.contexts.tagsOf := by
  obtain ⟨q, hon, hq⟩ := hx
  obtain ⟨hthreads, hthread, hnext⟩ := (ends_of_on hon).1 (hkeeps p ⟨rfl, rfl, rfl⟩)
  have htags := hq.tags
  refine ⟨q, hon, ⟨?_, ?_, .of_same hthreads hthread hnext⟩, ?_⟩
  · rw [htags]
    exact hq
  · rw [htags, hglobals]
  · unfold tagsOn
    rw [htags]

section Uses

variable {c : ContextId} {tags : List Tag} (hp : p.Aware s)

include hp

theorem addTags_extends (h : tags.find? (!·.isValid) = none) :
    ∃ q, (addTags s c tags).on p = (.ok (.ok ()), q) ∧ Tended s p q ∧
      q.tagsOn s = extended c tags (p.tagsOn s) := by
  have hvalid : ∀ t ∈ tags, t.isValid = true := by simpa using h
  obtain ⟨hok, htags⟩ := (p.stores s).tags.addTags_valid c hvalid
  have hglobals : (attempted (p.stores s).tags ((p.stores s).tags.addTags c tags)).2.globals =
      (p.stores s).tags.globals := by
    unfold TagStore.addTags
    rw [(Tag.checkAll_eq_ok_iff tags).2 hvalid]
    dsimp only
    split <;> rfl
  have hyields : Yields (addTags s c tags) p s _ _ := addTags_yields hp c tags
  obtain ⟨q, hon, hq, hlists⟩ := hyields.tended hglobals
    ((placed_frame p).addTags (placed_frame p).tellAgent trivial c tags)
  refine ⟨q, by rw [hon, hok], hq, ?_⟩
  funext d
  rw [hlists, htags, extended_apply]
  rfl

theorem addTags_rejects {t : Tag} (h : tags.find? (!·.isValid) = some t) :
    (addTags s c tags).on p = (.ok (.error (.emptyKey t.value)), p) := by
  have hrefused : (p.stores s).tags.addTags c tags = .error (.emptyKey t.value) := by
    unfold TagStore.addTags
    rw [Tag.checkAll_eq, h]
  unfold addTags addTagsWith revise
  rw [bind_assoc, hp.on_check, bind_assoc, on_bind, on_store]
  dsimp only
  rw [hrefused]
  rfl

theorem removeTags_restores {lists : ContextId → List Tag}
    (h : p.tagsOn s = extended c tags lists) :
    ∃ q, (removeTags s c tags).on p = (.ok tags.length, q) ∧ Tended s p q ∧
      q.tagsOn s = lists := by
  have hbatch : removeBatch tags ((p.stores s).tags.contexts.tagsOf c) = (lists c, tags.length) := by
    change removeBatch tags (p.tagsOn s c) = _
    rw [h, extended_self, removeBatch_append]
  have hyields : Yields (removeTags s c tags) p s _ _ := removeTags_yields hp c tags
  obtain ⟨q, hon, hq, hlists⟩ := hyields.tended rfl
    ((placed_frame p).removeTags (placed_frame p).tellAgent trivial c tags)
  refine ⟨q, ?_, hq, ?_⟩
  · rw [hon]
    unfold TagStore.removeTags
    rw [hbatch]
  · funext d
    rw [hlists, TagStore.removeTags_tagsOf, hbatch]
    by_cases hd : d = c
    · rw [if_pos hd, hd]
    · rw [if_neg hd]
      change p.tagsOn s d = _
      rw [h, extended_of_ne hd]

theorem snapshot_on (c : ContextId) :
    ∃ q, (snapshot s c).on p = (.ok ((p.stores s).tags.snapshot c), q) ∧ Tended s p q ∧
      q.tagsOn s = p.tagsOn s := by
  have hyields : Yields (snapshot s c) p s _ _ := snapshot_yields hp c
  exact hyields.tended rfl ((placed_frame p).snapshot (placed_frame p).tellAgent c)

theorem enter_extends (provider : Provider) (h : tags.find? (!·.isValid) = none) :
    ∃ q, (enter s provider tags).on p = (.ok (.ok ⟨s, p.contextFor provider, tags⟩), q) ∧
      Tended s p q ∧ q.tagsOn s = extended (p.contextFor provider) tags (p.tagsOn s) := by
  obtain ⟨p', hc, hasked, hstores, hsame⟩ := currentContext_on p provider
  have hp' : Tended s p p' := .of_stores hstores hsame hasked
  obtain ⟨q, hon, hq, htags⟩ := addTags_extends (c := p.contextFor provider) (hp'.aware hp) h
  have hentered : ∃ notes, (enter s provider tags).on p =
      (.ok (.ok ⟨s, p.contextFor provider, tags⟩), q.annotate notes) := by
    unfold enter enterContext
    rw [on_bind, hc]
    dsimp only
    rw [on_bind, hon]
    exact ⟨_, rfl⟩
  obtain ⟨notes, hentered⟩ := hentered
  refine ⟨q.annotate notes, hentered, (hp'.trans hq).annotate notes, htags.trans ?_⟩
  unfold tagsOn
  rw [hstores]

theorem enter_rejects (provider : Provider) {t : Tag} (h : tags.find? (!·.isValid) = some t) :
    ∃ q, (enter s provider tags).on p = (.ok (.error (.emptyKey t.value)), q) ∧ Tended s p q ∧
      q.tagsOn s = p.tagsOn s := by
  obtain ⟨q, hc, hasked, hstores, hsame⟩ := currentContext_on p provider
  have hq : Tended s p q := .of_stores hstores hsame hasked
  refine ⟨q, ?_, hq, by unfold tagsOn; rw [hstores]⟩
  unfold enter enterContext
  rw [on_bind, hc]
  dsimp only
  rw [on_bind, addTags_rejects (hq.aware hp) h]
  rfl

theorem exit_restores {lists : ContextId → List Tag} (h : p.tagsOn s = extended c tags lists) :
    ∃ q, (exit ⟨s, c, tags⟩).on p = (.ok (), q) ∧ Tended s p q ∧ q.tagsOn s = lists := by
  obtain ⟨q, hon, hq, hlists⟩ := removeTags_restores hp h
  have hexited : ∃ notes, (exit ⟨s, c, tags⟩).on p = (.ok (), q.annotate notes) := by
    unfold exit
    rw [on_bind, on_discard, hon]
    exact ⟨_, rfl⟩
  obtain ⟨notes, hexited⟩ := hexited
  exact ⟨q.annotate notes, hexited, hq.annotate notes, hlists⟩

end Uses
end Program
end ProfilingAgent
