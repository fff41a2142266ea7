import ProfilingAgent.Proofs.Chronicle

set_option autoImplicit false

namespace ProfilingAgent

open Act Program

structure Describes (x : Chronicle) (tags : TagStore) : Prop where
  globals : x.tagsOf .everybody = tags.globals
  contexts : ∀ c, x.tagsOf (.context c) = tags.contexts.tagsOf c

/-- The tags of a store as if the global tags had been attached first, and then those of one context
after another. -/
def TagStore.chronicle (tags : TagStore) : Chronicle :=
  ⟨(tags.globals.map fun t => (.everybody, t)) ++
    tags.contexts.entries.flatMap fun e => e.2.map fun t => (.context e.1, t)⟩

namespace Chronicle

theorem tagsOf_after (o : Owner) (old new : List (Owner × Tag)) :
    tagsOf o ⟨old ++ new⟩ = tagsOf o ⟨old⟩ ++ tagsOf o ⟨new⟩ := by
  simp [tagsOf]

theorem tagsOf_batch (o o' : Owner) (tags : List Tag) :
    tagsOf o' ⟨tags.map fun t => (o, t)⟩ = if o' = o then tags else [] :=
  tagsOf_append [] tags

theorem tagsOf_batches (o : Owner) (entries : List (ContextId × List Tag))
    (hdistinct : (entries.map Prod.fst).Nodup) :
    tagsOf o ⟨entries.flatMap fun e => e.2.map fun t => (.context e.1, t)⟩ =
      match entries.find? (fun e => o = .context e.1) with
      | some e => e.2
      | none => [] := by
  induction entries with
  | nil => rfl
  | cons e rest ih =>
    rw [List.map_cons, List.nodup_cons] at hdistinct
    rw [List.flatMap_cons, tagsOf_after, tagsOf_batch, ih hdistinct.2]
    by_cases ho : o = .context e.1
    · have hnone : rest.find? (fun e => decide (o = .context e.1)) = none := by
        rw [List.find?_eq_none]
        intro e' he' heq
        rw [ho, decide_eq_true_eq, Owner.context.injEq] at heq
        exact hdistinct.1 (heq ▸ List.mem_map_of_mem he')
      rw [if_pos ho, hnone, List.find?_cons_of_pos (by simpa using ho), List.append_nil]
    · rw [if_neg ho, List.find?_cons_of_neg (by simpa using ho)]
      rfl

end Chronicle

theorem TagStore.chronicle_describes (tags : TagStore) : Describes tags.chronicle tags where
  globals := by
    unfold chronicle
    rw [Chronicle.tagsOf_after, Chronicle.tagsOf_batch, if_pos rfl,
      Chronicle.tagsOf_batches _ _ tags.contexts.distinct, List.find?_eq_none.2 (by simp),
      List.append_nil]
  contexts c := by
    unfold chronicle ContextTags.tagsOf
    rw [Chronicle.tagsOf_after, Chronicle.tagsOf_batch, if_neg (by simp),
      Chronicle.tagsOf_batches _ _ tags.contexts.distinct]
    have hkey : (fun e : ContextId × List Tag => decide (Owner.context c = .context e.1)) =
        fun e => e.1 == c := by
      funext e
      by_cases he : e.1 = c
      · simp [he]
      · simp [he, Ne.symm he]
    rw [hkey]
    rfl

theorem Tag.checkAll_eq (tags : List Tag) : checkAll tags =
    match tags.find? (!·.isValid) with
    | some t => .error (.emptyKey t.value)
    | none => .ok () := by
  induction tags with
  | nil => rfl
  | cons t rest ih =>
    unfold checkAll check
    cases h : t.isValid with
    | true => rw [List.find?_cons_of_neg (by simp [h]), ← ih, if_pos rfl]
    | false => rw [List.find?_cons_of_pos (by simp [h]), if_neg (by simp)]

namespace Describes

variable {x : Chronicle} {tags : TagStore} {o : Owner}

theorem congr {y : Chronicle} (h : Describes x tags) (hy : ∀ o, y.tagsOf o = x.tagsOf o) :
    Describes y tags := ⟨(hy _).trans h.globals, fun c => (hy _).trans (h.contexts c)⟩

theorem snapshot (h : Describes x tags) (c : ContextId) : x.snapshot c = tags.snapshot c := by
  unfold Chronicle.snapshot TagStore.snapshot
  rw [h.globals, h.contexts]

theorem contextCount (h : Describes x tags) : x.contextCount = tags.contextCount := by
  refine (tags.contexts.count_eq_length (List.nodup_dedup _) fun c => ?_).symm
  rw [Chronicle.mem_contexts_iff, h.contexts]

theorem globals_to {y : Chronicle} {l : List Tag} (h : Describes x tags)
    (hy : ∀ o, y.tagsOf o = if o = .everybody then l else x.tagsOf o) :
    Describes y { tags with globals := l } where
  globals := by rw [hy, if_pos rfl]
  contexts c := by rw [hy, if_neg (by simp), h.contexts]

theorem context_to {y : Chronicle} {c : ContextId} {l : List Tag} (h : Describes x tags)
    (hy : ∀ o, y.tagsOf o = if o = .context c then l else x.tagsOf o) :
    Describes y { tags with contexts := tags.contexts.put c l } where
  globals := by rw [hy, if_neg (by simp), h.globals]
  contexts d := by
    rw [hy, ContextTags.tagsOf_put]
    by_cases hd : d = c
    · rw [if_pos hd, if_pos (by rw [hd])]
    · rw [if_neg hd, if_neg (by simpa using hd), h.contexts]

theorem addTags (h : Describes x tags) (c : ContextId) (batch : List Tag) :
    (x.attach (.context c) batch).1 = (attempted tags (tags.addTags c batch)).1 ∧
      Describes (x.attach (.context c) batch).2 (attempted tags (tags.addTags c batch)).2 := by
  unfold Chronicle.attach TagStore.addTags
  rw [Tag.checkAll_eq]
  cases batch.find? (!·.isValid) with
  | some t => exact ⟨rfl, h⟩
  | none =>
    dsimp only
    have hadd : ∀ o, Chronicle.tagsOf o ⟨x.entries ++ batch.map fun t => (.context c, t)⟩ =
        if o = .context c then tags.contexts.tagsOf c ++ batch else x.tagsOf o := by
      intro o
      rw [Chronicle.tagsOf_append, h.contexts]
    by_cases hb : batch = []
    · rw [if_pos hb]
      refine ⟨rfl, h.congr fun o => ?_⟩
      rw [hadd, hb, List.append_nil, ← h.contexts]
      by_cases ho : o = .context c <;> simp [ho]
    · rw [if_neg hb]
      exact ⟨rfl, h.context_to hadd⟩

theorem replaceGlobals (h : Describes x tags) (old new : List Tag) :
    (x.exchange old new).1 = (attempted tags (tags.replaceGlobals old new)).1 ∧
      Describes (x.exchange old new).2 (attempted tags (tags.replaceGlobals old new)).2 := by
  unfold Chronicle.exchange Chronicle.attach TagStore.replaceGlobals
  rw [Tag.checkAll_eq]
  cases new.find? (!·.isValid) with
  | some t => exact ⟨rfl, h⟩
  | none =>
    refine ⟨rfl, h.globals_to fun o => ?_⟩
    obtain ⟨-, hold⟩ := Chronicle.detachAll_eq (x := x) (o := .everybody) old
    rw [Chronicle.tagsOf_append, hold .everybody, if_pos rfl, ← h.globals]
    by_cases ho : o = .everybody
    · rw [if_pos ho, if_pos ho]
    · rw [if_neg ho, if_neg ho]
      exact (hold o).trans (if_neg ho)

theorem addGlobal (h : Describes x tags) (t : Tag) :
    (x.attach .everybody [t]).1 = (attempted tags (tags.addGlobal t)).1 ∧
      Describes (x.attach .everybody [t]).2 (attempted tags (tags.addGlobal t)).2 := by
  have hmodel : x.attach .everybody [t] = x.exchange [] [t] := by
    unfold Chronicle.exchange Chronicle.attach
    cases [t].find? (!·.isValid) <;> rfl
  have hstore : tags.addGlobal t = tags.replaceGlobals [] [t] := by
    unfold TagStore.addGlobal TagStore.replaceGlobals Tag.checkAll
    cases t.check <;> rfl
  rw [hmodel, hstore]
  exact h.replaceGlobals [] [t]

theorem removeTags (h : Describes x tags) (c : ContextId) (batch : List Tag) :
    (x.detachAll (.context c) batch).1 = (tags.removeTags c batch).2 ∧
      Describes (x.detachAll (.context c) batch).2 (tags.removeTags c batch).1 := by
  obtain ⟨hcount, htags⟩ := Chronicle.detachAll_eq (x := x) (o := .context c) batch
  rw [h.contexts] at hcount htags
  exact ⟨hcount, h.context_to htags⟩

theorem removeTag (h : Describes x tags) (c : ContextId) (t : Tag) :
    (x.detach (.context c) t).1 = decide ((tags.removeTags c [t]).2 = 1) ∧
      Describes (x.detach (.context c) t).2 (tags.removeTags c [t]).1 := by
  have hbatch := h.removeTags c [t]
  have hone : x.detachAll (.context c) [t] =
      (if (x.detach (.context c) t).1 then 1 else 0, (x.detach (.context c) t).2) := rfl
  rw [hone] at hbatch
  refine ⟨?_, hbatch.2⟩
  rw [← hbatch.1]
  cases (x.detach (.context c) t).1 <;> rfl

theorem removeGlobal (h : Describes x tags) (t : Tag) :
    (x.detach .everybody t).1 = (tags.removeGlobal t).2 ∧
      Describes (x.detach .everybody t).2 (tags.removeGlobal t).1 := by
  constructor
  · rw [Chronicle.found_detach, h.globals]
    rfl
  · refine h.globals_to fun o => ?_
    rw [Chronicle.tagsOf_detach, h.globals]

theorem clearContext (h : Describes x tags) (c : ContextId) :
    (x.clear c).1 = (tags.clearContext c).2 ∧ Describes (x.clear c).2 (tags.clearContext c).1 := by
  refine ⟨?_, ?_, fun d => ?_⟩
  · rw [Chronicle.clear_fst, h.contexts]
    rfl
  · rw [Chronicle.tagsOf_clear, if_neg (by simp)]
    exact h.globals
  · rw [Chronicle.tagsOf_clear, h.contexts]
    unfold TagStore.clearContext
    dsimp only
    rw [ContextTags.tagsOf_clear]
    simp only [Owner.context.injEq]

end Describes

theorem Program.Yields.answer {α : Type} {p : Program} {s : StoreId} {x : Act α} {a b : α}
    {tags : TagStore} (h : Yields x p s a tags) (hb : b = a) (f : α → Answer) :
    Yields (f <$> x) p s (f b) tags := by
  rw [hb]
  exact h.map f

namespace StoreCall

variable {p q : Program} {s : StoreId} {x : Chronicle}

/-- A store answers a call as a chronicle of it does, and the chronicle goes on describing it. -/
theorem ask_yields (h : p.Aware s) (hx : Describes x (p.stores s).tags) (k : StoreCall) :
    ∃ tags, Yields (k.ask s) p s (k.replay x).1 tags ∧ Describes (k.replay x).2 tags := by
  cases k with
  | addTag c t =>
    obtain ⟨hr, htags⟩ := hx.addTags c [t]
    exact ⟨_, (addTags_yields h c [t]).answer hr .attached, htags⟩
  | addTags c tags =>
    obtain ⟨hr, htags⟩ := hx.addTags c tags
    exact ⟨_, (addTags_yields h c tags).answer hr .attached, htags⟩
  | removeTag c t =>
    obtain ⟨hr, htags⟩ := hx.removeTag c t
    have hremoved : Yields (Program.removeTags s c [t]) p s _ _ := removeTags_yields h c [t]
    exact ⟨_, (hremoved.bind_pure fun n => decide (n = 1)).answer hr .found, htags⟩
  | removeTags c tags =>
    obtain ⟨hr, htags⟩ := hx.removeTags c tags
    exact ⟨_, (removeTags_yields h c tags).answer hr .counted, htags⟩
  | addGlobal t =>
    obtain ⟨hr, htags⟩ := hx.addGlobal t
    exact ⟨_, (revise_yields h (·.addGlobal t)).answer hr .attached, htags⟩
  | removeGlobal t =>
    obtain ⟨hr, htags⟩ := hx.removeGlobal t
    exact ⟨_, (removeGlobal_yields h t).answer hr .found, htags⟩
  | replaceGlobals old new =>
    obtain ⟨hr, htags⟩ := hx.replaceGlobals old new
    exact ⟨_, (revise_yields h (·.replaceGlobals old new)).answer hr .attached, htags⟩
  | clearContext c =>
    obtain ⟨hr, htags⟩ := hx.clearContext c
    exact ⟨_, (clearContext_yields h c).answer hr .counted, htags⟩
  | snapshot c => exact ⟨_, (snapshot_yields h c).answer (hx.snapshot c) .listed, hx⟩
  | contextCount =>
    have hcount : Yields (do return (← store s).tags.contextCount) p s
        (p.stores s).tags.contextCount (p.stores s).tags := ⟨p, rfl, .refl p s⟩
    exact ⟨_, hcount.answer hx.contextCount .counted, hx⟩

theorem replay_elsewhere (k : StoreCall) {c : ContextId} (hc : k.context? ≠ some c) :
    (k.replay x).2.tagsOf (.context c) = x.tagsOf (.context c) := by
  have attach : ∀ (y : Chronicle) (o : Owner) (tags : List Tag), .context c ≠ o →
      (y.attach o tags).2.tagsOf (.context c) = y.tagsOf (.context c) := by
    intro y o tags ho
    unfold Chronicle.attach
    cases tags.find? (!·.isValid) with
    | some t => rfl
    | none => exact (Chronicle.tagsOf_append _ _).trans (if_neg ho)
  have detachAll : ∀ (y : Chronicle) (o : Owner) (tags : List Tag), .context c ≠ o →
      (y.detachAll o tags).2.tagsOf (.context c) = y.tagsOf (.context c) :=
    fun _ _ tags ho => ((Chronicle.detachAll_eq tags).2 _).trans (if_neg ho)
  have detach : ∀ (o : Owner) (t : Tag), .context c ≠ o →
      (x.detach o t).2.tagsOf (.context c) = x.tagsOf (.context c) :=
    fun _ _ ho => Chronicle.tagsOf_detach.trans (if_neg ho)
  have other : ∀ d, some d ≠ some c → Owner.context c ≠ .context d := by
    intro d hd heq
    exact hd (congrArg some (Owner.context.inj heq).symm)
  cases k with
  | addTag d t => exact attach x _ _ (other d hc)
  | addTags d tags => exact attach x _ _ (other d hc)
  | removeTag d t => exact detach _ t (other d hc)
  | removeTags d tags => exact detachAll x _ tags (other d hc)
  | addGlobal t => exact attach x _ _ (by simp)
  | removeGlobal t => exact detach _ t (by simp)
  | replaceGlobals old new =>
    change (x.exchange old new).2.tagsOf (.context c) = _
    unfold Chronicle.exchange
    rcases x.attach .everybody new with ⟨e | _, _⟩
    · rfl
    · exact (attach _ .everybody new (by simp)).trans (detachAll x .everybody old (by simp))
  | clearContext d => exact (Chronicle.tagsOf_clear d).trans (if_neg (other d hc))
  | snapshot d => rfl
  | contextCount => rfl

theorem replayAll_elsewhere (calls : List StoreCall) {c : ContextId}
    (hc : ∀ k ∈ calls, k.context? ≠ some c) :
    (replayAll x calls).2.tagsOf (.context c) = x.tagsOf (.context c) := by
  induction calls generalizing x with
  | nil => rfl
  | cons k rest ih =>
    have hrest := ih (x := (k.replay x).2) fun k' hk' => hc k' (List.mem_cons_of_mem _ hk')
    exact hrest.trans (k.replay_elsewhere (hc k List.mem_cons_self))

theorem askAll_yields (h : p.Aware s) (hx : Describes x (p.stores s).tags)
    (calls : List (ThreadId × StoreCall)) :
    ∃ tags, Yields (askAll s calls) p s (replayAll x (calls.map Prod.snd)).1 tags ∧
      Describes (replayAll x (calls.map Prod.snd)).2 tags := by
  induction calls generalizing p x with
  | nil => exact ⟨_, ⟨p, rfl, .refl p s⟩, hx⟩
  | cons call rest ih =>
    obtain ⟨thread, k⟩ := call
    have hthread : Retagged s (p.stores s).tags p { p with thread := thread } :=
      ⟨rfl, fun _ => rfl, fun _ _ => rfl, ⟨rfl, rfl, rfl, rfl, fun _ => rfl⟩⟩
    obtain ⟨tags, ⟨q, hon, hq⟩, hy⟩ := ask_yields (hthread.aware.2 h) hx k
    have hpq := hthread.trans hq
    rw [← hq.tags] at hy
    obtain ⟨tags', ⟨r, hon', hr⟩, hz⟩ := ih (hpq.aware.2 h) hy
    refine ⟨tags', ⟨r, ?_, hpq.trans hr⟩, hz⟩
    have hresume : (resume thread).on p = (.ok (), { p with thread := thread }) := rfl
    unfold askAll
    rw [on_bind, hresume]
    dsimp only
    rw [on_bind, hon]
    dsimp only
    rw [on_bind, hon']
    rfl

end StoreCall

/-- A store that has seen every fork cannot be told from a chronicle that describes it. Whatever
calls threads make, one after another, each is answered as the chronicle answers it, and afterwards
every snapshot and the number of contexts are those of the chronicle. Apart from the store's tags
nothing has changed, and a context that no call was about has the tags that it had. -/
theorem store_answers_as_chronicle {p : Program} {s : StoreId} {x : Chronicle} (h : p.Aware s)
    (hx : Describes x (p.stores s).tags) (calls : List (ThreadId × StoreCall)) :
    ∃ answers y q, StoreCall.replayAll x (calls.map Prod.snd) = (answers, y) ∧
      (StoreCall.askAll s calls).on p = (.ok answers, q) ∧ Describes y (q.stores s).tags ∧
      (∀ c, (q.stores s).tags.snapshot c = y.snapshot c) ∧
      (q.stores s).tags.contextCount = y.contextCount ∧
      Retagged s (q.stores s).tags p q ∧
      ∀ c, (∀ k ∈ calls, k.2.context? ≠ some c) → (q.stores s).tags.snapshot c =
        (q.stores s).tags.globals ++ (p.stores s).tags.contexts.tagsOf c := by
  obtain ⟨tags, ⟨q, hon, hq⟩, hy⟩ := StoreCall.askAll_yields h hx calls
  obtain rfl := hq.tags
  refine ⟨_, _, q, rfl, hon, hy, fun c => (hy.snapshot c).symm, hy.contextCount.symm, hq, fun c hc => ?_⟩
  unfold TagStore.snapshot
  rw [← hy.contexts, ← hx.contexts, StoreCall.replayAll_elsewhere]
  intro k hk
  obtain ⟨call, hcall, rfl⟩ := List.mem_map.1 hk
  exact hc call hcall

def mingled : List (ThreadId × StoreCall) :=
  [(1, .addTags ⟨7⟩ [⟨"zone", "a"⟩, ⟨"team", "b"⟩]), (2, .addTag ⟨8⟩ ⟨"zone", "a"⟩),
    (1, .addTag ⟨7⟩ ⟨"zone", "a"⟩), (2, .addTags ⟨8⟩ [⟨"user", "c"⟩, ⟨" ", "d"⟩]),
    (1, .removeTag ⟨7⟩ ⟨"zone", "a"⟩), (2, .removeTags ⟨8⟩ [⟨"zone", "a"⟩, ⟨"zone", "a"⟩]),
    (2, .snapshot ⟨7⟩), (1, .contextCount)]

theorem store_answers_as_chronicle_mingled :
    (start 1 false).Aware 0 ∧ Describes ⟨[]⟩ ((start 1 false).stores 0).tags ∧
      ∃ q, (StoreCall.askAll 0 mingled).on (start 1 false) = (.ok [.attached (.ok ()),
        .attached (.ok ()), .attached (.ok ()), .attached (.error (.emptyKey "d")), .found true,
        .counted 1, .listed [⟨"zone", "a"⟩, ⟨"team", "b"⟩], .counted 1], q) := by
  have haware : (start 1 false).Aware 0 := rfl
  have hempty : Describes ⟨[]⟩ ((start 1 false).stores 0).tags := TagStore.chronicle_describes .empty
  obtain ⟨answers, y, q, hreplay, hon, -⟩ := store_answers_as_chronicle haware hempty mingled
  obtain ⟨rfl, rfl⟩ := Prod.mk.inj hreplay
  exact ⟨haware, hempty, q, hon⟩

end ProfilingAgent
