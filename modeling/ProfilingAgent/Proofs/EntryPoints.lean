import ProfilingAgent.Proofs.Watching

set_option autoImplicit false

namespace ProfilingAgent

open Act Program

inductive EntryPoint (a : AgentId) (s : StoreId) : {α : Type} → Act α → Prop
  | start (c : Settings) : EntryPoint a s (startAgent a c)
  | reconfigure (c : Settings) : EntryPoint a s (reconfigure a c)
  | stop : EntryPoint a s (stopAgent a)
  | state : EntryPoint a s (Program.state a)
  | tags : EntryPoint a s (storeOf a)
  | addTag (c : ContextId) (t : Tag) : EntryPoint a s (addTag s c t)
  | addTags (c : ContextId) (tags : List Tag) : EntryPoint a s (addTags s c tags)
  | removeTag (c : ContextId) (t : Tag) : EntryPoint a s (removeTag s c t)
  | removeTags (c : ContextId) (tags : List Tag) : EntryPoint a s (removeTags s c tags)
  | addGlobal (t : Tag) : EntryPoint a s (addGlobal s t)
  | removeGlobal (t : Tag) : EntryPoint a s (removeGlobal s t)
  | replaceGlobals (old new : List Tag) : EntryPoint a s (replaceGlobals s old new)
  | snapshot (c : ContextId) : EntryPoint a s (snapshot s c)
  | clearContext (c : ContextId) : EntryPoint a s (clearContext s c)

namespace Program

variable {α : Type} {p q t : Program} {a : AgentId} {s : StoreId} {x : Act α}

def Alike (p q : Program) : Prop := p.annotate [] = q.annotate []

theorem Alike.same (h : Alike p q) : Same q p := by
  have hsame : p.annotate [] = q.annotate [] := h
  exact
    { generation := (congrArg generation hsame :)
      agents := (congrArg agents hsame :)
      slot := (congrArg slot hsame :)
      calls := (congrArg calls hsame :)
      watcher := fun s => (congrArg (fun p => (p.stores s).hook.watcher) hsame :) }

theorem annotate_on (hx : ∀ notes, Commutes a s (fun p => p.annotate (p.notes ++ notes)) x)
    (hp : Watches a s p) (notes : List (ThreadId × Log.Event)) :
    (x.on (p.annotate notes)).1 = (x.on p).1 ∧
      Alike (x.on (p.annotate notes)).2 (x.on p).2 := by
  have hp₀ : Watches a s (p.annotate []) := ⟨hp.abreast, hp.watcher, hp.store⟩
  have hafter := (hx notes _ hp₀).1
  have hbefore := (hx p.notes _ hp₀).1
  change x.on (p.annotate notes) = _ at hafter
  change x.on p = _ at hbefore
  rw [hafter, hbefore]
  exact ⟨rfl, rfl⟩

theorem annotate_handleFork (hw : (p.stores s).hook.watcher = some (.agent a))
    (hs : (p.agents a).store = s) (notes : List (ThreadId × Log.Event)) :
    ((handleFork a).on (p.annotate notes)).1 = ((handleFork a).on p).1 ∧
      Alike ((handleFork a).on (p.annotate notes)).2 ((handleFork a).on p).2 := by
  have hafter := (handleFork_commutes (p := p.annotate []) (.earlier s notes) hw hs).1
  have hbefore := (handleFork_commutes (p := p.annotate []) (.earlier s p.notes) hw hs).1
  change (handleFork a).on (p.annotate notes) = _ at hafter
  change (handleFork a).on p = _ at hbefore
  rw [hafter, hbefore]
  exact ⟨rfl, rfl⟩

/-- The action does the same if the fork is handled first. What is said may be said in another
order, and if the sampler panicked the store may not have looked for forks. -/
def Forestalls (a : AgentId) (s : StoreId) (p : Program) (x : Act α) : Prop :=
  ∃ r q q', x.on p = (r, q) ∧ (handleFork a >>= fun _ => x).on p = (r, q') ∧
    (Alike q q' ∨ (∃ h, (handleFork a).on p = (.error h, q')) ∧ q = q'.mark s)

theorem agent_first {f : Unit → Act α} (ha : ((handleFork a).on p).2.Abreast a) :
    (handleFork a >>= fun _ => tellAgent a >>= f).on p = (tellAgent a >>= f).on p := by
  rw [on_bind, on_bind]
  unfold tellAgent
  rw [on_discard]
  rcases hon : (handleFork a).on p with ⟨r | r, t⟩
  · rfl
  · rw [hon] at ha
    have htold := teller.abreast ha
    unfold tellAgent at htold
    dsimp only
    rw [on_bind, htold]

theorem agent_forestalls {f : Unit → Act α} (ha : ((handleFork a).on p).2.Abreast a) :
    Forestalls a s p (tellAgent a >>= f) := ⟨_, _, _, rfl, agent_first ha, .inl rfl⟩

theorem store_forestalls {f : Unit → Act α} (hp : p.AtRest) (halive : (p.agents a).alive = true)
    (hw : (p.stores s).hook.watcher = some (.agent a)) (hs : (p.agents a).store = s) :
    Forestalls a s p (checkStore tellAgent s >>= f) := by
  by_cases ha : p.Abreast a
  · have hsame : (handleFork a >>= fun _ => checkStore tellAgent s >>= f).on p =
        (checkStore tellAgent s >>= f).on p := by
      rw [on_bind, handleFork_abreast ha]
    exact ⟨_, _, _, rfl, hsame, .inl rfl⟩
  · have hseen : (p.stores s).hook.seen ≠ p.generation := fun h => ha (hp.told s a hw halive h)
    have hcheck : (checkStore tellAgent s).on p = (tellAgent a).on (p.mark s) := by
      rw [checkStore_behind hseen hw, on_inform, mark_agents, if_pos halive]
    obtain ⟨hmark, hafter⟩ := handleFork_commutes (.mark_store s) hw hs
    unfold Forestalls
    rw [on_bind, on_bind, hcheck]
    unfold tellAgent
    rw [on_discard, hmark]
    rcases hon : (handleFork a).on p with ⟨r | r, t⟩
    · exact ⟨_, _, _, rfl, rfl, .inr ⟨⟨r, rfl⟩, rfl⟩⟩
    · rw [hon] at hafter
      dsimp only
      rw [on_bind]
      have hcheck' := checkStore_watches teller hafter
      unfold tellAgent at hcheck'
      rw [hcheck']
      exact ⟨_, _, _, rfl, rfl, .inl rfl⟩

theorem said_forestalls {f : Unit → Act α} (e : Log.Event)
    (hx : ∀ T, Unnoticed s T → Commutes a s T (tellAgent a >>= f))
    (hw : (p.stores s).hook.watcher = some (.agent a)) (hs : (p.agents a).store = s) :
    Forestalls a s p (note e >>= fun _ => tellAgent a >>= f) := by
  have hsaid : ∀ q : Program, (note e >>= fun _ => tellAgent a >>= f).on q =
      (tellAgent a >>= f).on (q.annotate ((q.thread, e) :: q.notes)) := fun _ => rfl
  generalize hnotes : (p.thread, e) :: p.notes = notes
  have hw' : ((p.annotate notes).stores s).hook.watcher = some (.agent a) := hw
  have habreast := (handleFork_commutes (.mark_store s) hw' hs).2.abreast
  obtain ⟨hresult, hleft⟩ := annotate_handleFork hw hs notes
  have hafter := (handleFork_commutes (.mark_store s) hw hs).2
  unfold Forestalls
  rw [hsaid, hnotes, ← agent_first habreast, on_bind, on_bind]
  rcases hon : (handleFork a).on p with ⟨r | r, t⟩
  all_goals
    rcases hon' : (handleFork a).on (p.annotate notes) with ⟨r' | r', t'⟩
    all_goals
      rw [hon, hon'] at hresult hleft
      rw [hon] at hafter
      cases hresult
  · exact ⟨_, _, _, rfl, rfl, .inl hleft⟩
  · have ht' : t' = t.annotate t'.notes := congrArg (·.annotate t'.notes) hleft
    dsimp only
    rw [hsaid, ht']
    generalize tellAgent a >>= f = x at hx
    have hx' : ∀ notes, Commutes a s (fun p => p.annotate (p.notes ++ notes)) x :=
      fun notes => hx _ (.earlier s notes)
    have hwatches : Watches a s t := hafter
    obtain ⟨hr, hq⟩ := annotate_on hx' hwatches t'.notes
    obtain ⟨hr', hq'⟩ := annotate_on hx' hwatches ((t.thread, e) :: t.notes)
    exact ⟨(x.on (t.annotate t'.notes)).1, (x.on (t.annotate t'.notes)).2,
      (x.on (t.annotate ((t.thread, e) :: t.notes))).2, rfl, Prod.ext (hr'.trans hr.symm) rfl,
      .inl (hq.trans hq'.symm)⟩

end Program

theorem EntryPoint.forestalls {α : Type} {x : Act α} {p : Program} {a : AgentId} {s : StoreId}
    (h : EntryPoint a s x) (hp : p.AtRest) (halive : (p.agents a).alive = true)
    (hw : (p.stores s).hook.watcher = some (.agent a)) (hs : (p.agents a).store = s) :
    Forestalls a s p x := by
  have ha := (handleFork_commutes (.mark_store s) hw hs).2.abreast
  have on_store : ∀ {β : Type} {f : Unit → Act β}, Forestalls a s p (checkStore tellAgent s >>= f) :=
    store_forestalls hp halive hw hs
  have on_store_then : ∀ {β γ : Type} {f : Unit → Act β} {g : β → Act γ},
      Forestalls a s p ((checkStore tellAgent s >>= f) >>= g) := by
    intro β γ f g
    rw [bind_assoc]
    exact on_store
  cases h with
  | start c => exact agent_forestalls ha
  | reconfigure c => exact said_forestalls _ (fun _ hT => .startAgent hT c) hw hs
  | stop => exact agent_forestalls ha
  | state => exact agent_forestalls ha
  | tags => exact agent_forestalls ha
  | addTag c t => exact on_store_then
  | addTags c tags => exact on_store_then
  | removeTag c t => exact on_store_then
  | removeTags c tags => exact on_store
  | addGlobal t => exact on_store
  | removeGlobal t => exact on_store
  | replaceGlobals old new => exact on_store
  | snapshot c => exact on_store
  | clearContext c => exact on_store

namespace Program

theorem Goes.of_discard {α : Type} {x : Act α} {p q : Program} {own free : Option AgentId}
    (h : Goes own free p (Functor.discard x) q fun _ _ => True) : Goes own free p x q fun _ _ => True := by
  unfold Goes at h ⊢
  rw [ends_discard] at h
  exact h

end Program

theorem EntryPoint.goes {α : Type} {x : Act α} {p : Program} {a : AgentId} {s : StoreId}
    (h : EntryPoint a s x) (hp : p.Sound) (halive : (p.agents a).alive = true)
    (hl : (p.agents a).locked = false) : Goes none (some a) p x p fun _ _ => True := by
  have wide : ∀ {β : Type} {y : Act β} {post : β → Program → Prop}, Goes none none p y p post →
      Goes none (some a) p y p fun _ _ => True :=
    fun hy => (hy.amid ((Follows.refl hp).widen _)).mono fun _ _ _ _ => trivial
  have used : ∀ {β : Type} {y : Act β} (u : Use), u ≠ .state →
      discard y = useOnce tellAgent a s u → Goes none none p y p fun _ _ => True := by
    intro β y u hu hy
    apply Goes.of_discard
    rw [hy]
    exact useOnce_goes teller hp (.inl trivial) u fun h => absurd h hu
  have shown : ∀ {β : Type} (f : Agent → β), Goes none none p
      (tellAgent a >>= fun _ => agent a >>= fun x => pure (f x)) p fun _ _ => True :=
    fun f => (tellAgent_goes hp halive hl).bind fun _ _ hr _ => ⟨hr, trivial⟩
  cases h with
  | start c => exact (startAgent_goes hp halive hl).mono fun _ _ _ _ => trivial
  | reconfigure c =>
    have hsaid := ((Follows.refl hp).annotate
      ((p.thread, .say .info "Reconfiguring agent") :: p.notes)).widen (some a)
    refine Ends.mono (startAgent_goes hsaid.sound halive hl) ?_ ?_
    · exact fun _ _ ⟨hr, _⟩ => ⟨hsaid.trans hr, trivial⟩
    · exact fun _ _ ⟨hr, hh, hc⟩ => ⟨hsaid.trans hr, hh, fun h => hc (hsaid.calm.2 h)⟩
  | stop => exact wide (stopAgent_goes hp halive hl)
  | state => exact wide (shown Agent.phase)
  | tags => exact wide (shown Agent.store)
  | addTag c t => exact wide (used (.addTags c [t]) (by simp) rfl)
  | addTags c tags => exact wide (used (.addTags c tags) (by simp) rfl)
  | removeTag c t =>
    have hgo : Goes none none p (Program.removeTags s c [t]) p fun _ _ => True :=
      used (.removeTags c [t]) (by simp) rfl
    have hmap : Goes none none p (Program.removeTag s c t) p fun _ _ => True :=
      hgo.bind fun _ _ hr _ => ⟨hr, trivial⟩
    exact wide hmap
  | removeTags c tags => exact wide (used (.removeTags c tags) (by simp) rfl)
  | addGlobal t => exact wide (used (.addGlobal t) (by simp) rfl)
  | removeGlobal t => exact wide (used (.removeGlobal t) (by simp) rfl)
  | replaceGlobals old new => exact wide (used (.replaceGlobals old new) (by simp) rfl)
  | snapshot c => exact wide (used (.snapshot c) (by simp) rfl)
  | clearContext c => exact wide (used (.clearContext c) (by simp) rfl)

theorem EntryPoint.operation {α : Type} {x : Act α} {a : AgentId} {s : StoreId}
    (h : EntryPoint a s x) : ∃ op : Operation,
      (∀ p : Program, (p.agents a).alive = true → op.Fits p) ∧ ∀ p, op.after p = (x.on p).2 := by
  cases h with
  | start c => exact ⟨.start a c, fun _ h => h, fun _ => on_discard_snd _⟩
  | reconfigure c => exact ⟨.reconfigure a c, fun _ h => h, fun _ => on_discard_snd _⟩
  | stop => exact ⟨.stop a, fun _ h => h, fun _ => on_discard_snd _⟩
  | state => exact ⟨.state a, fun _ h => h, fun _ => on_discard_snd _⟩
  | tags => exact ⟨.tags a, fun _ h => h, fun _ => on_discard_snd _⟩
  | addTag c t => exact ⟨.addTags s c [t], fun _ _ => trivial, fun _ => on_discard_snd _⟩
  | addTags c tags => exact ⟨.addTags s c tags, fun _ _ => trivial, fun _ => on_discard_snd _⟩
  | removeTag c t =>
    refine ⟨.removeTags s c [t], fun _ _ => trivial, fun p => (on_discard_snd _).trans ?_⟩
    unfold Program.removeTag
    rw [on_bind]
    rcases (Program.removeTags s c [t]).on p with ⟨r | r, q⟩ <;> rfl
  | removeTags c tags => exact ⟨.removeTags s c tags, fun _ _ => trivial, fun _ => on_discard_snd _⟩
  | addGlobal t => exact ⟨.addGlobal s t, fun _ _ => trivial, fun _ => on_discard_snd _⟩
  | removeGlobal t => exact ⟨.removeGlobal s t, fun _ _ => trivial, fun _ => on_discard_snd _⟩
  | replaceGlobals old new =>
    exact ⟨.replaceGlobals s old new, fun _ _ => trivial, fun _ => on_discard_snd _⟩
  | snapshot c => exact ⟨.snapshot s c, fun _ _ => trivial, fun _ => on_discard_snd _⟩
  | clearContext c => exact ⟨.clearContext s c, fun _ _ => trivial, fun _ => on_discard_snd _⟩

end ProfilingAgent
