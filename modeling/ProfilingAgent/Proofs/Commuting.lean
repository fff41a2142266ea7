import ProfilingAgent.Proofs.Operations

set_option autoImplicit false

/-!
# What a transition cannot notice

An agent that has seen every fork and is told about forks by its own store goes through its
transitions in the same way whether or not the store has seen the last fork, and whatever was said
before. Both are changes of a program that commute with everything that the agent does.
-/
namespace ProfilingAgent.Program

open Act

variable {α β : Type} {tell : AgentId → Act Unit} {able : Prop} {p q : Program} {a b : AgentId}
  {s : StoreId} {T : Program → Program}

/-- A change that is not noticed by who only uses the tags of one store. -/
structure Unnoticed (s : StoreId) (T : Program → Program) : Prop where
  agents : ∀ p, (T p).agents = p.agents
  slot : ∀ p, (T p).slot = p.slot
  generation : ∀ p, (T p).generation = p.generation
  thread : ∀ p, (T p).thread = p.thread
  tags : ∀ p, ((T p).stores s).tags = (p.stores s).tags
  watcher : ∀ p, ((T p).stores s).hook.watcher = (p.stores s).hook.watcher
  noticed : ∀ p, forkNoticed (T p) = forkNoticed p
  amend : ∀ p b f, T (p.amend b f) = (T p).amend b f
  retag : ∀ p tags, T (p.retag s tags) = (T p).retag s tags
  call : ∀ p c, T (p.call c) = (T p).call c
  give : ∀ p slot, T (p.give slot) = (T p).give slot
  mark : ∀ p, T (p.mark s) = (T p).mark s
  said : ∀ p new, T (p.annotate (new ++ p.notes)) = (T p).annotate (new ++ (T p).notes)

theorem retag_mark (p : Program) (s : StoreId) (tags : TagStore) :
    (p.retag s tags).mark s = (p.mark s).retag s tags := by
  have h : (p.retag s tags).stores.put s ⟨tags, ⟨p.generation, (p.stores s).hook.watcher⟩⟩ =
      (p.mark s).stores.update s fun x => { x with tags := tags } := by
    unfold retag mark Table.update
    dsimp only
    rw [Table.put_put, Table.put_put, Table.put_row, if_pos rfl]
  unfold mark
  rw [retag_stores, if_pos rfl]
  unfold retag at h ⊢
  dsimp only at h ⊢
  rw [h]
  rfl

theorem Unnoticed.mark_store (s : StoreId) : Unnoticed s (·.mark s) where
  agents _ := rfl
  slot _ := rfl
  generation _ := rfl
  thread _ := rfl
  tags p := by simp
  watcher p := by simp
  noticed _ := rfl
  amend _ _ _ := rfl
  retag p tags := retag_mark p s tags
  call _ _ := rfl
  give _ _ := rfl
  mark _ := rfl
  said _ _ := rfl

theorem Unnoticed.earlier (s : StoreId) (notes : List (ThreadId × Log.Event)) :
    Unnoticed s fun p => p.annotate (p.notes ++ notes) where
  agents _ := rfl
  slot _ := rfl
  generation _ := rfl
  thread _ := rfl
  tags _ := rfl
  watcher _ := rfl
  noticed _ := rfl
  amend _ _ _ := rfl
  retag _ _ := rfl
  call _ _ := rfl
  give _ _ := rfl
  mark _ := rfl
  said p new := by
    unfold annotate
    simp

/-- An agent has seen every fork, and its own store tells it about forks. -/
structure Watches (a : AgentId) (s : StoreId) (p : Program) : Prop where
  abreast : p.Abreast a
  watcher : (p.stores s).hook.watcher = some (.agent a)
  store : (p.agents a).store = s

theorem Unnoticed.watches (h : Unnoticed s T) (hp : Watches a s p) : Watches a s (T p) where
  abreast := (Abreast.congr (by rw [h.agents]) (h.generation p)).2 hp.abreast
  watcher := (h.watcher p).trans hp.watcher
  store := by
    rw [h.agents]
    exact hp.store

def Commutes (a : AgentId) (s : StoreId) (T : Program → Program) (x : Act α) : Prop :=
  ∀ p, Watches a s p → x.on (T p) = ((x.on p).1, T (x.on p).2) ∧ Watches a s (x.on p).2

namespace Commutes

theorem pure (r : α) : Commutes a s T (pure r) := fun _ hp => ⟨rfl, hp⟩

theorem throw (h : Halt) : Commutes a s T (throw h : Act α) := fun _ hp => ⟨rfl, hp⟩

theorem bind {x : Act α} {f : α → Act β} (hx : Commutes a s T x)
    (hf : ∀ r, Commutes a s T (f r)) : Commutes a s T (x >>= f) := by
  intro p hp
  obtain ⟨hon, hw⟩ := hx p hp
  rw [on_bind, on_bind, hon]
  rcases hr : x.on p with ⟨r | r, q⟩
  · rw [hr] at hw
    exact ⟨rfl, hw⟩
  · rw [hr] at hw
    exact hf r q hw

theorem discard {x : Act α} (hx : Commutes a s T x) : Commutes a s T (discard x) := by
  intro p hp
  obtain ⟨hon, hw⟩ := hx p hp
  rw [on_discard, on_discard, hon]
  rcases hr : x.on p with ⟨r | r, q⟩ <;> rw [hr] at hw <;> exact ⟨rfl, hw⟩

theorem protect {x : Act α} {after : Act Unit} (hx : Commutes a s T x)
    (hafter : Commutes a s T after) : Commutes a s T (protect x after) := by
  intro p hp
  obtain ⟨hon, hw⟩ := hx p hp
  unfold ProfilingAgent.protect
  simp only [on_bind, on_tryCatch, hon]
  rcases hr : x.on p with ⟨r | r, q⟩
  all_goals
    rw [hr] at hw
    obtain ⟨hon', hw'⟩ := hafter q hw
    simp only [on_pure, hon']
    rcases hr' : after.on q with ⟨u | u, t⟩ <;> rw [hr'] at hw' <;> exact ⟨rfl, hw'⟩

section Steps

variable (h : Unnoticed s T)

include h

theorem own {f : Agent → Act β} (hf : ∀ x, x.store = s → Commutes a s T (f x)) :
    Commutes a s T (agent a >>= f) := by
  intro p hp
  have hread : ∀ q, (agent a).on q = (.ok (q.agents a), q) := fun _ => rfl
  rw [on_bind, on_bind, hread, hread]
  dsimp only
  rw [h.agents]
  exact hf (p.agents a) hp.store p hp

theorem tags {f : Store → Act β} (hf : ∀ x, Commutes a s T (f x))
    (hsame : ∀ x y : Store, x.tags = y.tags → f x = f y) : Commutes a s T (store s >>= f) := by
  intro p hp
  have hread : ∀ q, (Program.store s).on q = (.ok (q.stores s), q) := fun _ => rfl
  rw [on_bind, on_bind, hread, hread]
  dsimp only
  rw [hsame _ _ (h.tags p)]
  exact hf (p.stores s) p hp

theorem globals : Commutes a s T (globals s) := by
  intro p hp
  have hread : ∀ q, (Program.globals s).on q = (.ok (q.stores s).tags.globals, q) := fun _ => rfl
  rw [hread, hread, h.tags]
  exact ⟨rfl, hp⟩

theorem setTags (tags : TagStore) : Commutes a s T (setTags s tags) := by
  intro p hp
  have hset : ∀ q, (Program.setTags s tags).on q = (.ok (), q.retag s tags) := fun _ => rfl
  rw [hset, hset, h.retag]
  exact ⟨rfl, hp.abreast, by simpa using hp.watcher, hp.store⟩

theorem updateAgent {f : Agent → Agent} (hf : ∀ x, (f x).seen = x.seen ∧ (f x).store = x.store) :
    Commutes a s T (updateAgent b f) := by
  intro p hp
  have hset : ∀ q, (Program.updateAgent b f).on q = (.ok (), q.amend b f) := fun _ => rfl
  rw [hset, hset, h.amend]
  have hseen := amend_field p b a f Agent.seen (hf _).1
  have hstore := amend_field p b a f Agent.store (hf _).2
  exact ⟨rfl, (Abreast.congr hseen rfl).2 hp.abreast, hp.watcher, hstore.trans hp.store⟩

theorem record (c : SamplerCall) : Commutes a s T (record c) := by
  intro p hp
  have hset : ∀ q, (Program.record c).on q = (.ok (), q.call c) := fun _ => rfl
  rw [hset, hset, h.call]
  exact ⟨rfl, hp.abreast, hp.watcher, hp.store⟩

theorem note (e : Log.Event) : Commutes a s T (note e) := by
  intro p hp
  have hset : ∀ q, (Program.note e).on q = (.ok (), q.annotate ([(q.thread, e)] ++ q.notes)) :=
    fun _ => rfl
  rw [hset, hset, h.said, h.thread]
  exact ⟨rfl, hp.abreast, hp.watcher, hp.store⟩

theorem configuredTags (c : Settings) : Commutes a s T (configuredTags c) := by
  intro p hp
  have hset : ∀ q, (Program.configuredTags c).on q = (.ok c.validTags,
      q.annotate ((c.tagRemarks.map fun e => (q.thread, e)).reverse ++ q.notes)) := fun _ => rfl
  rw [hset, hset, h.said, h.thread]
  exact ⟨rfl, hp.abreast, hp.watcher, hp.store⟩

theorem previousTags (c : Option Settings) : Commutes a s T (previousTags c) := by
  cases c with
  | none => exact .pure []
  | some c => exact .configuredTags h c

theorem setPhase (phase : Phase) : Commutes a s T (setPhase b phase) :=
  .updateAgent h (by simp)

theorem release : Commutes a s T (release b) := by
  intro p hp
  have hset : ∀ q, (Program.release b).on q = (.ok (), q.yieldSlot b) := fun _ => rfl
  have hyield : T (p.yieldSlot b) = (T p).yieldSlot b := by
    unfold yieldSlot
    rw [h.slot]
    split
    · exact h.give p none
    · rfl
  rw [hset, hset, hyield]
  refine ⟨rfl, ?_, ?_, ?_⟩
  · exact (Abreast.congr (by rw [yieldSlot_agents]) (yieldSlot_generation p b)).2 hp.abreast
  · rw [yieldSlot_stores]
    exact hp.watcher
  · rw [yieldSlot_agents]
    exact hp.store

theorem claim : Commutes a s T (claim b) := by
  intro p hp
  have hset : ∀ q, (Program.claim b).on q =
      if q.slot = none then (.ok true, q.give (some b)) else (.ok (q.slot = some b), q) := by
    intro q
    have hread : (get : Act Program).on q = (.ok q, q) := rfl
    unfold Program.claim
    rw [on_bind, hread]
    dsimp only
    cases q.slot with
    | none => rfl
    | some holder => simp [on_pure]
  rw [hset, hset, h.slot]
  by_cases hfree : p.slot = none
  · rw [if_pos hfree, if_pos hfree, h.give]
    exact ⟨rfl, hp.abreast, hp.watcher, hp.store⟩
  · rw [if_neg hfree, if_neg hfree]
    exact ⟨rfl, hp⟩

end Steps
end Commutes

end ProfilingAgent.Program
