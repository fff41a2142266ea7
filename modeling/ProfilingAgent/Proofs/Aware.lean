import ProfilingAgent.Proofs.Telling

set_option autoImplicit false

namespace ProfilingAgent

open Act Program

namespace Program

variable {α : Type} {tell : AgentId → Act Unit} {p q r : Program} {s : StoreId}

/-- The store has seen every fork. -/
def Aware (p : Program) (s : StoreId) : Prop := (p.stores s).hook.seen = p.generation

/-- Nothing has changed but the tags of one store, and what was said. -/
structure Retagged (s : StoreId) (tags : TagStore) (p q : Program) : Prop where
  tags : (q.stores s).tags = tags
  hook : ∀ t, (q.stores t).hook = (p.stores t).hook
  others : ∀ t, t ≠ s → q.stores t = p.stores t
  same : Same p q

namespace Retagged

variable {tags tags' : TagStore}

theorem refl (p : Program) (s : StoreId) : Retagged s (p.stores s).tags p p :=
  ⟨rfl, fun _ => rfl, fun _ _ => rfl, ⟨rfl, rfl, rfl, rfl, fun _ => rfl⟩⟩

theorem retag (p : Program) (s : StoreId) (tags : TagStore) : Retagged s tags p (p.retag s tags) where
  tags := by simp
  hook t := by
    by_cases ht : t = s <;> simp [ht]
  others t ht := by simp [ht]
  same := .retag p s tags

theorem annotate (h : Retagged s tags p q) (notes : List (ThreadId × Log.Event)) :
    Retagged s tags p (q.annotate notes) :=
  ⟨h.tags, h.hook, h.others, h.same.generation, h.same.agents, h.same.slot, h.same.calls,
    h.same.watcher⟩

theorem trans (h : Retagged s tags p q) (h' : Retagged s tags' q r) : Retagged s tags' p r where
  tags := h'.tags
  hook t := (h'.hook t).trans (h.hook t)
  others t ht := (h'.others t ht).trans (h.others t ht)
  same := h.same.trans h'.same

theorem aware (h : Retagged s tags p q) {t : StoreId} : q.Aware t ↔ p.Aware t := by
  unfold Aware
  rw [h.hook, h.same.generation]

end Retagged

/-- An action gives a result and leaves the tags of a store so. -/
def Yields (x : Act α) (p : Program) (s : StoreId) (result : α) (tags : TagStore) : Prop :=
  ∃ q, x.on p = (.ok result, q) ∧ Retagged s tags p q

namespace Yields

variable {β : Type} {x : Act α} {a : α} {tags : TagStore}

theorem map (h : Yields x p s a tags) (f : α → β) : Yields (f <$> x) p s (f a) tags := by
  obtain ⟨q, hon, hq⟩ := h
  exact ⟨q, by rw [on_map, hon], hq⟩

theorem bind_pure (h : Yields x p s a tags) (f : α → β) :
    Yields (x >>= fun a => pure (f a)) p s (f a) tags := by
  obtain ⟨q, hon, hq⟩ := h
  exact ⟨q, by rw [on_bind, hon]; rfl, hq⟩

end Yields

theorem on_store : (store s).on p = (.ok (p.stores s), p) := rfl

theorem Aware.on_check (h : p.Aware s) (f : Unit → Act α) :
    (checkStore tell s >>= f).on p = (f ()).on p := by
  rw [on_bind, checkStore_seen h]

def attempted (tags : TagStore) : Except TagError TagStore → Except TagError Unit × TagStore
  | .error e => (.error e, tags)
  | .ok tags' => (.ok (), tags')

section Uses

variable (h : p.Aware s)

include h

theorem revise_yields (use : TagStore → Except TagError TagStore) :
    Yields (revise tell s use) p s (attempted (p.stores s).tags (use (p.stores s).tags)).1
      (attempted (p.stores s).tags (use (p.stores s).tags)).2 := by
  unfold Yields revise
  rw [h.on_check, on_bind, on_store]
  dsimp only
  cases use (p.stores s).tags with
  | error e => exact ⟨p, rfl, .refl p s⟩
  | ok tags => exact ⟨p.retag s tags, rfl, .retag p s tags⟩

theorem addTags_yields (c : ContextId) (tags : List Tag) :
    Yields (addTagsWith tell s c tags) p s
      (attempted (p.stores s).tags ((p.stores s).tags.addTags c tags)).1
      (attempted (p.stores s).tags ((p.stores s).tags.addTags c tags)).2 := by
  have hrevised : Yields (revise tell s (·.addTags c tags)) p s _ _ := revise_yields h _
  obtain ⟨q, hon, hq⟩ := hrevised
  unfold Yields addTagsWith
  rw [on_bind, hon]
  cases hr : (p.stores s).tags.addTags c tags with
  | error e =>
    rw [hr] at hq
    exact ⟨q, rfl, hq⟩
  | ok x =>
    rw [hr] at hq
    simp only [attempted]
    by_cases hempty : (!tags.isEmpty) = true
    · rw [if_pos hempty]
      exact ⟨_, rfl, hq.annotate _⟩
    · rw [if_neg hempty]
      exact ⟨q, rfl, hq⟩

theorem removeTags_yields (c : ContextId) (tags : List Tag) :
    Yields (removeTagsWith tell s c tags) p s ((p.stores s).tags.removeTags c tags).2
      ((p.stores s).tags.removeTags c tags).1 := by
  have hq := Retagged.retag p s ((p.stores s).tags.removeTags c tags).1
  unfold Yields removeTagsWith
  rw [h.on_check, on_bind, on_store]
  dsimp only
  by_cases hc : (p.stores s).tags.contexts.holds c = true
  · simp only [if_pos hc]
    exact ⟨_, rfl, hq.annotate _⟩
  · simp only [if_neg hc]
    exact ⟨_, rfl, hq⟩

theorem removeGlobal_yields (t : Tag) :
    Yields (removeGlobalWith tell s t) p s ((p.stores s).tags.removeGlobal t).2
      ((p.stores s).tags.removeGlobal t).1 := by
  unfold Yields removeGlobalWith
  rw [h.on_check, on_bind, on_store]
  exact ⟨_, rfl, .retag p s _⟩

theorem clearContext_yields (c : ContextId) :
    Yields (clearContextWith tell s c) p s ((p.stores s).tags.clearContext c).2
      ((p.stores s).tags.clearContext c).1 := by
  unfold Yields clearContextWith
  rw [h.on_check, on_bind, on_store]
  exact ⟨_, rfl, .retag p s _⟩

theorem snapshot_yields (c : ContextId) :
    Yields (snapshotWith tell s c) p s ((p.stores s).tags.snapshot c) (p.stores s).tags := by
  unfold Yields snapshotWith
  rw [h.on_check, on_bind, on_store]
  exact ⟨_, rfl, .refl p s⟩

end Uses
end Program

def Use.leaves : Use → TagStore → TagStore
  | addTags c tags, x => (Program.attempted x (x.addTags c tags)).2
  | removeTags c tags, x => (x.removeTags c tags).1
  | addGlobal t, x => (Program.attempted x (x.addGlobal t)).2
  | removeGlobal t, x => (x.removeGlobal t).1
  | replaceGlobals old new, x => (Program.attempted x (x.replaceGlobals old new)).2
  | clearContext c, x => (x.clearContext c).1
  | snapshot _, x | state, x => x

theorem TagStore.addTags_globals {c : ContextId} {tags : List Tag} {x y : TagStore}
    (h : x.addTags c tags = .ok y) : y.globals = x.globals := by
  unfold addTags at h
  split at h
  · cases h
  · split at h <;> cases h <;> rfl

theorem Use.Modest.globals {u : Use} (h : u.Modest) (x : TagStore) : (u.leaves x).globals = x.globals := by
  cases u with
  | addTags c tags =>
    change (Program.attempted x (x.addTags c tags)).2.globals = x.globals
    cases hr : x.addTags c tags with
    | error e => rfl
    | ok y => exact TagStore.addTags_globals hr
  | removeTags c tags => rfl
  | snapshot c => rfl
  | clearContext c => rfl
  | state => rfl
  | addGlobal t => exact h.elim
  | removeGlobal t => exact h.elim
  | replaceGlobals old new => exact h.elim

namespace Program

variable {tell : AgentId → Act Unit} {able : Prop} {p : Program} {a : AgentId} {s : StoreId}

/-- To use a store is to look for a fork and then to use it. -/
theorem useOnce_eq (tell : AgentId → Act Unit) (a : AgentId) (s : StoreId) {u : Use}
    (hu : u ≠ .state) : ∃ (α : Type) (f : Unit → Act α),
      useOnce tell a s u = discard (checkStore tell s >>= f) := by
  cases u with
  | addTags c tags => exact ⟨_, _, congrArg discard (bind_assoc (checkStore tell s) _ _)⟩
  | removeTags c tags => exact ⟨_, _, rfl⟩
  | addGlobal t => exact ⟨_, _, rfl⟩
  | removeGlobal t => exact ⟨_, _, rfl⟩
  | replaceGlobals old new => exact ⟨_, _, rfl⟩
  | snapshot c => exact ⟨_, _, rfl⟩
  | clearContext c => exact ⟨_, _, rfl⟩
  | state => exact absurd rfl hu

theorem Yields.discard {α : Type} {x : Act α} {r : α} {tags : TagStore} (h : Yields x p s r tags) :
    Yields (discard x) p s () tags := by
  obtain ⟨q, hon, hq⟩ := h
  exact ⟨q, by rw [on_discard, hon], hq⟩

theorem useOnce_yields (N : Teller tell able) (h : p.Aware s) (ha : p.Abreast a) (u : Use) :
    Yields (useOnce tell a s u) p s () (u.leaves (p.stores s).tags) := by
  cases u with
  | addTags c tags => exact (addTags_yields h c tags).discard
  | removeTags c tags => exact (removeTags_yields h c tags).discard
  | addGlobal t => exact (revise_yields h (·.addGlobal t)).discard
  | removeGlobal t => exact (removeGlobal_yields h t).discard
  | replaceGlobals old new => exact (revise_yields h (·.replaceGlobals old new)).discard
  | snapshot c => exact (snapshot_yields h c).discard
  | clearContext c => exact (clearContext_yields h c).discard
  | state => exact ⟨p, N.abreast ha, .refl p s⟩

theorem useOnce_aware (N : Teller tell able) (h : p.Aware s) (ha : p.Abreast a) (u : Use) :
    Ends (useOnce tell a s u) p (fun _ q => Retagged s (u.leaves (p.stores s).tags) p q)
      fun _ _ => True := by
  obtain ⟨q, hon, hq⟩ := useOnce_yields N h ha u
  rw [ends_of_on hon]
  exact hq

def leftBy (us : List Use) (tags : TagStore) : TagStore := us.foldl (fun x u => u.leaves x) tags

theorem useAll_yields (N : Teller tell able) (h : p.Aware s) (ha : p.Abreast a) (us : List Use) :
    Yields (useAll tell a s us) p s () (leftBy us (p.stores s).tags) := by
  induction us generalizing p with
  | nil => exact ⟨p, rfl, .refl p s⟩
  | cons u us ih =>
    obtain ⟨q, hon, hq⟩ := useOnce_yields N h ha u
    obtain ⟨r, hon', hr⟩ := ih (hq.aware.2 h) ((hq.same.abreast a).2 ha)
    rw [hq.tags] at hr
    refine ⟨r, ?_, hq.trans hr⟩
    unfold useAll
    rw [on_bind, hon]
    exact hon'

theorem leftBy_globals {us : List Use} (h : ∀ u ∈ us, u.Modest) (x : TagStore) :
    (leftBy us x).globals = x.globals := by
  induction us generalizing x with
  | nil => rfl
  | cons u us ih =>
    change (leftBy us (u.leaves x)).globals = x.globals
    rw [ih fun v hv => h v (List.mem_cons_of_mem u hv), (h u List.mem_cons_self).globals]

end Program
end ProfilingAgent
