import ProfilingAgent.Proofs.SingleScopes

set_option autoImplicit false

namespace ProfilingAgent

open Act Program

namespace Program

variable {α β : Type} {p q r : Program} {s : StoreId}

/-- No fork is pending for a store: it has seen every fork, or who watches it has. -/
def Still (p : Program) (s : StoreId) : Prop :=
  p.Aware s ∨ ∀ a, (p.stores s).hook.watcher = some (.agent a) → (p.agents a).alive = true → p.Abreast a

theorem Still.congr (h : p.Still s) (hstores : q.stores = p.stores) (hsame : Same p q) : q.Still s := by
  unfold Still Aware
  rw [hstores, hsame.generation, hsame.agents]
  exact h.imp_right fun hw a ha halive => (hsame.abreast a).2 (hw a ha halive)

structure Intact (p q : Program) : Prop where
  rest : ∃ stores counters notes, q = { p with stores := stores, counters := counters, notes := notes }
  tags : ∀ t, (q.stores t).tags = (p.stores t).tags
  watcher : ∀ t, (q.stores t).hook.watcher = (p.stores t).hook.watcher

namespace Intact

theorem refl (p : Program) : Intact p p := ⟨⟨_, _, _, rfl⟩, fun _ => rfl, fun _ => rfl⟩

theorem trans (h : Intact p q) (h' : Intact q r) : Intact p r where
  rest := by
    obtain ⟨stores, counters, notes, rfl⟩ := h.rest
    obtain ⟨stores', counters', notes', rfl⟩ := h'.rest
    exact ⟨stores', counters', notes', rfl⟩
  tags t := (h'.tags t).trans (h.tags t)
  watcher t := (h'.watcher t).trans (h.watcher t)

theorem count (p : Program) (counters : Table Counter) : Intact p (p.count counters) :=
  ⟨⟨_, counters, _, rfl⟩, fun _ => rfl, fun _ => rfl⟩

theorem mark (p : Program) (s : StoreId) : Intact p (p.mark s) where
  rest := ⟨_, _, _, rfl⟩
  tags t := by
    by_cases ht : t = s <;> simp [ht]
  watcher := (Same.mark p s).watcher

theorem same (h : Intact p q) : Same p q := by
  have hwatcher := h.watcher
  obtain ⟨stores, counters, notes, rfl⟩ := h.rest
  exact ⟨rfl, rfl, rfl, rfl, hwatcher⟩

end Intact

/-- The action gives a result, and nothing has happened to agents, their calls and the slot. -/
def Aside (x : Act α) (p : Program) : Prop := Ends x p (fun _ q => Same p q) fun _ _ => False

theorem Aside.bind {x : Act α} {f : α → Act β} (hx : Aside x p) (hf : ∀ r q, Same p q → Aside (f r) q) :
    Aside (x >>= f) p := by
  unfold Aside
  rw [ends_bind]
  exact Ends.mono hx (fun r q hq => Ends.mono (hf r q hq) (fun _ _ h => hq.trans h) fun _ _ h => h)
    fun _ _ h => h

theorem Aside.pure (r : α) (p : Program) : Aside (pure r : Act α) p := Same.refl p

theorem Aside.get (p : Program) : Aside get p := Same.refl p

theorem Aside.note (e : Log.Event) (p : Program) : Aside (note e) p := Same.annotate p _

theorem Yields.aside {x : Act α} {r : α} {tags : TagStore} (h : Yields x p s r tags) : Aside x p := by
  obtain ⟨q, hon, hq⟩ := h
  exact (ends_of_on hon).2 hq.same

def Looks (s : StoreId) (x : Act α) : Prop := ∃ f, x = checkStore tellAgent s >>= f

theorem Looks.bind {x : Act α} (h : Looks s x) (f : α → Act β) : Looks s (x >>= f) := by
  obtain ⟨g, rfl⟩ := h
  exact ⟨_, bind_assoc _ _ _⟩

/-- Nothing has changed but what was said and who has noticed a fork, and nothing at all if the store had
noticed every fork. -/
def Unaltered (s : StoreId) (p q : Program) : Prop := Intact p q ∧ (p.Aware s → q = p)

theorem Still.check (h : p.Still s) :
    Ends (checkStore tellAgent s) p (fun _ q => q.Aware s ∧ Unaltered s p q) fun _ _ => False := by
  unfold checkStore
  simp only [ends_bind, ends_get]
  by_cases haware : (p.stores s).hook.seen = p.generation
  · rw [if_neg (not_not.2 haware)]
    exact ⟨haware, .refl p, fun _ => rfl⟩
  · have seen : ∀ q, q.stores = (p.mark s).stores → q.generation = p.generation → Intact p q →
        q.Aware s ∧ Unaltered s p q := by
      intro q hstores hgeneration hq
      refine ⟨?_, hq, fun h => absurd h haware⟩
      unfold Aware
      rw [hstores, hgeneration]
      simp
    have here := seen (p.mark s) rfl rfl (.mark p s)
    rw [if_pos haware, ends_bind]
    change Ends _ (p.mark s) _ _
    cases hw : (p.stores s).hook.watcher with
    | none => exact here
    | some w =>
      cases w with
      | agent a =>
        simp only [inform, ends_bind, ends_get]
        split
        · rename_i halive
          have habreast : (p.mark s).Abreast a := h.resolve_left haware a hw halive
          exact (ends_of_on (teller.abreast habreast)).2 here
        · exact here
      | counter c =>
        simp only [inform, ends_modify]
        split
        · exact seen _ rfl rfl ((Intact.mark p s).trans (.count _ _))
        · exact here

structure Revised (s : StoreId) (tags : TagStore) (p q : Program) : Prop where
  same : Same p q
  aware : q.Aware s
  tags : (q.stores s).tags = tags
  others : ∀ t, t ≠ s → (q.stores t).tags = (p.stores t).tags

theorem Still.revised (h : p.Still s) (use : TagStore → Except TagError TagStore) :
    Ends (revise tellAgent s use) p (fun r q => r = (attempted (p.stores s).tags (use (p.stores s).tags)).1 ∧
      Revised s (attempted (p.stores s).tags (use (p.stores s).tags)).2 p q) fun _ _ => False := by
  unfold Program.revise
  rw [ends_bind]
  refine Ends.mono h.check (fun _ q ⟨haware, hq, _⟩ => ?_) fun _ _ h => h
  simp only [ends_bind, ends_store]
  rw [hq.tags]
  cases use (p.stores s).tags with
  | error e => exact ⟨rfl, hq.same, haware, hq.tags s, fun t _ => hq.tags t⟩
  | ok tags =>
    refine ⟨rfl, hq.same.trans (.retag q s tags), (Retagged.retag q s tags).aware.2 haware,
      (Retagged.retag q s tags).tags, fun t ht => ?_⟩
    exact (congrArg Store.tags ((Retagged.retag q s tags).others t ht)).trans (hq.tags t)

theorem Still.aside {x : Act α} (h : p.Still s) (hx : Looks s x)
    (haside : ∀ q, q.Aware s → Aside x q) : Aside x p := by
  obtain ⟨f, rfl⟩ := hx
  unfold Aside
  rw [ends_bind]
  refine Ends.mono h.check (fun _ q ⟨haware, hq, _⟩ => ?_) fun _ _ h => h
  have hf := haside q haware
  unfold Aside Ends at hf
  rw [haware.on_check] at hf
  exact Ends.mono hf (fun _ _ h => hq.same.trans h) fun _ _ h => h

theorem looks_revise (use : TagStore → Except TagError TagStore) : Looks s (revise tellAgent s use) :=
  ⟨_, rfl⟩

theorem looks_addTags (c : ContextId) (tags : List Tag) : Looks s (addTags s c tags) :=
  (looks_revise _).bind _

theorem looks_removeTags (c : ContextId) (tags : List Tag) : Looks s (removeTags s c tags) := ⟨_, rfl⟩

inductive StoreUse (s : StoreId) : {α : Type} → Act α → Prop
  | ask (k : StoreCall) : StoreUse s (k.ask s)
  | snapshotWithProcess (c : ContextId) (settings : Settings) :
    StoreUse s (snapshotWithProcess s c settings)
  | enter (provider : Provider) (tags : List Tag) : StoreUse s (enter s provider tags)
  | enterContext (c : ContextId) (tags : List Tag) : StoreUse s (enterContext s c tags)
  | exit (c : ContextId) (tags : List Tag) : StoreUse s (exit ⟨s, c, tags⟩)

theorem Aside.map {x : Act α} (h : Aside x p) (f : α → β) : Aside (f <$> x) p := by
  rw [map_eq_pure_bind]
  exact h.bind fun _ q _ => .pure _ q

theorem Still.addTags (h : p.Still s) (c : ContextId) (tags : List Tag) : Aside (addTags s c tags) p :=
  h.aside (looks_addTags c tags) fun _ hq => (addTags_yields hq c tags).aside

theorem Still.removeTags (h : p.Still s) (c : ContextId) (tags : List Tag) :
    Aside (removeTags s c tags) p :=
  h.aside (looks_removeTags c tags) fun _ hq => (removeTags_yields hq c tags).aside

theorem Still.snapshot (h : p.Still s) (c : ContextId) : Aside (snapshot s c) p :=
  h.aside ⟨_, rfl⟩ fun _ hq => (snapshot_yields hq c).aside

theorem Still.revise (h : p.Still s) (use : TagStore → Except TagError TagStore) :
    Aside (revise tellAgent s use) p := h.aside (looks_revise use) fun _ hq => (revise_yields hq use).aside

theorem Still.ask (h : p.Still s) (k : StoreCall) : Aside (k.ask s) p := by
  cases k with
  | addTag c t => exact (h.addTags c [t]).map _
  | addTags c tags => exact (h.addTags c tags).map _
  | removeTag c t => exact ((h.removeTags c [t]).bind fun _ q _ => .pure _ q).map _
  | removeTags c tags => exact (h.removeTags c tags).map _
  | addGlobal t => exact (h.revise (·.addGlobal t)).map _
  | removeGlobal t => exact (h.aside ⟨_, rfl⟩ fun _ hq => (removeGlobal_yields hq t).aside).map _
  | replaceGlobals old new => exact (h.revise (·.replaceGlobals old new)).map _
  | clearContext c => exact (h.aside ⟨_, rfl⟩ fun _ hq => (clearContext_yields hq c).aside).map _
  | snapshot c => exact (h.snapshot c).map _
  | contextCount => exact Same.refl p

theorem Still.enterContext (h : p.Still s) (c : ContextId) (tags : List Tag) :
    Aside (enterContext s c tags) p := by
  refine (h.addTags c tags).bind fun r q _ => ?_
  cases r with
  | error e => exact .pure _ q
  | ok _ => exact (Aside.note _ q).bind fun _ q' _ => .pure _ q'

/-- If no fork is pending for a store, then what is done to it leaves agents alone. -/
theorem StoreUse.aside {x : Act α} (hx : StoreUse s x) (h : p.Still s) : Aside x p := by
  cases hx with
  | ask k => exact h.ask k
  | snapshotWithProcess c settings =>
    exact (h.snapshot c).bind fun _ q _ => (Aside.get q).bind fun _ q' _ => .pure _ q'
  | enter provider tags =>
    obtain ⟨q, hon, -, hstores, hsame⟩ := currentContext_on p provider
    unfold Aside Program.enter
    rw [ends_bind, ends_of_on hon]
    exact Ends.mono ((h.congr hstores hsame).enterContext _ tags) (fun _ _ h => hsame.trans h) fun _ _ h => h
  | enterContext c tags => exact h.enterContext c tags
  | exit c tags =>
    unfold Program.exit
    exact ((h.removeTags c tags).map _).bind fun _ q _ => .note _ q

end Program
end ProfilingAgent
