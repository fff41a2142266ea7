import ProfilingAgent.Program.Scopes

set_option autoImplicit false

namespace ProfilingAgent

variable {α β : Type}

def Act.on (x : Act α) (p : Program) : Except Halt α × Program := x.run.run p

/-- The action ends as `ok` says if it gives a result, and as `halted` says if it does not. -/
def Act.Ends (x : Act α) (p : Program) (ok : α → Program → Prop)
    (halted : Halt → Program → Prop) : Prop :=
  match x.on p with
  | (.ok a, q) => ok a q
  | (.error h, q) => halted h q

namespace Act

variable {x : Act α} {p : Program} {ok : α → Program → Prop} {halted : Halt → Program → Prop}

theorem on_pure (a : α) : (pure a : Act α).on p = (.ok a, p) := rfl

theorem on_bind (x : Act α) (f : α → Act β) :
    (x >>= f).on p = match x.on p with
      | (.ok a, q) => (f a).on q
      | (.error h, q) => (.error h, q) := by
  unfold on ExceptT.run StateT.run
  simp only [bind, ExceptT.bind, ExceptT.mk, StateT.bind, ExceptT.bindCont]
  rcases x p with ⟨r | r, q⟩ <;> rfl

theorem on_map (f : α → β) (x : Act α) :
    (f <$> x).on p = match x.on p with
      | (.ok a, q) => (.ok (f a), q)
      | (.error h, q) => (.error h, q) := by
  unfold on ExceptT.run StateT.run
  simp only [Functor.map, ExceptT.map, ExceptT.mk, bind, StateT.bind]
  rcases x p with ⟨r | r, q⟩ <;> rfl

theorem on_tryCatch (x : Act α) (f : Halt → Act α) :
    (tryCatchThe Halt x f).on p = match x.on p with
      | (.ok a, q) => (.ok a, q)
      | (.error h, q) => (f h).on q := by
  unfold on ExceptT.run StateT.run
  simp only [tryCatchThe, MonadExceptOf.tryCatch, ExceptT.tryCatch, ExceptT.mk, bind, StateT.bind]
  rcases x p with ⟨r | r, q⟩ <;> rfl

theorem on_protect (body : Act α) (after : Act Unit) (p : Program) :
    (protect body after).on p = match after.on (body.on p).2 with
      | (.ok _, q) => ((body.on p).1, q)
      | (.error h, q) => (.error h, q) := by
  unfold protect
  rcases hb : body.on p with ⟨r | r, q⟩
  all_goals
    simp only [on_bind, on_tryCatch, hb, on_pure]
    rcases after.on q with ⟨u | u, q⟩ <;> rfl

theorem on_discard (x : Act α) :
    (discard x).on p = match x.on p with
      | (.ok _, q) => (.ok (), q)
      | (.error h, q) => (.error h, q) := on_map (fun _ => ()) x

theorem on_discard_snd (x : Act α) : ((discard x).on p).2 = (x.on p).2 := by
  rw [on_discard]
  rcases x.on p with ⟨r | r, q⟩ <;> rfl

theorem ends_iff : Ends x p ok halted ↔
    (∀ a, (x.on p).1 = .ok a → ok a (x.on p).2) ∧
      ∀ h, (x.on p).1 = .error h → halted h (x.on p).2 := by
  unfold Ends
  rcases x.on p with ⟨r | r, q⟩ <;> simp

theorem Ends.mono {ok' : α → Program → Prop} {halted' : Halt → Program → Prop}
    (h : Ends x p ok halted) (hok : ∀ a q, ok a q → ok' a q)
    (hhalted : ∀ e q, halted e q → halted' e q) : Ends x p ok' halted' := by
  rw [ends_iff] at h ⊢
  exact ⟨fun a ha => hok _ _ (h.1 a ha), fun e he => hhalted _ _ (h.2 e he)⟩

theorem Ends.and {ok' : α → Program → Prop} {halted' : Halt → Program → Prop}
    (h : Ends x p ok halted) (h' : Ends x p ok' halted') :
    Ends x p (fun a q => ok a q ∧ ok' a q) (fun e q => halted e q ∧ halted' e q) := by
  rw [ends_iff] at h h' ⊢
  exact ⟨fun a ha => ⟨h.1 a ha, h'.1 a ha⟩, fun e he => ⟨h.2 e he, h'.2 e he⟩⟩

theorem Ends.here (h : Ends x p ok halted) :
    Ends x p (fun a q => ok a q ∧ x.on p = (.ok a, q)) (fun e q => halted e q ∧ x.on p = (.error e, q)) := by
  unfold Ends at h ⊢
  rcases hx : x.on p with ⟨r | r, q⟩ <;> simpa [hx] using h

theorem Ends.left {P : Program → Prop} (h : Ends x p (fun _ q => P q) (fun _ q => P q)) :
    P (x.on p).2 := by
  unfold Ends at h
  rcases hx : x.on p with ⟨r | r, q⟩ <;> simpa [hx] using h

/-- What is not halted gives a result. -/
theorem Ends.gives (h : Ends x p ok fun _ _ => False) : ∃ a q, x.on p = (.ok a, q) ∧ ok a q := by
  unfold Ends at h
  rcases hx : x.on p with ⟨r | r, q⟩
  · rw [hx] at h
    exact h.elim
  · rw [hx] at h
    exact ⟨r, q, rfl, h⟩

theorem ends_of_on {a : α} {q : Program} (h : x.on p = (.ok a, q)) :
    Ends x p ok halted ↔ ok a q := by
  unfold Ends
  rw [h]

section Rules

@[simp] theorem ends_pure (a : α) : Ends (pure a) p ok halted ↔ ok a p := Iff.rfl

@[simp] theorem ends_throw (h : Halt) : Ends (throw h : Act α) p ok halted ↔ halted h p := Iff.rfl

@[simp] theorem ends_bind {f : α → Act β} {ok : β → Program → Prop} :
    Ends (x >>= f) p ok halted ↔ Ends x p (fun a q => Ends (f a) q ok halted) halted := by
  unfold Ends
  rw [on_bind]
  rcases x.on p with ⟨r | r, q⟩ <;> rfl

@[simp] theorem ends_discard {ok : Unit → Program → Prop} :
    Ends (discard x) p ok halted ↔ Ends x p (fun _ q => ok () q) halted := by
  unfold Ends
  rw [on_discard]
  rcases x.on p with ⟨r | r, q⟩ <;> rfl

@[simp] theorem ends_get {ok : Program → Program → Prop} :
    Ends get p ok halted ↔ ok p p := Iff.rfl

@[simp] theorem ends_set {q : Program} {ok : PUnit → Program → Prop} :
    Ends (set q) p ok halted ↔ ok ⟨⟩ q := Iff.rfl

@[simp] theorem ends_modify {f : Program → Program} {ok : PUnit → Program → Prop} :
    Ends (modify f) p ok halted ↔ ok ⟨⟩ (f p) := Iff.rfl

@[simp] theorem ends_protect {body : Act α} {after : Act Unit} :
    Ends (protect body after) p ok halted ↔
      Ends body p (fun a q => Ends after q (fun _ r => ok a r) halted)
        (fun h q => Ends after q (fun _ r => halted h r) halted) := by
  unfold Ends
  rw [on_protect]
  rcases body.on p with ⟨r | r, q⟩
  all_goals
    dsimp only
    rcases after.on q with ⟨u | u, q⟩ <;> rfl

end Rules
end Act

namespace Program

open Act

variable (p : Program)

def amend (a : AgentId) (f : Agent → Agent) : Program := { p with agents := p.agents.update a f }

def retag (s : StoreId) (tags : TagStore) : Program :=
  { p with stores := p.stores.update s fun x => { x with tags := tags } }

def mark (s : StoreId) : Program :=
  let x := p.stores s
  { p with stores := p.stores.put s { x with hook := { x.hook with seen := p.generation } } }

def annotate (notes : List (ThreadId × Log.Event)) : Program := { p with notes := notes }

def call (c : SamplerCall) : Program := { p with calls := p.calls ++ [c] }

def give (slot : Option AgentId) : Program := { p with slot := slot }

def count (counters : Table Counter) : Program := { p with counters := counters }

def yieldSlot (a : AgentId) : Program := if p.slot = some a then p.give none else p

section Read

variable (a b : AgentId) (s t : StoreId) (f : Agent → Agent) (tags : TagStore)
  (notes : List (ThreadId × Log.Event)) (c : SamplerCall) (slot : Option AgentId)

@[simp] theorem amend_agents :
    (p.amend a f).agents b = if b = a then f (p.agents a) else p.agents b :=
  Table.update_row p.agents a b f

@[simp] theorem amend_size : (p.amend a f).agents.size = max p.agents.size (a + 1) :=
  Table.size_put p.agents a _

theorem amend_of_ne (h : b ≠ a) : (p.amend a f).agents b = p.agents b := by
  rw [amend_agents, if_neg h]

/-- What a change of a row keeps is kept in every row. -/
theorem amend_field {β : Type} (g : Agent → β) (h : g (f (p.agents a)) = g (p.agents a)) :
    g ((p.amend a f).agents b) = g (p.agents b) := by
  by_cases hb : b = a
  · rw [amend_agents, if_pos hb, h, hb]
  · rw [amend_of_ne p a b f hb]

theorem size_le_amend : p.agents.size ≤ (p.amend a f).agents.size := by
  rw [amend_size]
  exact Nat.le_max_left _ _

theorem amend_amend (g : Agent → Agent) : (p.amend a f).amend a g = p.amend a fun x => g (f x) := by
  have h : (p.agents.update a f).update a g = p.agents.update a fun x => g (f x) := by
    unfold Table.update
    rw [Table.put_row, if_pos rfl, Table.put_put]
  unfold amend
  dsimp only
  rw [h]

theorem annotate_amend : (p.annotate notes).amend a f = (p.amend a f).annotate notes := rfl

@[simp] theorem amend_stores : (p.amend a f).stores = p.stores := rfl
@[simp] theorem amend_slot : (p.amend a f).slot = p.slot := rfl
@[simp] theorem amend_calls : (p.amend a f).calls = p.calls := rfl
@[simp] theorem amend_generation : (p.amend a f).generation = p.generation := rfl

@[simp] theorem retag_stores :
    (p.retag s tags).stores t = if t = s then { p.stores s with tags := tags } else p.stores t :=
  Table.update_row p.stores s t _

@[simp] theorem retag_calls : (p.retag s tags).calls = p.calls := rfl

@[simp] theorem retag_generation : (p.retag s tags).generation = p.generation := rfl

@[simp] theorem mark_stores :
    (p.mark s).stores t = if t = s then
      ⟨(p.stores s).tags, ⟨p.generation, (p.stores s).hook.watcher⟩⟩ else p.stores t :=
  Table.put_row p.stores s t _

@[simp] theorem mark_agents : (p.mark s).agents = p.agents := rfl
@[simp] theorem mark_slot : (p.mark s).slot = p.slot := rfl
@[simp] theorem mark_calls : (p.mark s).calls = p.calls := rfl
@[simp] theorem mark_generation : (p.mark s).generation = p.generation := rfl

@[simp] theorem annotate_stores : (p.annotate notes).stores = p.stores := rfl
@[simp] theorem annotate_agents : (p.annotate notes).agents = p.agents := rfl
@[simp] theorem annotate_slot : (p.annotate notes).slot = p.slot := rfl
@[simp] theorem annotate_calls : (p.annotate notes).calls = p.calls := rfl
@[simp] theorem annotate_generation : (p.annotate notes).generation = p.generation := rfl

@[simp] theorem call_agents : (p.call c).agents = p.agents := rfl
@[simp] theorem call_slot : (p.call c).slot = p.slot := rfl
@[simp] theorem call_calls : (p.call c).calls = p.calls ++ [c] := rfl
@[simp] theorem call_generation : (p.call c).generation = p.generation := rfl

@[simp] theorem give_agents : (p.give slot).agents = p.agents := rfl
@[simp] theorem give_slot : (p.give slot).slot = slot := rfl
@[simp] theorem give_calls : (p.give slot).calls = p.calls := rfl

@[simp] theorem yieldSlot_stores : (p.yieldSlot a).stores = p.stores := by
  unfold yieldSlot
  split <;> rfl

@[simp] theorem yieldSlot_agents : (p.yieldSlot a).agents = p.agents := by
  unfold yieldSlot
  split <;> rfl

@[simp] theorem yieldSlot_calls : (p.yieldSlot a).calls = p.calls := by
  unfold yieldSlot
  split <;> rfl

@[simp] theorem yieldSlot_generation : (p.yieldSlot a).generation = p.generation := by
  unfold yieldSlot
  split <;> rfl

@[simp] theorem yieldSlot_slot :
    (p.yieldSlot a).slot = some b ↔ p.slot = some b ∧ b ≠ a := by
  unfold yieldSlot
  by_cases h : p.slot = some a
  · rw [if_pos h, h]
    simp [eq_comm]
  · rw [if_neg h]
    refine ⟨fun hb => ⟨hb, ?_⟩, And.left⟩
    rintro rfl
    exact h hb

end Read

section Steps

variable {p} {a : AgentId} {s : StoreId} {halted : Halt → Program → Prop}

@[simp] theorem ends_agent {ok : Agent → Program → Prop} :
    Ends (agent a) p ok halted ↔ ok (p.agents a) p := Iff.rfl

@[simp] theorem ends_store {ok : Store → Program → Prop} :
    Ends (store s) p ok halted ↔ ok (p.stores s) p := Iff.rfl

@[simp] theorem ends_globals {ok : List Tag → Program → Prop} :
    Ends (globals s) p ok halted ↔ ok (p.stores s).tags.globals p := Iff.rfl

variable {ok : Unit → Program → Prop}

@[simp] theorem ends_note {e : Log.Event} :
    Ends (note e) p ok halted ↔ ok () (p.annotate ((p.thread, e) :: p.notes)) := Iff.rfl

@[simp] theorem ends_say {level : Level} {message : String} :
    Ends (say level message) p ok halted ↔
      ok () (p.annotate ((p.thread, .say level message) :: p.notes)) := Iff.rfl

@[simp] theorem ends_updateAgent {f : Agent → Agent} :
    Ends (updateAgent a f) p ok halted ↔ ok () (p.amend a f) := Iff.rfl

@[simp] theorem ends_setPhase {phase : Phase} :
    Ends (setPhase a phase) p ok halted ↔
      ok () (p.amend a fun x => { x with phase := phase }) := Iff.rfl

@[simp] theorem ends_setTags {tags : TagStore} :
    Ends (setTags s tags) p ok halted ↔ ok () (p.retag s tags) := Iff.rfl

@[simp] theorem ends_record {c : SamplerCall} :
    Ends (record c) p ok halted ↔ ok () (p.call c) := Iff.rfl

@[simp] theorem ends_release : Ends (release a) p ok halted ↔ ok () (p.yieldSlot a) := Iff.rfl

theorem ends_configuredTags {c : Settings} {ok : List Tag → Program → Prop} :
    Ends (configuredTags c) p ok halted ↔
      ok c.validTags (p.annotate
        ((c.tagRemarks.map fun e => (p.thread, e)).reverse ++ p.notes)) := Iff.rfl

theorem ends_claim {ok : Bool → Program → Prop} :
    Ends (claim a) p ok halted ↔
      if p.slot = none then ok true (p.give (some a)) else ok (p.slot = some a) p := by
  unfold claim
  simp only [ends_bind, ends_get]
  cases h : p.slot with
  | none => exact Iff.rfl
  | some b => simp

theorem ends_locking {α : Type} {body : Act α} {ok : α → Program → Prop}
    (h : (p.agents a).locked = false) :
    Ends (locking a body) p ok halted ↔
      Ends body (p.amend a fun x => { x with locked := true })
        (fun r q => ok r (q.amend a fun x => { x with locked := false }))
        (fun e q => halted e (q.amend a fun x => { x with locked := false })) := by
  unfold locking
  simp [h]

end Steps
end Program
end ProfilingAgent
