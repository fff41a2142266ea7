import ProfilingAgent.Proofs.ForkVigil

set_option autoImplicit false

/-!
# Histories of forks

Forks happen, hooks and boundaries are built and look for forks, watchers come and go and are assigned to
hooks, in any order. What happened is kept in a list, and the list alone says what the next look must
report: whether a fork is among the events since the lookout was built or last looked. Whoever is told may
go on with any of this before the check returns; what it does are further events.
-/
namespace ProfilingAgent

open Act Program

inductive ForkEvent
  | forked
  | built (x : Lookout)
  | checked (k : HookSite) (told : Option Watcher)
  | looked (b : BoundarySite) (answer : Bool)
  | arrived (w : Watcher)
  | assigned (k : HookSite) (w : Watcher)
  | left (w : Watcher)
deriving DecidableEq

namespace ForkEvent

def lookout : ForkEvent → Option Lookout
  | built x => some x
  | checked k _ => some (.hook k)
  | looked b _ => some (.boundary b)
  | _ => none

def watcherOf (k : HookSite) : ForkEvent → Option Watcher
  | assigned l w => if l = k then some w else none
  | _ => none

def tells (c : CounterId) : ForkEvent → Bool
  | checked _ told => told = some (.counter c)
  | _ => false

end ForkEvent

section Events

variable (x : Lookout) (k : HookSite) (w : Watcher) (es : List ForkEvent)

/-- The events since a lookout was built or last looked. -/
def sinceLook : List ForkEvent := es.takeWhile (·.lookout ≠ some x)

def ForkedSince : Prop := .forked ∈ sinceLook x es

def assignedTo : Option Watcher := es.findSome? (·.watcherOf k)

def Living : Prop := .arrived w ∈ es.takeWhile (· ≠ .left w)

/-- A check has to tell a watcher. -/
def Due : Prop := ForkedSince (.hook k) es ∧ assignedTo k es = some w ∧ Living w es

def ForkEvent.Right : ForkEvent → Prop
  | .checked k told => ∀ w, told = some w ↔ Due k w es
  | .looked b answer => answer = true ↔ ForkedSince (.boundary b) es
  | _ => True

/-- Every answer was right when it was given. -/
def Faithful : Prop := ∀ e earlier, e :: earlier <:+ es → e.Right earlier

instance : Decidable (ForkedSince x es) := inferInstanceAs (Decidable (_ ∈ _))

instance : Decidable (Living w es) := inferInstanceAs (Decidable (_ ∈ _))

instance : Decidable (Due k w es) := inferInstanceAs (Decidable (_ ∧ _ ∧ _))

variable {x es}

theorem sinceLook_cons_own {e : ForkEvent} (h : e.lookout = some x) : sinceLook x (e :: es) = [] := by
  simp [sinceLook, h]

theorem sinceLook_cons_other {e : ForkEvent} (h : e.lookout ≠ some x) :
    sinceLook x (e :: es) = e :: sinceLook x es := by
  simp [sinceLook, h]

/-- A fork that is not among the later events was seen by whoever looked before them. -/
theorem not_forkedSince_of_looked {e : ForkEvent} {later : List ForkEvent} (he : e.lookout = some x)
    (hlater : .forked ∉ later) : ¬ ForkedSince x (later ++ e :: es) := by
  induction later with
  | nil =>
    unfold ForkedSince
    rw [List.nil_append, sinceLook_cons_own he]
    exact List.not_mem_nil
  | cons f later ih =>
    rw [List.mem_cons, not_or] at hlater
    unfold ForkedSince at ih ⊢
    rw [List.cons_append]
    by_cases hf : f.lookout = some x
    · rw [sinceLook_cons_own hf]
      exact List.not_mem_nil
    · rw [sinceLook_cons_other hf, List.mem_cons, not_or]
      exact ⟨hlater.1, ih hlater.2⟩

theorem assignedTo_cons {k : HookSite} {e : ForkEvent} :
    assignedTo k (e :: es) = (e.watcherOf k).or (assignedTo k es) := by
  unfold assignedTo
  rw [List.findSome?_cons]
  cases e.watcherOf k <;> rfl

theorem living_cons {w : Watcher} {e : ForkEvent} :
    Living w (e :: es) ↔ e ≠ .left w ∧ (e = .arrived w ∨ Living w es) := by
  unfold Living
  by_cases he : e = .left w
  · simp [he]
  · simp [he, eq_comm]

theorem Faithful.cons {e : ForkEvent} (he : e.Right es) (h : Faithful es) : Faithful (e :: es) := by
  intro f earlier hsuffix
  cases List.suffix_cons_iff.1 hsuffix with
  | inl hf =>
    cases hf
    exact he
  | inr hf => exact h f earlier hf

end Events

namespace Vigil

def after (v : Vigil) : ForkEvent → Vigil
  | .forked => v.fork
  | .built x => v.catchUp x
  | .checked k told => (v.catchUp (.hook k)).told told
  | .looked b _ => v.catchUp (.boundary b)
  | .arrived w => v.setAlive w true
  | .assigned k w => v.assign k w
  | .left w => v.setAlive w false

def ofEvents : List ForkEvent → Vigil
  | [] => start
  | e :: es => (ofEvents es).after e

variable {v : Vigil} {e : ForkEvent} {x : Lookout}

theorem after_own (h : e.lookout = some x) : (v.after e).seen x = (v.after e).generation := by
  cases e with
  | built y | checked k told | looked b answer =>
    cases h
    exact Function.update_self _ _ v.seen
  | forked | arrived | assigned | left => cases h

theorem after_other (h : e.lookout ≠ some x) : (v.after e).seen x = v.seen x := by
  cases e with
  | built y | checked k told | looked b answer =>
    have hx : x ≠ _ := fun hx => h (congrArg some hx.symm)
    exact Function.update_of_ne hx _ v.seen
  | forked | arrived | assigned | left => rfl

theorem after_generation (v : Vigil) (e : ForkEvent) :
    (v.after e).generation = v.generation + [e].count .forked := by
  cases e <;> simp [after, fork, catchUp, told, setAlive, assign]

theorem after_count (v : Vigil) (e : ForkEvent) (c : CounterId) :
    (v.after e).count c = v.count c + if e.tells c then 1 else 0 := by
  cases e with
  | checked k told =>
    by_cases h : told = some (.counter c) <;> simp [after, catchUp, Vigil.told, ForkEvent.tells, h]
  | forked | built | looked | arrived | assigned | left => rfl

/-- A lookout lags behind by the forks since it was built or last looked. -/
theorem seen_add_count (es : List ForkEvent) (x : Lookout) :
    (ofEvents es).seen x + (sinceLook x es).count .forked = (ofEvents es).generation := by
  induction es with
  | nil => rfl
  | cons e es ih =>
    unfold ofEvents
    by_cases h : e.lookout = some x
    · rw [after_own h, sinceLook_cons_own h, List.count_nil, Nat.add_zero]
    · rw [after_other h, sinceLook_cons_other h, after_generation, ← List.singleton_append,
        List.count_append]
      omega

theorem seen_ne_iff (es : List ForkEvent) (x : Lookout) :
    (ofEvents es).seen x ≠ (ofEvents es).generation ↔ ForkedSince x es := by
  have hlag := seen_add_count es x
  unfold ForkedSince
  rw [← List.count_pos_iff]
  omega

theorem ofEvents_watcher (es : List ForkEvent) (k : HookSite) :
    (ofEvents es).watcher k = assignedTo k es := by
  induction es with
  | nil => rfl
  | cons e es ih =>
    unfold ofEvents
    rw [assignedTo_cons, ← ih]
    cases e with
    | assigned l w =>
      change Function.update (ofEvents es).watcher l (some w) k =
        Option.or (if l = k then some w else none) _
      by_cases hl : k = l
      · rw [hl, Function.update_self, if_pos rfl, Option.some_or]
      · rw [Function.update_of_ne hl, if_neg (Ne.symm hl), Option.none_or]
    | forked | built | checked | looked | arrived | left => rfl

theorem ofEvents_alive (es : List ForkEvent) (w : Watcher) :
    (ofEvents es).alive w = true ↔ Living w es := by
  induction es with
  | nil => simp [ofEvents, start, Living]
  | cons e es ih =>
    unfold ofEvents
    rw [living_cons, ← ih]
    cases e with
    | arrived u => by_cases hu : w = u <;> simp [after, setAlive, hu, Ne.symm]
    | left u => by_cases hu : w = u <;> simp [after, setAlive, hu, Ne.symm]
    | forked | built | checked | looked | assigned => simp [after, fork, catchUp, told, assign]

theorem ofEvents_count (es : List ForkEvent) (c : CounterId) :
    (ofEvents es).count c = es.countP (·.tells c) := by
  induction es with
  | nil => rfl
  | cons e es ih =>
    unfold ofEvents
    rw [after_count, ih, List.countP_cons]

theorem due_eq_some_iff (es : List ForkEvent) (k : HookSite) (w : Watcher) :
    (ofEvents es).due k = some w ↔ Due k w es := by
  unfold due Due
  rw [← seen_ne_iff, ← ofEvents_watcher, ← ofEvents_alive]
  by_cases hseen : (ofEvents es).seen (.hook k) = (ofEvents es).generation
  · simp [hseen]
  · rw [if_neg hseen, Option.filter_eq_some_iff]
    simp [hseen]

end Vigil

/-- A list of events, latest first, leads to a program. -/
inductive History : List ForkEvent → Program → Prop
  | start (pid : UInt32) (handler : Bool) : History [] (.start pid handler)
  | fork {es : List ForkEvent} {p : Program} (h : History es p) :
    History (.forked :: es) (recordFork.on p).2
  | newHook {es : List ForkEvent} {p q : Program} {i : HookId} (h : History es p)
    (hon : newHook.on p = (.ok i, q)) : History (.built (.hook (.alone i)) :: es) q
  | newStore {es : List ForkEvent} {p q : Program} {s : StoreId} (h : History es p)
    (hon : newStore.on p = (.ok s, q)) : History (.built (.hook (.store s)) :: es) q
  | newBoundary {es : List ForkEvent} {p q : Program} {b : BoundaryId} (h : History es p)
    (hon : newBoundary.on p = (.ok b, q)) : History (.built (.boundary (.alone b)) :: es) q
  | newCounter {es : List ForkEvent} {p q : Program} {c : CounterId} (h : History es p)
    (hon : newCounter.on p = (.ok c, q)) : History (.arrived (.counter c) :: es) q
  | newAgent {es : List ForkEvent} {p q : Program} {a : AgentId} (h : History es p) (s : StoreId)
    (sampler : Sampler) (hon : (newAgentOn s sampler).on p = (.ok a, q)) :
    History (.assigned (.store s) (.agent a) :: .built (.boundary (.agent a)) ::
      .arrived (.agent a) :: es) q
  | watch {es : List ForkEvent} {p : Program} (h : History es p) (k : HookSite) (w : Watcher) :
    History (.assigned k w :: es) ((k.watch w).on p).2
  | leave {es : List ForkEvent} {p : Program} (h : History es p) (w : Watcher) :
    History (.left w :: es) (w.leave.on p).2
  | look {es : List ForkEvent} {p q : Program} {b : BoundarySite} {answer : Bool} (h : History es p)
    (hon : b.look.on p = (.ok answer, q)) : History (.looked b answer :: es) q
  /-- A hook looks for a fork. If it tells an agent, then what the agent does comes later. -/
  | check {es : List ForkEvent} {p q : Program} {k : HookSite} {told : Option Watcher} (h : History es p)
    (hchecks : Checks k p told q) : History (.checked k told :: es) q
  | aside {es : List ForkEvent} {p q : Program} (h : History es p) (hq : q.vigil = p.vigil) : History es q

namespace History

variable {es : List ForkEvent} {p q : Program} {k : HookSite} {b : BoundarySite}

/-- What a program remembers of forks is what the events say. -/
theorem vigil (h : History es p) : p.vigil = .ofEvents es := by
  induction h with
  | start pid handler => exact start_vigil pid handler
  | fork _ ih => exact recordFork_vigil.trans (congrArg Vigil.fork ih)
  | newHook _ hon ih => exact (newHook_vigil hon).trans (congrArg (Vigil.catchUp · _) ih)
  | newStore _ hon ih => exact (newStore_vigil hon).trans (congrArg (Vigil.catchUp · _) ih)
  | newBoundary _ hon ih => exact (newBoundary_vigil hon).trans (congrArg (Vigil.catchUp · _) ih)
  | newCounter _ hon ih => exact (newCounter_vigil hon).trans (congrArg (Vigil.setAlive · _ true) ih)
  | newAgent _ s sampler hon ih =>
    rw [newAgentOn_vigil hon, ih]
    rfl
  | @watch es p _ k w ih => exact (watch_vigil p k w).trans (congrArg (Vigil.assign · k w) ih)
  | leave _ w ih => exact (leave_vigil w).trans (congrArg (Vigil.setAlive · w false) ih)
  | @look es p q b answer _ hon ih =>
    obtain ⟨q', hon', hq⟩ := look_on p b
    rw [hon'] at hon
    cases hon
    exact hq.trans (congrArg (Vigil.catchUp · (.boundary b)) ih)
  | @check es p q k told _ hchecks ih =>
    obtain ⟨q', hchecks', hq⟩ := checks_due p k
    obtain ⟨rfl, rfl⟩ := hchecks'.unique hchecks
    exact hq.trans (congrArg (fun v => (v.catchUp (.hook k)).told (p.vigil.due k)) ih)
  | aside _ hq ih => exact hq.trans ih

theorem looks (h : History es p) (b : BoundarySite) :
    ∃ answer q, b.look.on p = (.ok answer, q) ∧ (answer = true ↔ ForkedSince (.boundary b) es) := by
  obtain ⟨q, hon, -⟩ := look_on p b
  refine ⟨_, q, hon, ?_⟩
  rw [← Vigil.seen_ne_iff, ← h.vigil, decide_eq_true_iff]
  rfl

theorem checks (h : History es p) (k : HookSite) :
    ∃ told q, Checks k p told q ∧ ∀ w, told = some w ↔ Due k w es := by
  obtain ⟨q, hchecks, -⟩ := checks_due p k
  refine ⟨_, q, hchecks, fun w => ?_⟩
  rw [h.vigil]
  exact Vigil.due_eq_some_iff es k w

theorem check_idle (h : History es p) (hk : ¬ ForkedSince (.hook k) es) (tell : AgentId → Act Unit) :
    (k.check tell).on p = (.ok (), p) := by
  rw [← Vigil.seen_ne_iff, not_not, ← h.vigil] at hk
  exact check_seen hk

theorem count (h : History es p) (c : CounterId) : (p.counters c).count = es.countP (·.tells c) := by
  rw [← Vigil.ofEvents_count, ← h.vigil]
  rfl

theorem faithful (h : History es p) : Faithful es := by
  induction h with
  | start pid handler =>
    intro e earlier hsuffix
    cases List.suffix_nil.1 hsuffix
  | fork _ ih | newHook _ _ ih | newStore _ _ ih | newBoundary _ _ ih | newCounter _ _ ih | watch _ _ _ ih
  | leave _ _ ih => exact ih.cons trivial
  | newAgent _ _ _ _ ih => exact .cons trivial (.cons trivial (.cons trivial ih))
  | @look es p q b answer h hon ih =>
    obtain ⟨answer', q', hon', hright⟩ := h.looks b
    rw [hon] at hon'
    cases hon'
    exact ih.cons hright
  | @check es p q k told h hchecks ih =>
    obtain ⟨told', q', hchecks', hright⟩ := h.checks k
    obtain ⟨rfl, -⟩ := hchecks.unique hchecks'
    exact ih.cons hright
  | aside _ _ ih => exact ih

end History

/-- What is done with hooks, boundaries, watchers and forks, in any order, by whoever runs. Watchers may do
the same when they are told. -/
inductive ForkWork : {α : Type} → Act α → Prop
  | aside {α : Type} {x : Act α} (hx : ∀ p, (x.on p).2.vigil = p.vigil) : ForkWork x
  | bind {α β : Type} {x : Act α} {f : α → Act β} (hx : ForkWork x) (hf : ∀ r, ForkWork (f r)) :
    ForkWork (x >>= f)
  | tryCatch {α : Type} {x : Act α} {f : Halt → Act α} (hx : ForkWork x) (hf : ∀ e, ForkWork (f e)) :
    ForkWork (tryCatchThe Halt x f)
  | fork : ForkWork recordFork
  | newHook : ForkWork newHook
  | newStore : ForkWork newStore
  | newBoundary : ForkWork newBoundary
  | newCounter : ForkWork newCounter
  | newAgent (s : StoreId) (sampler : Sampler) : ForkWork (newAgentOn s sampler)
  | watch (k : HookSite) (w : Watcher) : ForkWork (k.watch w)
  | leave (w : Watcher) : ForkWork w.leave
  | look (b : BoundarySite) : ForkWork b.look
  | check {tell : AgentId → Act Unit} (k : HookSite) (htell : ∀ a, ForkWork (tell a)) :
    ForkWork (k.check tell)

/-- Some history with these events behind it leads to the program. -/
def Beyond (es : List ForkEvent) (p : Program) : Prop := ∃ es', es <:+ es' ∧ History es' p

namespace Beyond

variable {es : List ForkEvent} {p q : Program}

theorem refl (h : History es p) : Beyond es p := ⟨es, List.suffix_rfl, h⟩

theorem cons {e : ForkEvent} (h : History (e :: es) p) : Beyond es p := ⟨_, List.suffix_cons e es, h⟩

theorem trans (h : Beyond es p) (hq : ∀ es', History es' p → Beyond es' q) : Beyond es q := by
  obtain ⟨mid, hmid, hp⟩ := h
  obtain ⟨last, hlast, hq⟩ := hq mid hp
  exact ⟨last, hmid.trans hlast, hq⟩

end Beyond

namespace Program.Checks

variable {es : List ForkEvent} {p q : Program} {k : HookSite} {told : Option Watcher}
  {tell : AgentId → Act Unit}

theorem beyond (h : Checks k p told q) (hq : Beyond es q)
    (htell : ∀ a, Beyond es ((tell a).on q).2) : Beyond es ((k.check tell).on p).2 := by
  cases h with
  | nobody hon _ | counter hon _ =>
    rw [hon]
    exact hq
  | @agent a q hon _ =>
    rw [hon]
    exact htell a

end Program.Checks

theorem ForkWork.beyond {α : Type} {x : Act α} (hx : ForkWork x) {es : List ForkEvent} {p : Program}
    (hp : Beyond es p) : Beyond es (x.on p).2 := by
  induction hx generalizing es p with
  | aside hx => exact hp.trans fun _ h => .refl (h.aside (hx p))
  | @bind _ _ x f _ _ ihx ihf =>
    have hq := ihx hp
    rw [on_bind]
    generalize x.on p = left at hq
    cases left with
    | mk r q =>
      cases r with
      | error e => exact hq
      | ok r => exact ihf r hq
  | @tryCatch _ x f _ _ ihx ihf =>
    have hq := ihx hp
    rw [on_tryCatch]
    generalize x.on p = left at hq
    cases left with
    | mk r q =>
      cases r with
      | error e => exact ihf e hq
      | ok r => exact hq
  | fork => exact hp.trans fun _ h => .cons h.fork
  | newHook => exact hp.trans fun _ h => .cons (h.newHook rfl)
  | newStore => exact hp.trans fun _ h => .cons (h.newStore rfl)
  | newBoundary => exact hp.trans fun _ h => .cons (h.newBoundary rfl)
  | newCounter => exact hp.trans fun _ h => .cons (h.newCounter rfl)
  | newAgent s sampler =>
    obtain ⟨installed, notes, hon⟩ := newAgentOn_on p s sampler
    rw [hon]
    exact hp.trans fun es h => ⟨_, List.suffix_append [_, _, _] es, h.newAgent s sampler hon⟩
  | watch k w => exact hp.trans fun _ h => .cons (h.watch k w)
  | leave w => exact hp.trans fun _ h => .cons (h.leave w)
  | look b =>
    obtain ⟨q, hon, -⟩ := look_on p b
    rw [hon]
    exact hp.trans fun _ h => .cons (h.look hon)
  | check k _ ih =>
    obtain ⟨q, hchecks, -⟩ := checks_due p k
    -- The watcher finds the check already among the events.
    have hq : Beyond es q := hp.trans fun _ h => .cons (h.check hchecks)
    exact hchecks.beyond hq fun a => ih a hq

end ProfilingAgent
