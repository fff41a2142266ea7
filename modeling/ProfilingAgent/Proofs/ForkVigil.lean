import ProfilingAgent.Proofs.HostContexts

set_option autoImplicit false

namespace ProfilingAgent

open Act Program

inductive HookSite
  | alone (h : HookId)
  | store (s : StoreId)
deriving DecidableEq

inductive BoundarySite
  | alone (b : BoundaryId)
  | agent (a : AgentId)
deriving DecidableEq

inductive Lookout
  | hook (k : HookSite)
  | boundary (b : BoundarySite)
deriving DecidableEq

namespace HookSite

def hook (p : Program) : HookSite → Hook
  | alone h => p.hooks h
  | store s => (p.stores s).hook

def check (tell : AgentId → Act Unit) : HookSite → Act Unit
  | alone h => checkHook tell h
  | store s => checkStore tell s

def watch (w : Watcher) : HookSite → Act Unit
  | alone h => watchHook h w
  | store s => watchStore s w

def marked (p : Program) : HookSite → Program
  | alone h => { p with hooks := p.hooks.put h { p.hooks h with seen := p.generation } }
  | store s => p.mark s

end HookSite

namespace BoundarySite

def seen (p : Program) : BoundarySite → Nat
  | alone b => p.boundaries b
  | agent a => (p.agents a).seen

def look : BoundarySite → Act Bool
  | alone b => crossed b
  | agent a => noticed a

end BoundarySite

namespace Watcher

def alive (p : Program) : Watcher → Bool
  | agent a => (p.agents a).alive
  | counter c => (p.counters c).alive

/-- Nobody holds the watcher any more, not even whoever is telling it. -/
def leave : Watcher → Act Unit
  | agent a => updateAgent a fun x => { x with alive := false }
  | counter c => dropCounter c

end Watcher

@[ext] structure Vigil where
  generation : Nat
  seen : Lookout → Nat
  watcher : HookSite → Option Watcher
  alive : Watcher → Bool
  count : CounterId → Nat

namespace Vigil

def start : Vigil := ⟨0, fun _ => 0, fun _ => none, fun _ => false, fun _ => 0⟩

def fork (v : Vigil) : Vigil := { v with generation := v.generation + 1 }

def catchUp (v : Vigil) (x : Lookout) : Vigil :=
  { v with seen := Function.update v.seen x v.generation }

def assign (v : Vigil) (k : HookSite) (w : Watcher) : Vigil :=
  { v with watcher := Function.update v.watcher k (some w) }

def setAlive (v : Vigil) (w : Watcher) (alive : Bool) : Vigil :=
  { v with alive := Function.update v.alive w alive }

def told (v : Vigil) (w : Option Watcher) : Vigil :=
  { v with count := fun c => if w = some (.counter c) then v.count c + 1 else v.count c }

def setHook (v : Vigil) (k : HookSite) (x : Hook) : Vigil :=
  { v with
    seen := Function.update v.seen (.hook k) x.seen
    watcher := Function.update v.watcher k x.watcher }

def setAgent (v : Vigil) (a : AgentId) (seen : Nat) (alive : Bool) : Vigil :=
  { v with
    seen := Function.update v.seen (.boundary (.agent a)) seen
    alive := Function.update v.alive (.agent a) alive }

def setCounter (v : Vigil) (c : CounterId) (x : Counter) : Vigil :=
  { v with
    alive := Function.update v.alive (.counter c) x.alive
    count := Function.update v.count c x.count }

def due (v : Vigil) (k : HookSite) : Option Watcher :=
  if v.seen (.hook k) = v.generation then none else (v.watcher k).filter v.alive

variable (v : Vigil)

theorem catchUp_of_seen {x : Lookout} (h : v.seen x = v.generation) : v.catchUp x = v :=
  Vigil.ext rfl (Function.update_eq_self_iff.2 h.symm) rfl rfl rfl

theorem told_none : v.told none = v := rfl

theorem told_agent (a : AgentId) : v.told (some (.agent a)) = v := by
  refine Vigil.ext rfl rfl rfl rfl ?_
  funext c
  simp [told]

theorem setHook_generation (k : HookSite) :
    v.setHook k ⟨v.generation, v.watcher k⟩ = v.catchUp (.hook k) :=
  Vigil.ext rfl rfl (Function.update_eq_self k v.watcher) rfl rfl

theorem setHook_seen (k : HookSite) (w : Watcher) :
    v.setHook k ⟨v.seen (.hook k), some w⟩ = v.assign k w :=
  Vigil.ext rfl (Function.update_eq_self _ v.seen) rfl rfl rfl

theorem setHook_self (k : HookSite) : v.setHook k ⟨v.seen (.hook k), v.watcher k⟩ = v :=
  Vigil.ext rfl (Function.update_eq_self _ v.seen) (Function.update_eq_self k v.watcher) rfl rfl

theorem setAgent_generation (a : AgentId) :
    v.setAgent a v.generation (v.alive (.agent a)) = v.catchUp (.boundary (.agent a)) :=
  Vigil.ext rfl rfl rfl (Function.update_eq_self _ v.alive) rfl

theorem setAgent_seen (a : AgentId) (alive : Bool) :
    v.setAgent a (v.seen (.boundary (.agent a))) alive = v.setAlive (.agent a) alive :=
  Vigil.ext rfl (Function.update_eq_self _ v.seen) rfl rfl rfl

theorem setAgent_self (a : AgentId) :
    v.setAgent a (v.seen (.boundary (.agent a))) (v.alive (.agent a)) = v :=
  Vigil.ext rfl (Function.update_eq_self _ v.seen) rfl (Function.update_eq_self _ v.alive) rfl

theorem setCounter_count (c : CounterId) (alive : Bool) :
    v.setCounter c ⟨alive, v.count c⟩ = v.setAlive (.counter c) alive :=
  Vigil.ext rfl rfl rfl rfl (Function.update_eq_self c v.count)

theorem setCounter_alive (c : CounterId) :
    v.setCounter c ⟨v.alive (.counter c), v.count c + 1⟩ = v.told (some (.counter c)) := by
  refine Vigil.ext rfl rfl rfl (Function.update_eq_self _ v.alive) ?_
  funext d
  by_cases hd : d = c <;> simp [setCounter, told, hd, Ne.symm]

end Vigil

namespace Program

variable {p q : Program}

def vigil (p : Program) : Vigil where
  generation := p.generation
  seen
    | .hook k => (k.hook p).seen
    | .boundary b => b.seen p
  watcher k := (k.hook p).watcher
  alive w := w.alive p
  count c := (p.counters c).count

theorem vigil_eq {v : Vigil} (hgeneration : p.generation = v.generation)
    (hhook : ∀ k : HookSite, k.hook p = ⟨v.seen (.hook k), v.watcher k⟩)
    (hboundary : ∀ b : BoundarySite, b.seen p = v.seen (.boundary b))
    (halive : ∀ w : Watcher, w.alive p = v.alive w) (hcount : ∀ c, (p.counters c).count = v.count c) :
    p.vigil = v := by
  refine Vigil.ext hgeneration ?_ (funext fun k => congrArg Hook.watcher (hhook k)) (funext halive)
    (funext hcount)
  funext x
  cases x with
  | hook k => exact congrArg Hook.seen (hhook k)
  | boundary b => exact hboundary b

theorem vigil_hooks {t : Table Hook} {h : HookId} {x : Hook}
    (hrow : ∀ i, t i = if i = h then x else p.hooks i) :
    vigil { p with hooks := t } = p.vigil.setHook (.alone h) x := by
  refine vigil_eq rfl (fun k => ?_) (fun _ => rfl) (fun _ => rfl) fun _ => rfl
  cases k with
  | alone i =>
    refine (hrow i).trans ?_
    by_cases hi : i = h <;> simp [hi, vigil, Vigil.setHook, HookSite.hook]
  | store s => rfl

theorem vigil_stores {t : Table Store} {s : StoreId} {x : Store}
    (hrow : ∀ i, t i = if i = s then x else p.stores i) :
    vigil { p with stores := t } = p.vigil.setHook (.store s) x.hook := by
  refine vigil_eq rfl (fun k => ?_) (fun _ => rfl) (fun _ => rfl) fun _ => rfl
  cases k with
  | alone h => rfl
  | store i =>
    refine (congrArg Store.hook (hrow i)).trans ?_
    by_cases hi : i = s <;> simp [hi, vigil, Vigil.setHook, HookSite.hook]

theorem vigil_boundaries {t : Table Nat} {b : BoundaryId}
    (hrow : ∀ i, t i = if i = b then p.generation else p.boundaries i) :
    vigil { p with boundaries := t } = p.vigil.catchUp (.boundary (.alone b)) := by
  refine vigil_eq rfl (fun _ => rfl) (fun c => ?_) (fun _ => rfl) fun _ => rfl
  cases c with
  | alone i =>
    refine (hrow i).trans ?_
    by_cases hi : i = b <;> simp [hi, vigil, Vigil.catchUp, BoundarySite.seen]
  | agent a => rfl

theorem vigil_agents {t : Table Agent} {a : AgentId} {x : Agent}
    (hrow : ∀ i, t i = if i = a then x else p.agents i) :
    vigil { p with agents := t } = p.vigil.setAgent a x.seen x.alive := by
  refine vigil_eq rfl (fun _ => rfl) (fun b => ?_) (fun w => ?_) fun _ => rfl
  · cases b with
    | alone i => rfl
    | agent i =>
      refine (congrArg Agent.seen (hrow i)).trans ?_
      by_cases hi : i = a <;> simp [hi, vigil, Vigil.setAgent, BoundarySite.seen]
  · cases w with
    | agent i =>
      refine (congrArg Agent.alive (hrow i)).trans ?_
      by_cases hi : i = a <;> simp [hi, vigil, Vigil.setAgent, Watcher.alive]
    | counter c => rfl

theorem vigil_counters {t : Table Counter} {c : CounterId} {x : Counter}
    (hrow : ∀ i, t i = if i = c then x else p.counters i) :
    vigil { p with counters := t } = p.vigil.setCounter c x := by
  refine vigil_eq rfl (fun _ => rfl) (fun _ => rfl) (fun w => ?_) fun i => ?_
  · cases w with
    | agent a => rfl
    | counter i =>
      refine (congrArg Counter.alive (hrow i)).trans ?_
      by_cases hi : i = c <;> simp [hi, vigil, Vigil.setCounter, Watcher.alive]
  · refine (congrArg Counter.count (hrow i)).trans ?_
    by_cases hi : i = c <;> simp [hi, vigil, Vigil.setCounter]

theorem start_vigil (pid : UInt32) (handler : Bool) : (start pid handler).vigil = .start := by
  refine vigil_eq rfl (fun k => ?_) (fun b => ?_) (fun w => ?_) fun _ => rfl
  · cases k <;> rfl
  · cases b <;> rfl
  · cases w <;> rfl

theorem recordFork_vigil : (recordFork.on p).2.vigil = p.vigil.fork := rfl

theorem newHook_vigil {h : HookId} (hon : newHook.on p = (.ok h, q)) :
    q.vigil = p.vigil.catchUp (.hook (.alone h)) := by
  cases hon
  have hnone : p.vigil.watcher (.alone p.hooks.size) = none :=
    congrArg Hook.watcher (Table.row_size p.hooks)
  rw [← Vigil.setHook_generation, hnone]
  exact vigil_hooks (Table.push_row p.hooks _)

theorem newStore_vigil {s : StoreId} (hon : newStore.on p = (.ok s, q)) :
    q.vigil = p.vigil.catchUp (.hook (.store s)) := by
  cases hon
  have hnone : p.vigil.watcher (.store p.stores.size) = none :=
    congrArg (fun x => x.hook.watcher) (Table.row_size p.stores)
  rw [← Vigil.setHook_generation, hnone]
  exact vigil_stores (Table.push_row p.stores _)

theorem newBoundary_vigil {b : BoundaryId} (hon : newBoundary.on p = (.ok b, q)) :
    q.vigil = p.vigil.catchUp (.boundary (.alone b)) := by
  cases hon
  exact vigil_boundaries (Table.push_row p.boundaries _)

theorem newCounter_vigil {c : CounterId} (hon : newCounter.on p = (.ok c, q)) :
    q.vigil = p.vigil.setAlive (.counter c) true := by
  cases hon
  have hnew : p.vigil.count p.counters.size = 0 := congrArg Counter.count (Table.row_size p.counters)
  rw [← Vigil.setCounter_count, hnew]
  exact vigil_counters (Table.push_row p.counters _)

theorem watch_vigil (p : Program) (k : HookSite) (w : Watcher) :
    ((k.watch w).on p).2.vigil = p.vigil.assign k w := by
  rw [← Vigil.setHook_seen]
  cases k with
  | alone h => exact vigil_hooks (Table.update_row p.hooks h · _)
  | store s => exact vigil_stores (Table.update_row p.stores s · _)

theorem housed_vigil (s : StoreId) (sampler : Sampler) : (p.housed s sampler).vigil =
    ((p.vigil.setAlive (.agent p.agents.size) true).catchUp (.boundary (.agent p.agents.size))).assign
      (.store s) (.agent p.agents.size) := by
  let joined : Program := { p with
    agents := p.agents.push ⟨s, true, p.generation, .fresh, none, false, sampler, 0, 0, 0⟩ }
  have hagents : joined.vigil =
      (p.vigil.setAlive (.agent p.agents.size) true).catchUp (.boundary (.agent p.agents.size)) :=
    vigil_agents (Table.push_row p.agents _)
  have hwatched := watch_vigil joined (.store s) (.agent p.agents.size)
  rw [hagents] at hwatched
  exact hwatched

/-- A new agent has a boundary of its own, and its store tells it from now on. -/
theorem newAgentOn_vigil {s : StoreId} {sampler : Sampler} {a : AgentId}
    (hon : (newAgentOn s sampler).on p = (.ok a, q)) : q.vigil =
      ((p.vigil.setAlive (.agent a) true).catchUp (.boundary (.agent a))).assign (.store s) (.agent a) := by
  obtain ⟨installed, notes, hnew⟩ := newAgentOn_on p s sampler
  rw [hnew] at hon
  cases hon
  exact housed_vigil s sampler

theorem leave_vigil (w : Watcher) : (w.leave.on p).2.vigil = p.vigil.setAlive w false := by
  cases w with
  | agent a =>
    rw [← Vigil.setAgent_seen]
    exact vigil_agents (Table.update_row p.agents a · _)
  | counter c =>
    rw [← Vigil.setCounter_count]
    exact vigil_counters (Table.update_row p.counters c · _)

theorem marked_vigil (k : HookSite) : (k.marked p).vigil = p.vigil.catchUp (.hook k) := by
  rw [← Vigil.setHook_generation]
  cases k with
  | alone h => exact vigil_hooks (Table.put_row p.hooks h · _)
  | store s => exact vigil_stores (Table.put_row p.stores s · _)

theorem look_seen {b : BoundarySite} (h : b.seen p = p.generation) : b.look.on p = (.ok false, p) := by
  cases b with
  | alone b =>
    unfold BoundarySite.look crossed
    rw [on_bind]
    change ((if BoundarySite.seen p (.alone b) = p.generation then _ else _ : Act Bool)).on p = _
    rw [if_pos h]
    rfl
  | agent a =>
    unfold BoundarySite.look noticed
    rw [on_bind]
    change ((if BoundarySite.seen p (.agent a) = p.generation then _ else _ : Act Bool)).on p = _
    rw [if_pos h]
    rfl

theorem look_behind {b : BoundarySite} (h : b.seen p ≠ p.generation) :
    ∃ q, b.look.on p = (.ok true, q) ∧ q.vigil = p.vigil.catchUp (.boundary b) := by
  cases b with
  | alone b =>
    let crossing : Program := { p with
      boundaries := p.boundaries.put b p.generation
      notes := (p.thread, forkNoticed p) :: p.notes }
    refine ⟨crossing, ?_, vigil_boundaries (Table.put_row p.boundaries b · _)⟩
    unfold BoundarySite.look crossed
    rw [on_bind]
    change ((if BoundarySite.seen p (.alone b) = p.generation then _ else _ : Act Bool)).on p = _
    rw [if_neg h]
    rfl
  | agent a =>
    refine ⟨p.roused a, noticed_behind h, ?_⟩
    rw [← Vigil.setAgent_generation]
    exact vigil_agents (Table.update_row p.agents a · _)

theorem look_on (p : Program) (b : BoundarySite) : ∃ q,
    b.look.on p = (.ok (b.seen p ≠ p.generation), q) ∧ q.vigil = p.vigil.catchUp (.boundary b) := by
  by_cases hseen : b.seen p = p.generation
  · rw [decide_eq_false (not_not_intro hseen)]
    exact ⟨p, look_seen hseen, (Vigil.catchUp_of_seen _ hseen).symm⟩
  · rw [decide_eq_true hseen]
    exact look_behind hseen

variable {tell : AgentId → Act Unit} {k : HookSite} {w : Watcher} {a : AgentId} {c : CounterId}

theorem inform_gone (h : w.alive p = false) : (inform tell w).on p = (.ok (), p) := by
  cases w with
  | agent a =>
    have ha : (p.agents a).alive = false := h
    rw [on_inform, if_neg (by simp [ha])]
  | counter c =>
    have hc : (p.counters c).alive = false := h
    change (Except.ok (), if (p.counters c).alive = true then _ else p) = _
    rw [if_neg (by simp [hc])]

theorem inform_agent (h : Watcher.alive p (.agent a) = true) :
    (inform tell (.agent a)).on p = (tell a).on p :=
  on_inform.trans (if_pos h)

def tallied (p : Program) (c : CounterId) : Program :=
  p.count (p.counters.update c fun x => { x with count := x.count + 1 })

theorem inform_counter (h : Watcher.alive p (.counter c) = true) :
    (inform tell (.counter c)).on p = (.ok (), p.tallied c) := by
  change (Except.ok (), if (p.counters c).alive = true then p.tallied c else p) = _
  rw [if_pos (show (p.counters c).alive = true from h)]

theorem tallied_vigil (p : Program) (c : CounterId) :
    (p.tallied c).vigil = p.vigil.told (some (.counter c)) := by
  rw [← Vigil.setCounter_alive]
  exact vigil_counters (Table.update_row p.counters c · _)

theorem check_seen (h : (k.hook p).seen = p.generation) : (k.check tell).on p = (.ok (), p) := by
  cases k with
  | alone i =>
    unfold HookSite.check checkHook
    rw [on_bind]
    change ((if (HookSite.hook p (.alone i)).seen ≠ p.generation then _ else _ : Act Unit)).on p = _
    rw [if_neg (not_not_intro h)]
    rfl
  | store s => exact checkStore_seen h

/-- A hook that has not seen the last fork has seen it before its watcher is told. -/
theorem check_behind (h : (k.hook p).seen ≠ p.generation) : (k.check tell).on p =
    (match (k.hook p).watcher with
      | none => pure ()
      | some w => inform tell w : Act Unit).on (k.marked p) := by
  cases k with
  | alone i =>
    unfold HookSite.check checkHook
    rw [on_bind]
    change ((if (HookSite.hook p (.alone i)).seen ≠ p.generation then _ else _ : Act Unit)).on p = _
    rw [if_pos h]
    rfl
  | store s =>
    unfold HookSite.check checkStore
    rw [on_bind]
    change ((if (HookSite.hook p (.store s)).seen ≠ p.generation then _ else _ : Act Unit)).on p = _
    rw [if_pos h]
    rfl

theorem marked_counters (k : HookSite) (p : Program) : (k.marked p).counters = p.counters := by
  cases k <;> rfl

theorem marked_alive (k : HookSite) (p : Program) (w : Watcher) : w.alive (k.marked p) = w.alive p :=
  congrArg (fun v => v.alive w) (marked_vigil k)

/-- Who is told by a check, if anybody is. The check leaves `q`, or does in `q` what the watcher does. -/
inductive Checks (k : HookSite) (p : Program) : Option Watcher → Program → Prop
  | nobody {q : Program} (hon : ∀ tell, (k.check tell).on p = (.ok (), q))
    (hcounters : q.counters = p.counters) : Checks k p none q
  | agent {a : AgentId} {q : Program} (hon : ∀ tell, (k.check tell).on p = (tell a).on q)
    (hcounters : q.counters = p.counters) : Checks k p (some (.agent a)) q
  | counter {c : CounterId} {q : Program} (hon : ∀ tell, (k.check tell).on p = (.ok (), q))
    (hcounters : q.counters = p.counters.update c fun x => { x with count := x.count + 1 }) :
    Checks k p (some (.counter c)) q

/-- A check tells whom it has to tell, and nobody else. -/
theorem checks_due (p : Program) (k : HookSite) : ∃ q, Checks k p (p.vigil.due k) q ∧
    q.vigil = (p.vigil.catchUp (.hook k)).told (p.vigil.due k) := by
  have hmarked := marked_vigil (p := p) k
  have hcounters := marked_counters k p
  by_cases hseen : (k.hook p).seen = p.generation
  · have hdue : p.vigil.due k = none := if_pos hseen
    rw [hdue, Vigil.told_none]
    exact ⟨p, .nobody (fun _ => check_seen hseen) rfl, (Vigil.catchUp_of_seen _ hseen).symm⟩
  have hdue : p.vigil.due k = (k.hook p).watcher.filter fun w => w.alive p := if_neg hseen
  rw [hdue]
  cases hw : (k.hook p).watcher with
  | none =>
    have htold : ∀ tell, (k.check tell).on p = (.ok (), k.marked p) := by
      intro tell
      rw [check_behind hseen, hw]
      rfl
    exact ⟨_, .nobody htold hcounters, hmarked⟩
  | some w =>
    have htold : ∀ tell, (k.check tell).on p = (inform tell w).on (k.marked p) := by
      intro tell
      rw [check_behind hseen, hw]
    -- The watcher is told after the hook has seen the fork, which leaves it as alive as it was.
    by_cases halive : w.alive (k.marked p) = true
    · rw [Option.filter_some_pos ((marked_alive k p w).symm.trans halive)]
      cases w with
      | agent a =>
        rw [Vigil.told_agent]
        exact ⟨_, .agent (fun tell => (htold tell).trans (inform_agent halive)) hcounters, hmarked⟩
      | counter c =>
        have hon : ∀ tell, (k.check tell).on p = (.ok (), (k.marked p).tallied c) :=
          fun tell => (htold tell).trans (inform_counter halive)
        refine ⟨(k.marked p).tallied c, .counter hon ?_, ?_⟩
        · exact congrArg (fun t => t.update c fun x => { x with count := x.count + 1 }) hcounters
        · exact (tallied_vigil _ c).trans (congrArg (Vigil.told · _) hmarked)
    · have hgone : w.alive (k.marked p) = false := by simpa using halive
      have hgone' : w.alive p = false := (marked_alive k p w).symm.trans hgone
      rw [Option.filter_some_neg (by simp [hgone'])]
      exact ⟨_, .nobody (fun tell => (htold tell).trans (inform_gone hgone)) hcounters, hmarked⟩

namespace Checks

variable {told told' : Option Watcher} {q' : Program}

theorem left_eq (h : Checks k p told q) : (k.check fun _ => pure ()).on p = (.ok (), q) := by
  cases h with
  | nobody hon _ => exact hon _
  | agent hon _ => exact hon _
  | counter hon _ => exact hon _

theorem told_agent_iff (h : Checks k p told q) : told = some (.agent a) ↔
    ((k.check fun b => throw (.deadlocked b)).on p).1 = .error (.deadlocked a) := by
  cases h with
  | nobody hon _ => simp [hon]
  | agent hon _ =>
    rw [hon]
    change _ ↔ Except.error (Halt.deadlocked _) = Except.error (.deadlocked a)
    simp
  | counter hon _ => simp [hon]

theorem told_counter_iff (h : Checks k p told q) :
    told = some (.counter c) ↔ (q.counters c).count ≠ (p.counters c).count := by
  cases h with
  | nobody _ hcounters => simp [hcounters]
  | agent _ hcounters => simp [hcounters]
  | @counter d _ _ hcounters =>
    rw [hcounters, Table.update_row]
    by_cases hd : c = d <;> simp [hd, eq_comm]

/-- What a check does is one thing: nobody else is told, and no other program is left. -/
theorem unique (h : Checks k p told q) (h' : Checks k p told' q') : told' = told ∧ q' = q := by
  have hleft : q' = q := by
    have hpair := h'.left_eq.symm.trans h.left_eq
    exact congrArg Prod.snd hpair
  subst hleft
  refine ⟨Option.ext fun w => ?_, rfl⟩
  cases w with
  | agent a => exact h'.told_agent_iff.trans h.told_agent_iff.symm
  | counter c => exact h'.told_counter_iff.trans h.told_counter_iff.symm

end Checks

end Program
end ProfilingAgent
