import ProfilingAgent.Proofs.Commuting

set_option autoImplicit false

namespace ProfilingAgent.Program

open Act

variable {α : Type} {tell : AgentId → Act Unit} {able : Prop} {p q : Program} {a : AgentId}
  {s : StoreId} {T : Program → Program}

theorem lt_size_of_watcher {w : Watcher} (h : (p.stores s).hook.watcher = some w) :
    s < p.stores.size := by
  rcases Nat.lt_or_ge s p.stores.size with hs | hs
  · exact hs
  · rw [Table.row_of_size_le p.stores hs] at h
    cases h

theorem mark_of_seen (h : (p.stores s).hook.seen = p.generation) (hs : s < p.stores.size) :
    p.mark s = p := by
  have hrow : p.stores.put s
      { p.stores s with hook := { (p.stores s).hook with seen := p.generation } } = p.stores := by
    rw [← h]
    exact Table.put_row_self p.stores hs
  unfold mark
  dsimp only
  rw [hrow]

theorem inform_watches (N : Teller tell able) (hp : Watches a s p) :
    (inform tell (.agent a)).on p = (.ok (), p) := by
  rw [on_inform, N.abreast hp.abreast]
  split <;> rfl

theorem Watches.mark (hp : Watches a s p) : Watches a s (p.mark s) :=
  (Unnoticed.mark_store s).watches hp

theorem Watches.same (hp : Watches a s p) (hq : Same p q) : Watches a s q where
  abreast := (hq.abreast a).2 hp.abreast
  watcher := (hq.watcher s).trans hp.watcher
  store := by
    rw [hq.agents]
    exact hp.store

theorem checkStore_watches (N : Teller tell able) (hp : Watches a s p) :
    (checkStore tell s).on p = (.ok (), p.mark s) := by
  by_cases hseen : (p.stores s).hook.seen = p.generation
  · rw [checkStore_seen hseen, mark_of_seen hseen (lt_size_of_watcher hp.watcher)]
  · rw [checkStore_behind hseen hp.watcher]
    exact inform_watches N hp.mark

namespace Commutes

section Uses

variable (N : Teller tell able) (h : Unnoticed s T)

include N h

theorem checkStore : Commutes a s T (checkStore tell s) := by
  intro p hp
  rw [checkStore_watches N hp, checkStore_watches N (h.watches hp), h.mark]
  exact ⟨rfl, hp.mark⟩

theorem told : Commutes a s T (tell a) := by
  intro p hp
  rw [N.abreast hp.abreast, N.abreast (h.watches hp).abreast]
  exact ⟨rfl, hp⟩

theorem revise (use : TagStore → Except TagError TagStore) :
    Commutes a s T (revise tell s use) := by
  refine .bind (.checkStore N h) fun _ => .tags h (fun x => ?_) fun x y hxy => by rw [hxy]
  cases use x.tags with
  | error e => exact .pure _
  | ok tags => exact .bind (.setTags h tags) fun _ => .pure _

theorem replaceGlobals (old new : List Tag) :
    Commutes a s T (replaceGlobalsWith tell s old new) := .revise N h _

theorem useOnce (u : Use) : Commutes a s T (useOnce tell a s u) := by
  cases u with
  | addTags c tags =>
    refine .discard (.bind (.revise N h _) fun r => ?_)
    cases r with
    | error e => exact .pure _
    | ok _ =>
      dsimp only
      split
      · exact .bind (.note h _) fun _ => .pure _
      · exact .pure _
  | removeTags c tags =>
    refine .discard (.bind (.checkStore N h) fun _ => .tags h (fun x => ?_) fun x y hxy => by rw [hxy])
    refine .bind (.setTags h _) fun _ => ?_
    dsimp only
    split
    · exact .bind (.note h _) fun _ => .pure _
    · exact .pure _
  | addGlobal t => exact .discard (.revise N h _)
  | removeGlobal t =>
    refine .discard (.bind (.checkStore N h) fun _ => .tags h (fun x => ?_) fun x y hxy => by rw [hxy])
    exact .bind (.setTags h _) fun _ => .pure _
  | replaceGlobals old new => exact .discard (.replaceGlobals N h old new)
  | snapshot c =>
    refine .discard (.bind (.checkStore N h) fun _ => .tags h (fun x => ?_) fun x y hxy => by rw [hxy])
    exact .pure _
  | clearContext c =>
    refine .discard (.bind (.checkStore N h) fun _ => .tags h (fun x => ?_) fun x y hxy => by rw [hxy])
    exact .bind (.setTags h _) fun _ => .pure _
  | state => exact .told N h

theorem useAll (us : List Use) : Commutes a s T (useAll tell a s us) := by
  induction us with
  | nil => exact .pure ()
  | cons u us ih => exact .bind (.useOnce N h u) fun _ => ih

theorem carryOut (r : Reply) : Commutes a s T (carryOut tell a r) := by
  apply Commutes.own h
  intro x hx
  rw [hx]
  refine .bind (.useAll N h r.uses) fun _ => ?_
  cases r.ending with
  | succeeds => exact .pure true
  | fails => exact .pure false
  | panics message => exact .throw _

theorem callStart (c : Settings) : Commutes a s T (callStart tell a c) := by
  apply Commutes.own h
  intro x hx
  rw [hx]
  cases x.sampler with
  | idle => exact .bind (.note h _) fun _ => .pure true
  | scripted script =>
    refine .bind (.updateAgent h (by simp)) fun _ => .bind (.globals h) fun tags => ?_
    exact .bind (.record h _) fun _ => .carryOut N h _

theorem callStop : Commutes a s T (callStop tell a) := by
  apply Commutes.own h
  intro x hx
  rw [hx]
  cases x.sampler with
  | idle => exact .pure true
  | scripted script =>
    refine .bind (.updateAgent h (by simp)) fun _ => .bind (.globals h) fun tags => ?_
    exact .bind (.record h _) fun _ => .carryOut N h _

theorem callReset : Commutes a s T (callReset tell a) := by
  apply Commutes.own h
  intro x hx
  cases x.sampler with
  | idle => exact .pure ()
  | scripted script =>
    refine .bind (.updateAgent h (by simp)) fun _ => .bind (.record h _) fun _ => ?_
    exact .discard (.carryOut N h _)

theorem retire : Commutes a s T (retire tell a) := by
  have last : Commutes a s T (do Program.setPhase a .stopped; Program.release a) :=
    .bind (.setPhase h .stopped) fun _ => .release h
  apply Commutes.own h
  intro x hx
  rw [hx]
  cases x.settings with
  | none => exact last
  | some c =>
    refine .bind (.configuredTags h c) fun old => .bind (.replaceGlobals N h old []) fun r => ?_
    cases r with
    | ok _ => exact last
    | error e => exact .bind (.note h _) fun _ => last

theorem carryOn : Commutes a s T (carryOn tell a) := by
  apply Commutes.own h
  intro x hx
  split
  · exact .bind (.note h _) fun _ => .pure none
  · cases x.settings with
    | none => exact .pure none
    | some c =>
      dsimp only
      cases ForkAction.decide c.detectSubprocesses with
      | restart =>
        refine .bind (.callStart N h c) fun b => ?_
        cases b with
        | true => exact .bind (.note h _) fun _ => .pure _
        | false => exact .bind (.note h _) fun _ => .bind (.retire N h) fun _ => .pure _
      | inert => exact .bind (.note h _) fun _ => .bind (.retire N h) fun _ => .pure _

theorem decideFork : Commutes a s T (decideFork tell a) :=
  .bind (.callReset N h) fun _ => .carryOn N h

omit N in
theorem locking {x : Act α} (hx : Commutes a s T x) : Commutes a s T (locking a x) := by
  apply Commutes.own h
  intro x hx
  split
  · exact .bind (.throw _) fun _ => .bind (.updateAgent h (by simp)) fun _ =>
      .protect ‹_› (.updateAgent h (by simp))
  · exact .bind (.updateAgent h (by simp)) fun _ => .protect ‹_› (.updateAgent h (by simp))

end Uses

section Transitions

variable (h : Unnoticed s T)

include h

theorem launch (c : Settings) : Commutes a s T (launch a c) := by
  refine .bind (.note h _) fun _ => .own h fun x hx => ?_
  rw [hx]
  refine .bind (.configuredTags h c) fun initial => .bind (.replaceGlobals teller h [] initial) fun r => ?_
  cases r with
  | error e => exact .pure _
  | ok _ =>
    refine .bind (.callStart teller h c) fun b => ?_
    cases b with
    | true => exact .bind (.note h _) fun _ => .bind (.updateAgent h (by simp)) fun _ => .pure _
    | false =>
      refine .bind (.replaceGlobals teller h initial []) fun r => ?_
      cases r with
      | error e => exact .pure _
      | ok _ => exact .bind (.release h) fun _ => .bind (.note h _) fun _ => .pure _

theorem startFrom (phase : Phase) (c : Settings) : Commutes a s T (startFrom a phase c) := by
  refine .bind (.claim h) fun claimed => ?_
  cases claimed with
  | false => exact .pure _
  | true =>
    change Commutes a s T (if phase = .fresh then _ else _)
    split
    · exact .bind (.setPhase h .configured) fun _ => .launch h c
    · exact .launch h c

theorem relaunch (old : List Tag) (c : Settings) : Commutes a s T (relaunch a s old c) := by
  refine .bind (.configuredTags h c) fun new => .bind (.replaceGlobals teller h old new) fun r => ?_
  cases r with
  | error e => exact .pure _
  | ok _ =>
    refine .bind (.callStart teller h c) fun b => ?_
    cases b with
    | true => exact .bind (.updateAgent h (by simp)) fun _ => .bind (.note h _) fun _ => .pure _
    | false =>
      refine .bind (.replaceGlobals teller h new []) fun r => ?_
      cases r with
      | error e => exact .pure _
      | ok _ =>
        exact .bind (.setPhase h .stopped) fun _ => .bind (.release h) fun _ =>
          .bind (.note h _) fun _ => .pure _

theorem swap (c : Settings) : Commutes a s T (swap a c) := by
  refine .own h fun x hx => .bind (.callStop teller h) fun flushed => ?_
  rw [hx]
  have last : Commutes a s T (do
      let old ← Program.previousTags x.settings
      Program.relaunch a s old c) :=
    .bind (.previousTags h x.settings) fun old => .relaunch h old c
  cases flushed with
  | true => exact last
  | false => exact .bind (.note h _) fun _ => last

theorem startLocked (c : Settings) : Commutes a s T (startLocked a c) := by
  apply Commutes.own h
  intro x hx
  split
  · split
    · exact .bind (.note h _) fun _ => .pure _
    · exact .swap h c
  · exact .startFrom h x.phase c

theorem startAgent (c : Settings) : Commutes a s T (startAgent a c) :=
  .bind (.told teller h) fun _ => .locking h (.startLocked h c)

end Transitions
end Commutes

theorem Unnoticed.roused (h : Unnoticed s T) (p : Program) :
    (T p).roused a = T (p.roused a) := by
  have hsaid := h.said (p.amend a fun x => { x with seen := p.generation })
    [(p.thread, forkNoticed p)]
  rw [h.amend] at hsaid
  unfold Program.roused
  rw [h.generation, h.thread, h.noticed]
  exact hsaid.symm

theorem handleFork_commutes (h : Unnoticed s T)
    (hw : (p.stores s).hook.watcher = some (.agent a)) (hs : (p.agents a).store = s) :
    (handleFork a).on (T p) = (((handleFork a).on p).1, T ((handleFork a).on p).2) ∧
      Watches a s ((handleFork a).on p).2 := by
  by_cases ha : p.Abreast a
  · have hp : Watches a s p := ⟨ha, hw, hs⟩
    rw [handleFork_abreast ha, handleFork_abreast (h.watches hp).abreast]
    exact ⟨rfl, hp⟩
  · have haT : ¬ (T p).Abreast a := by
      unfold Abreast
      rw [h.agents, h.generation]
      exact ha
    have hafter : Watches a s (p.roused a) :=
      ⟨by simp [Abreast, roused], hw, by simpa [roused] using hs⟩
    unfold handleFork tellingDepth settle
    rw [applyFork_behind ha, applyFork_behind haT, h.roused]
    exact Commutes.locking h (.decideFork teller_two h) _ hafter

end ProfilingAgent.Program
