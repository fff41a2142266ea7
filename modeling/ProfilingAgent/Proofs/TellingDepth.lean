import ProfilingAgent.Proofs.Deciding

set_option autoImplicit false

namespace ProfilingAgent

open Act

variable {α β : Type}

namespace Program

variable {p : Program} {a : AgentId} {s : StoreId}

/-- The second action does as the first does, unless the first meets the bound. -/
def Exceeds (x y : Act α) : Prop := ∀ p, (x.on p).1 ≠ .error .endless → y.on p = x.on p

namespace Exceeds

variable {x y z : Act α}

theorem refl (x : Act α) : Exceeds x x := fun _ _ => rfl

theorem trans (h : Exceeds x y) (h' : Exceeds y z) : Exceeds x z := by
  intro p hp
  have hy := h p hp
  rw [h' p (by rw [hy]; exact hp), hy]

theorem bind {f g : α → Act β} (hx : Exceeds x y) (hf : ∀ r, Exceeds (f r) (g r)) :
    Exceeds (x >>= f) (y >>= g) := by
  intro p hp
  rw [on_bind] at hp ⊢
  rw [on_bind]
  rcases hon : x.on p with ⟨h | r, q⟩
  · have hne : h ≠ .endless := fun he => hp (by rw [hon, he])
    rw [hx p (by simpa [hon] using hne), hon]
  · rw [hon] at hp
    rw [hx p (by simp [hon]), hon]
    exact hf r q hp

theorem discard (hx : Exceeds x y) : Exceeds (discard x) (discard y) := by
  intro p hp
  rw [on_discard] at hp ⊢
  rw [on_discard]
  rcases hon : x.on p with ⟨h | r, q⟩
  · have hne : h ≠ .endless := fun he => hp (by rw [hon, he])
    rw [hx p (by simpa [hon] using hne), hon]
  · rw [hx p (by simp [hon]), hon]

theorem protect {after : Act Unit} (hx : Exceeds x y) (hafter : ∀ p, (after.on p).1 = .ok ()) :
    Exceeds (protect x after) (protect y after) := by
  intro p hp
  rw [on_protect] at hp ⊢
  rw [on_protect]
  have hne : (x.on p).1 ≠ .error .endless := by
    have hok := hafter (x.on p).2
    rcases hon : after.on (x.on p).2 with ⟨h | u, q⟩
    · rw [hon] at hok
      cases hok
    · rw [hon] at hp
      exact hp
  rw [hx p hne]

theorem locking (hx : Exceeds x y) : Exceeds (locking a x) (locking a y) := by
  have locked : Exceeds
      (do updateAgent a fun x => { x with locked := true }
          ProfilingAgent.protect x (updateAgent a fun x => { x with locked := false }))
      (do updateAgent a fun x => { x with locked := true }
          ProfilingAgent.protect y (updateAgent a fun x => { x with locked := false })) :=
    .bind (.refl _) fun _ => .protect hx fun _ => rfl
  unfold Program.locking
  refine .bind (.refl _) fun r => ?_
  split
  · exact .bind (.refl _) fun _ => locked
  · exact locked

end Exceeds

section Telling

variable {tell deeper : AgentId → Act Unit} (h : ∀ a, Exceeds (tell a) (deeper a))

include h

theorem checkStore_exceeds (s : StoreId) : Exceeds (checkStore tell s) (checkStore deeper s) := by
  refine .bind (.refl _) fun p => ?_
  dsimp only
  split
  · refine .bind (.refl _) fun _ => ?_
    cases (p.stores s).hook.watcher with
    | none => exact .refl _
    | some w =>
      cases w with
      | counter c => exact .refl _
      | agent a =>
        refine .bind (.refl _) fun p => ?_
        split
        · exact h a
        · exact .refl _
  · exact .refl _

theorem revise_exceeds (s : StoreId) (use : TagStore → Except TagError TagStore) :
    Exceeds (revise tell s use) (revise deeper s use) :=
  .bind (checkStore_exceeds h s) fun _ => .refl _

theorem useOnce_exceeds (a : AgentId) (s : StoreId) (u : Use) :
    Exceeds (useOnce tell a s u) (useOnce deeper a s u) := by
  have first : ∀ {α : Type} (f : Unit → Act α),
      Exceeds (discard (checkStore tell s >>= f)) (discard (checkStore deeper s >>= f)) :=
    fun f => .discard (.bind (checkStore_exceeds h s) fun _ => .refl _)
  cases u with
  | addTags c tags => exact .discard (.bind (revise_exceeds h s _) fun _ => .refl _)
  | state => exact h a
  | removeTags | addGlobal | removeGlobal | replaceGlobals | snapshot | clearContext => exact first _

theorem useAll_exceeds (a : AgentId) (s : StoreId) (us : List Use) :
    Exceeds (useAll tell a s us) (useAll deeper a s us) := by
  induction us with
  | nil => exact .refl _
  | cons u us ih => exact .bind (useOnce_exceeds h a s u) fun _ => ih

theorem carryOut_exceeds (a : AgentId) (r : Reply) :
    Exceeds (carryOut tell a r) (carryOut deeper a r) :=
  .bind (.refl _) fun _ => .bind (useAll_exceeds h a _ r.uses) fun _ => .refl _

theorem callStart_exceeds (a : AgentId) (c : Settings) :
    Exceeds (callStart tell a c) (callStart deeper a c) := by
  refine .bind (.refl _) fun x => ?_
  cases x.sampler with
  | idle => exact .refl _
  | scripted script =>
    exact .bind (.refl _) fun _ => .bind (.refl _) fun _ => .bind (.refl _) fun _ =>
      carryOut_exceeds h a _

theorem callReset_exceeds (a : AgentId) : Exceeds (callReset tell a) (callReset deeper a) := by
  refine .bind (.refl _) fun x => ?_
  cases x.sampler with
  | idle => exact .refl _
  | scripted script =>
    exact .bind (.refl _) fun _ => .bind (.refl _) fun _ => .discard (carryOut_exceeds h a _)

theorem retire_exceeds (a : AgentId) : Exceeds (retire tell a) (retire deeper a) := by
  refine .bind (.refl _) fun x => ?_
  cases x.settings with
  | none => exact .refl _
  | some c => exact .bind (.refl _) fun old => .bind (revise_exceeds h x.store _) fun _ => .refl _

theorem carryOn_exceeds (a : AgentId) : Exceeds (carryOn tell a) (carryOn deeper a) := by
  refine .bind (.refl _) fun x => ?_
  split
  · exact .refl _
  · cases x.settings with
    | none => exact .refl _
    | some c =>
      dsimp only
      cases ForkAction.decide c.detectSubprocesses with
      | inert => exact .bind (.refl _) fun _ => .bind (retire_exceeds h a) fun _ => .refl _
      | restart =>
        refine .bind (callStart_exceeds h a c) fun started => ?_
        cases started with
        | true =>
          simp only [if_true]
          exact .refl _
        | false =>
          simp only [Bool.false_eq_true, if_false]
          exact .bind (.refl _) fun _ => .bind (retire_exceeds h a) fun _ => .refl _

theorem applyFork_exceeds (a : AgentId) : Exceeds (applyFork tell a) (applyFork deeper a) := by
  refine .bind (.refl _) fun behind => ?_
  cases behind with
  | true => exact .locking (.bind (callReset_exceeds h a) fun _ => carryOn_exceeds h a)
  | false => exact .refl (pure none)

end Telling

theorem settle_exceeds (n : Nat) (a : AgentId) : Exceeds (settle n a) (settle (n + 1) a) := by
  induction n generalizing a with
  | zero =>
    intro p hp
    unfold settle at hp
    exact absurd rfl hp
  | succ n ih => exact applyFork_exceeds (fun b => .discard (ih b)) a

theorem settle_exceeds_add (n k : Nat) (a : AgentId) : Exceeds (settle n a) (settle (n + k) a) := by
  induction k with
  | zero => exact .refl _
  | succ k ih => exact ih.trans (settle_exceeds (n + k) a)

/-- In a sound program, also while agents are in transition, it makes no difference how deep agents
may tell each other beyond the bound. -/
theorem settle_deeper (hp : p.Sound) (halive : (p.agents a).alive = true) (n : Nat) :
    (settle (tellingDepth + n) a).on p = (handleFork a).on p := by
  refine settle_exceeds_add tellingDepth n a p ?_
  intro hend
  change ((handleFork a).on p).1 = _ at hend
  by_cases ha : p.Abreast a
  · rw [handleFork_abreast ha] at hend
    cases hend
  · have hgo := (handleFork_goes hp halive (hp.unlocked ha)).1
    unfold Goes Ends at hgo
    rcases hon : (handleFork a).on p with ⟨h | r, q⟩
    · rw [hon] at hgo hend
      obtain ⟨-, ⟨m, rfl⟩, -⟩ := hgo
      cases hend
    · rw [hon] at hend
      cases hend

end Program
end ProfilingAgent
