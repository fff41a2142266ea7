import ProfilingAgent.Proofs.Aware

set_option autoImplicit false

namespace ProfilingAgent

open Act Program

/-- Every start succeeds, and every stop succeeds or fails. -/
def Script.Obliging (script : Script) : Prop :=
  ∀ n, (script.onStart n).ending = .succeeds ∧ ∀ m, (script.onStop n).ending ≠ .panics m

namespace Program

variable {tell : AgentId → Act Unit} {able : Prop} {p : Program} {a : AgentId} {script : Script}

theorem carryOut_yields (N : Teller tell able) (h : p.Aware (p.agents a).store) (ha : p.Abreast a)
    {x : Reply} (hx : ∀ m, x.ending ≠ .panics m) :
    Yields (carryOut tell a x) p (p.agents a).store (decide (x.ending = .succeeds))
      (leftBy x.uses (p.stores (p.agents a).store).tags) := by
  obtain ⟨q, hon, hq⟩ := useAll_yields N h ha x.uses
  have hread : (agent a).on p = (.ok (p.agents a), p) := rfl
  refine ⟨q, ?_, hq⟩
  unfold carryOut
  rw [on_bind, hread]
  dsimp only
  rw [on_bind, hon]
  cases hending : x.ending with
  | succeeds => rfl
  | fails => rfl
  | panics m => exact absurd hending (hx m)

structure Answered (script : Script) (a : AgentId) (f : Agent → Agent) (k : SamplerCall)
    (p q : Program) : Prop where
  retagged : ∃ tags, Retagged (p.agents a).store tags ((p.amend a f).call k) q
  globals : script.Modest → (q.stores (p.agents a).store).tags.globals =
    (p.stores (p.agents a).store).tags.globals

theorem carryOut_answered (N : Teller tell able) (h : p.Aware (p.agents a).store) (ha : p.Abreast a)
    {x : Reply} (hx : ∀ m, x.ending ≠ .panics m) (hmodest : script.Modest → ∀ u ∈ x.uses, u.Modest)
    {f : Agent → Agent} (hf : ∀ x, (f x).store = x.store ∧ (f x).seen = x.seen) (k : SamplerCall) :
    ∃ q, (carryOut tell a x).on ((p.amend a f).call k) = (.ok (decide (x.ending = .succeeds)), q) ∧
      Answered script a f k p q := by
  have hstore : (((p.amend a f).call k).agents a).store = (p.agents a).store :=
    amend_field p a a f Agent.store (hf _).1
  have ha' : ((p.amend a f).call k).Abreast a := by
    unfold Abreast
    rw [call_agents, amend_field p a a f Agent.seen (hf _).2]
    exact ha
  obtain ⟨q, hon, hq⟩ := carryOut_yields (p := (p.amend a f).call k) N (by rw [hstore]; exact h) ha' hx
  rw [hstore] at hq
  refine ⟨q, hon, ⟨_, hq⟩, fun hm => ?_⟩
  rw [hq.tags]
  exact leftBy_globals (hmodest hm) _

theorem callStart_answered (N : Teller tell able) (h : p.Aware (p.agents a).store) (ha : p.Abreast a)
    (hs : (p.agents a).sampler = .scripted script) (hobliging : script.Obliging) (c : Settings) :
    ∃ q, (callStart tell a c).on p = (.ok true, q) ∧ Answered script a
      (fun x => { x with starts := x.starts + 1 })
      (.start a c (p.stores (p.agents a).store).tags.globals) p q := by
  have hending := (hobliging (p.agents a).starts).1
  obtain ⟨q, hon, hq⟩ := carryOut_answered N h ha (x := script.onStart (p.agents a).starts)
    (by simp [hending]) (fun hm => (hm _).1) (f := fun x => { x with starts := x.starts + 1 })
    (fun _ => ⟨rfl, rfl⟩) (.start a c (p.stores (p.agents a).store).tags.globals)
  refine ⟨q, ?_, hq⟩
  have hread : (agent a).on p = (.ok (p.agents a), p) := rfl
  unfold callStart
  rw [on_bind, hread]
  dsimp only
  rw [hs]
  rw [hending] at hon
  exact hon

theorem callStop_answered (N : Teller tell able) (h : p.Aware (p.agents a).store) (ha : p.Abreast a)
    (hs : (p.agents a).sampler = .scripted script) (hobliging : script.Obliging) :
    ∃ flushed globals q, (callStop tell a).on p = (.ok flushed, q) ∧ Answered script a
      (fun x => { x with stops := x.stops + 1 }) (.stop a globals) p q := by
  obtain ⟨q, hon, hq⟩ := carryOut_answered N h ha (x := script.onStop (p.agents a).stops)
    (hobliging (p.agents a).stops).2 (fun hm => (hm _).2.1) (f := fun x => { x with stops := x.stops + 1 })
    (fun _ => ⟨rfl, rfl⟩) (.stop a (if (p.agents a).starts = 0 then none
      else some (p.stores (p.agents a).store).tags.globals))
  refine ⟨decide ((script.onStop (p.agents a).stops).ending = .succeeds), _, q, ?_, hq⟩
  have hread : (agent a).on p = (.ok (p.agents a), p) := rfl
  unfold callStop
  rw [on_bind, hread]
  dsimp only
  rw [hs]
  exact hon

end Program
end ProfilingAgent
