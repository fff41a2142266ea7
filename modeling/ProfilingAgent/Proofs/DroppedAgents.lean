import ProfilingAgent.Proofs.Keeping

set_option autoImplicit false

namespace ProfilingAgent

open Act

def License.living (p : Program) : License where
  start a := (p.agents a).alive = true
  join _ := False
  use _ := True
  act a := (p.agents a).alive = true

namespace Program

variable {p q r : Program} {a : AgentId}

structure Buried (p q : Program) : Prop where
  host : q.hostAgent = p.hostAgent
  rows : ∀ b, (p.agents b).alive = false → q.agents b = p.agents b ∧ q.callsOf b = p.callsOf b

namespace Buried

theorem refl (p : Program) : Buried p p := ⟨rfl, fun _ _ => ⟨rfl, rfl⟩⟩

theorem congr (h : Buried p q) (hhost : r.hostAgent = q.hostAgent) (hagents : r.agents = q.agents)
    (hcalls : r.calls = q.calls) : Buried p r where
  host := hhost.trans h.host
  rows b hb := by
    unfold callsOf
    rw [hagents, hcalls]
    exact h.rows b hb

theorem amend (h : Buried p q) (ha : (p.agents a).alive = true) (f : Agent → Agent) :
    Buried p (q.amend a f) where
  host := h.host
  rows b hb := by
    have hba : b ≠ a := by
      rintro rfl
      rw [ha] at hb
      cases hb
    rw [amend_of_ne _ _ _ _ hba]
    exact h.rows b hb

theorem yieldSlot (h : Buried p q) (a : AgentId) : Buried p (q.yieldSlot a) := by
  refine h.congr ?_ (yieldSlot_agents q a) (yieldSlot_calls q a)
  unfold Program.yieldSlot
  split <;> rfl

end Buried

theorem buried_frame (p : Program) : StepFrame (.living p) (Buried p) where
  starter := id
  told {q a} h halive := by
    cases hp : (p.agents a).alive with
    | true => exact hp
    | false =>
      rw [(h.rows a hp).1, hp] at halive
      cases halive
  annotate _ h := h.congr rfl rfl rfl
  mark _ h := h.congr rfl rfl rfl
  count _ h := h.congr rfl rfl rfl
  granted _ h := h.congr rfl rfl rfl
  yielded a h := h.yieldSlot a
  amend _ f ha _ h := h.amend ha f
  prepared ha h := h.amend ha _
  stopped a ha h := (h.amend ha _).yieldSlot a
  adopt f ha _ h := h.amend ha f
  call {q} k ha _ h := by
    refine ⟨h.host, fun b hb => ?_⟩
    have hne : k.agent ≠ b := by
      rintro rfl
      rw [show (p.agents k.agent).alive = true from ha] at hb
      cases hb
    have hcalls : (q.call k).callsOf b = q.callsOf b := by
      rw [callsOf_of_append (call_calls q k), List.filter_cons_of_neg (by simpa using hne)]
      simp
    exact ⟨(h.rows b hb).1, hcalls.trans (h.rows b hb).2⟩
  globals _ _ h := h.congr rfl rfl rfl
  retag _ _ h := h.congr rfl rfl rfl
  uses _ _ := .inr fun _ => trivial
  install _ h := h.congr rfl rfl rfl
  store h := h.congr rfl rfl rfl
  watched _ _ h := h.congr rfl rfl rfl
  housed _ _ hjoin _ := hjoin.elim

/-- Agents that had been dropped are as they were. -/
structure Bygone (p q : Program) : Prop where
  size : p.agents.size ≤ q.agents.size
  rows : ∀ b, b < p.agents.size → (p.agents b).alive = false →
    q.agents b = p.agents b ∧ q.callsOf b = p.callsOf b

namespace Bygone

theorem refl (p : Program) : Bygone p p := ⟨Nat.le_refl _, fun _ _ _ => ⟨rfl, rfl⟩⟩

theorem trans (h : Bygone p q) (h' : Bygone q r) : Bygone p r where
  size := Nat.le_trans h.size h'.size
  rows b hb hdead := by
    obtain ⟨hrow, hcalls⟩ := h.rows b hb hdead
    obtain ⟨hrow', hcalls'⟩ := h'.rows b (Nat.lt_of_lt_of_le hb h.size) (hrow ▸ hdead)
    exact ⟨hrow'.trans hrow, hcalls'.trans hcalls⟩

theorem of_buried (h : Buried p q) (hsize : p.agents.size ≤ q.agents.size) : Bygone p q :=
  ⟨hsize, fun b _ hb => h.rows b hb⟩

end Bygone

end Program
end ProfilingAgent
