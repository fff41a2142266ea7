import ProfilingAgent.Proofs.Keeping

set_option autoImplicit false

namespace ProfilingAgent

open Act

def License.leaving (a : AgentId) : License where
  start b := b ≠ a
  join _ := True
  use _ := True
  act _ := True

namespace Program

variable {p q : Program} {a : AgentId}

/-- The sampler of an agent has not been started since, and no fork will start it. -/
structure Unstarted (a : AgentId) (p q : Program) : Prop where
  idle : ∀ c, ¬ q.GoesOn a c
  calls : ∃ new, q.calls = p.calls ++ new ∧ ∀ c globals, SamplerCall.start a c globals ∉ new

theorem Unstarted.refl (h : ∀ c, ¬ p.GoesOn a c) : Unstarted a p p := ⟨h, [], by simp, by simp⟩

theorem Unstarted.congr {r : Program} (h : Unstarted a p q)
    (hrow : (r.agents a).phase = .running → (q.agents a).phase = .running ∧
      (r.agents a).settings = (q.agents a).settings) (hcalls : r.calls = q.calls) :
    Unstarted a p r where
  idle c hgo := by
    obtain ⟨hrun, hset⟩ := hrow hgo.1
    exact h.idle c ⟨hrun, hset ▸ hgo.2.1, hgo.2.2⟩
  calls := by
    rw [hcalls]
    exact h.calls

theorem unstarted_frame (a : AgentId) (p : Program) : Frame (.leaving a) (Unstarted a p) where
  annotate _ h := h.congr (fun hr => ⟨hr, rfl⟩) rfl
  mark _ h := h.congr (fun hr => ⟨hr, rfl⟩) rfl
  count _ h := h.congr (fun hr => ⟨hr, rfl⟩) rfl
  give _ h := h.congr (fun hr => ⟨hr, rfl⟩) rfl
  alter b f hf h := by
    refine h.congr (fun hr => ?_) rfl
    by_cases hb : a = b
    · rw [amend_agents, if_pos hb] at hr ⊢
      exact ⟨hb ▸ (hf _).2.2 hr, hb ▸ (hf _).2.1⟩
    · rw [amend_of_ne _ _ _ _ hb] at hr ⊢
      exact ⟨hr, rfl⟩
  adopt f hb _ h := by
    refine h.congr (fun hr => ?_) rfl
    rw [amend_of_ne _ _ _ _ (Ne.symm hb)] at hr ⊢
    exact ⟨hr, rfl⟩
  call k _ hk h := by
    obtain ⟨new, hnew, hnone⟩ := h.calls
    refine ⟨h.idle, new ++ [k], by rw [call_calls, hnew, List.append_assoc], fun c g hmem => ?_⟩
    rcases List.mem_append.1 hmem with hmem | hmem
    · exact hnone c g hmem
    · have hstart := hk a c g (List.mem_singleton.1 hmem).symm
      exact h.idle c (hstart.resolve_left fun hne => hne rfl)
  globals _ _ h := h.congr (fun hr => ⟨hr, rfl⟩) rfl
  retag _ _ h := h.congr (fun hr => ⟨hr, rfl⟩) rfl
  uses _ _ := .inr fun _ => trivial
  fork _ _ h := h.congr (fun hr => ⟨hr, rfl⟩) rfl
  install _ h := h.congr (fun hr => ⟨hr, rfl⟩) rfl
  store h := h.congr (fun hr => ⟨hr, rfl⟩) rfl
  watched _ _ h := h.congr (fun hr => ⟨hr, rfl⟩) rfl
  housed := by
    intro q s sampler _ h
    refine h.congr (fun hr => ?_) rfl
    by_cases hnew : a = q.agents.size
    · rw [hnew, housed_new] at hr
      cases hr
    · rw [housed_old hnew] at hr ⊢
      exact ⟨hr, rfl⟩

abbrev Leaves (a : AgentId) : Program → Program → Prop := Leads (·.Licensed (.leaving a))

theorem Leaves.unstarted (h : Leaves a p q) (hp : ∀ c, ¬ p.GoesOn a c) : Unstarted a p q :=
  (unstarted_frame a p).leads (.refl hp) h

end Program
end ProfilingAgent
