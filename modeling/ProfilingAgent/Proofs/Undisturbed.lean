import ProfilingAgent.Proofs.Aware
import ProfilingAgent.Proofs.Keeping

set_option autoImplicit false

namespace ProfilingAgent

open Act

def License.sparing (s : StoreId) : License where
  start _ := True
  join sampler := ∀ script, sampler = .scripted script → script.Calm ∧ script.Quiet
  use t := t ≠ s
  act _ := True

namespace Program

variable {α : Type} {p q r : Program} {s : StoreId}

structure Peaceful (p : Program) : Prop where
  rest : p.AtRest
  calm : p.Calm
  quiet : p.Quiet

structure Spares (s : StoreId) (contexts : ContextTags) (p : Program) : Prop where
  contexts : (p.stores s).tags.contexts = contexts
  calm : p.Calm
  quiet : p.Quiet

theorem Spares.congr {contexts : ContextTags} (h : Spares s contexts p)
    (htags : (q.stores s).tags.contexts = (p.stores s).tags.contexts)
    (hsampler : ∀ b, (q.agents b).sampler = (p.agents b).sampler) : Spares s contexts q where
  contexts := htags.trans h.contexts
  calm := (Calm.congr hsampler).2 h.calm
  quiet := by
    unfold Quiet
    simp only [hsampler]
    exact h.quiet

theorem spares_frame (s : StoreId) (contexts : ContextTags) :
    Frame (.sparing s) (Spares s contexts) where
  annotate _ h := h.congr rfl fun _ => rfl
  mark t h := by
    refine h.congr ?_ fun _ => rfl
    by_cases ht : s = t <;> simp [ht]
  count _ h := h.congr rfl fun _ => rfl
  give _ h := h.congr rfl fun _ => rfl
  alter a f hf h := h.congr rfl fun b => amend_field _ a b f Agent.sampler (hf _).1
  adopt f _ hf h := h.congr rfl fun b => amend_field _ _ b f Agent.sampler (hf _).1
  call _ _ _ h := h.congr rfl fun _ => rfl
  globals t tags h := by
    refine h.congr ?_ fun _ => rfl
    by_cases ht : s = t <;> simp [ht]
  retag tags ht h := h.congr (by simp [Ne.symm ht]) fun _ => rfl
  uses h hs := .inl (h.quiet _ _ hs)
  fork _ _ h := h.congr rfl fun _ => rfl
  install _ h := h.congr rfl fun _ => rfl
  store := by
    intro p h
    refine h.congr ?_ fun _ => rfl
    dsimp only
    rw [Table.push_row]
    by_cases hs : s = p.stores.size
    · rw [if_pos hs, hs, Table.row_size]
      rfl
    · rw [if_neg hs]
  watched t w h := by
    refine h.congr ?_ fun _ => rfl
    by_cases ht : s = t <;> simp [ht]
  housed := by
    intro p t sampler hjoin h
    have hscript : ∀ b script, ((p.housed t sampler).agents b).sampler = .scripted script →
        sampler = .scripted script ∨ (p.agents b).sampler = .scripted script := by
      intro b script hb
      by_cases hnew : b = p.agents.size
      · rw [hnew, housed_new] at hb
        exact .inl hb
      · rw [housed_old hnew] at hb
        exact .inr hb
    refine ⟨?_, fun b script hb => ?_, fun b script hb => ?_⟩
    · rw [← h.contexts, housed_stores]
      by_cases ht : s = t <;> simp [ht]
    · exact (hscript b script hb).elim (fun hs => (hjoin script hs).1) (h.calm b script)
    · exact (hscript b script hb).elim (fun hs => (hjoin script hs).2) (h.quiet b script)

theorem Peaceful.spares (h : p.Peaceful) (s : StoreId) : Spares s (p.stores s).tags.contexts p :=
  ⟨rfl, h.calm, h.quiet⟩

theorem Peaceful.operate (h : p.Peaceful) (op : Operation) (hfits : op.Fits p)
    (hop : op.Licensed (.sparing s)) : op.perform.on p = (.ok (), op.after p) ∧
      (op.after p).Peaceful ∧ ((op.after p).stores s).tags.contexts = (p.stores s).tags.contexts := by
  obtain ⟨hcontexts, hcalm, hquiet⟩ := ((spares_frame s _).operation op hop p (h.spares s)).left
  have hrest := (Ends.mono (op.rests h.rest hfits) (fun _ _ h => h.1) fun _ _ h => h.1).left
  exact ⟨(op.returns h.rest h.calm hfits).1, ⟨hrest, hcalm, hquiet⟩, hcontexts⟩

structure Looked (s : StoreId) (p q : Program) : Prop where
  on : (checkStore tellAgent s).on p = (.ok (), q)
  aware : q.Aware s
  contexts : (q.stores s).tags.contexts = (p.stores s).tags.contexts
  peaceful : p.Peaceful → q.Peaceful
  still : p.Aware s → q = p

/-- To use a store is to look for a fork and then to use it. -/
theorem Looked.use {f : Unit → Act α} (h : Looked s p q) :
    (checkStore tellAgent s >>= f).on p = (checkStore tellAgent s >>= f).on q := by
  rw [h.aware.on_check, on_bind, h.on]

/-- A store that has seen every fork, or samplers that neither panic nor touch a store. -/
def Undisturbed (s : StoreId) (p : Program) : Prop := p.Aware s ∨ p.Peaceful

theorem Undisturbed.look (h : Undisturbed s p) : ∃ q, Looked s p q := by
  by_cases haware : p.Aware s
  · exact ⟨p, checkStore_seen haware, haware, rfl, id, fun _ => rfl⟩
  · have hp : p.Peaceful := h.resolve_left haware
    have hgo := checkStore_goes teller hp.rest.sound (s := s) (.inl trivial)
    have hkeep := (spares_frame s _).checkStore (spares_frame s _).tellAgent s p (hp.spares s)
    have hends := (Ends.and hgo hkeep).here
    unfold Ends at hends
    rcases hon : (checkStore tellAgent s).on p with ⟨e | _, q⟩
    · rw [hon] at hends
      exact absurd hp.calm hends.1.1.2.2
    · rw [hon] at hends
      obtain ⟨⟨⟨hfollows, hseen⟩, hspares⟩, -⟩ := hends
      exact ⟨q, hon, hseen, hspares.contexts,
        fun _ => ⟨hp.rest.follows hfollows, hspares.calm, hspares.quiet⟩, fun ha => absurd ha haware⟩

theorem Retagged.peaceful {tags : TagStore} (h : Retagged s tags p q) (hp : p.Peaceful) :
    q.Peaceful where
  rest := hp.rest.same h.same fun t => .inl (by rw [h.hook])
  calm := h.same.calm.2 hp.calm
  quiet := by
    unfold Quiet
    rw [h.same.agents]
    exact hp.quiet

end Program
end ProfilingAgent
