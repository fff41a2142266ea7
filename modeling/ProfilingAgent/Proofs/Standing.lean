import ProfilingAgent.Proofs.Ends

set_option autoImplicit false

/-!
# What samplers may be asked

A sampler is active from a start that succeeds until it is stopped, reset, or fails to start. It may
be started only while it is inactive and stopped only while it is active. How it stands can be told
from its script and the calls that it got.
-/
namespace ProfilingAgent

def SamplerCall.agent : SamplerCall → AgentId
  | .start a _ _ => a
  | .stop a _ => a
  | .reset a => a

def Use.Modest : Use → Prop
  | addGlobal _ | removeGlobal _ | replaceGlobals _ _ => False
  | addTags .. | removeTags .. | snapshot _ | clearContext _ | state => True

namespace Script

/-- No call ends in a panic. -/
def Calm (script : Script) : Prop :=
  ∀ n m, (script.onStart n).ending ≠ .panics m ∧ (script.onStop n).ending ≠ .panics m ∧
    (script.onReset n).ending ≠ .panics m

/-- No call uses the tag store. It may ask for the state. -/
def Quiet (script : Script) : Prop :=
  ∀ n, (∀ u ∈ (script.onStart n).uses, u = .state) ∧ (∀ u ∈ (script.onStop n).uses, u = .state) ∧
    ∀ u ∈ (script.onReset n).uses, u = .state

/-- No call changes global tags. -/
def Modest (script : Script) : Prop :=
  ∀ n, (∀ u ∈ (script.onStart n).uses, u.Modest) ∧ (∀ u ∈ (script.onStop n).uses, u.Modest) ∧
    ∀ u ∈ (script.onReset n).uses, u.Modest

/-- Fails to start at some turns, and apart from that does what it is asked and no more. -/
def failing (fails : Nat → Bool) : Script where
  onStart n := ⟨[], if fails n then .fails else .succeeds⟩
  onStop _ := {}
  onReset _ := {}

theorem failing_calm (fails : Nat → Bool) : (failing fails).Calm := by
  intro n m
  unfold failing
  refine ⟨?_, by simp, by simp⟩
  dsimp only
  split <;> simp

theorem failing_quiet (fails : Nat → Bool) : (failing fails).Quiet := by
  intro n
  unfold failing
  simp

end Script

structure Standing where
  turn : Nat
  active : Bool
  applied : Option Settings

namespace Standing

def initial : Standing := ⟨0, false, none⟩

variable (script : Script)

def after (st : Standing) : SamplerCall → Standing
  | .start _ c _ =>
    if (script.onStart st.turn).ending = .succeeds then ⟨st.turn + 1, true, some c⟩
    else ⟨st.turn + 1, false, st.applied⟩
  | .stop .. => { st with active := false }
  | .reset _ => { st with active := false }

def ofCalls (calls : List SamplerCall) : Standing := calls.foldl (after script) initial

def Permits (st : Standing) : SamplerCall → Prop
  | .start .. => st.active = false
  | .stop .. => st.active = true
  | .reset _ => True

def Obeyed (calls : List SamplerCall) : Prop :=
  ∀ before c rest, calls = before ++ c :: rest → (ofCalls script before).Permits c

theorem ofCalls_concat (calls : List SamplerCall) (c : SamplerCall) :
    ofCalls script (calls ++ [c]) = (ofCalls script calls).after script c := by
  simp [ofCalls]

theorem turn_ne_zero (calls : List SamplerCall) (h : (ofCalls script calls).active = true) :
    (ofCalls script calls).turn ≠ 0 := by
  rcases List.eq_nil_or_concat calls with rfl | ⟨before, c, rfl⟩
  · cases h
  · rw [List.concat_eq_append, ofCalls_concat] at h ⊢
    cases c with
    | start b settings globals =>
      unfold after
      dsimp only
      split <;> simp
    | stop b globals => cases h
    | reset b => cases h

theorem obeyed_nil : Obeyed script [] := by
  intro before c rest h
  simp at h

theorem Obeyed.concat {script : Script} {calls : List SamplerCall} {c : SamplerCall}
    (h : Obeyed script calls) (hc : (ofCalls script calls).Permits c) :
    Obeyed script (calls ++ [c]) := by
  intro before d rest heq
  rcases List.eq_nil_or_concat rest with rfl | ⟨rest', e, rfl⟩
  · obtain ⟨rfl, hd⟩ := List.append_inj' heq rfl
    simp only [List.cons.injEq, and_true] at hd
    exact hd ▸ hc
  · have heq' : calls ++ [c] = (before ++ d :: rest') ++ [e] := by simpa using heq
    obtain ⟨hcalls, -⟩ := List.append_inj' heq' rfl
    exact h before d rest' hcalls

end Standing
end ProfilingAgent
