import ProfilingAgent.Program.Work
import ProfilingAgent.Proofs.SingleScopes

set_option autoImplicit false

namespace ProfilingAgent

open Act Program

namespace Work

variable {α : Type} {s : StoreId} {p : Program}

/-- What work gives if each provider finds the context that it finds now and `seen` are the snapshots:
a value or a panic. A scope with a blank key is refused for the first one, and its body is left out. -/
def meaning (context : Provider → ContextId) (seen : ContextId → List Tag) :
    Work α → Except String α
  | done a => .ok a
  | panic message => .error message
  | current provider next => (next (context provider)).meaning context seen
  | look c next => (next (seen c)).meaning context seen
  | within provider tags body next =>
    match tags.find? (!·.isValid) with
    | some t => (next (.error (.emptyKey t.value))).meaning context seen
    | none =>
      match body.meaning context (extended (context provider) tags seen) with
      | .ok a => (next (.ok a)).meaning context seen
      | .error message => .error message
  | caught body next => (next (body.meaning context seen)).meaning context seen

end Work

namespace Program

def ending {α : Type} : Except String α → Except Halt α
  | .ok a => .ok a
  | .error message => .error (.panicked message)

structure Restored (s : StoreId) (p q : Program) : Prop extends Tended s p q where
  contexts : q.tagsOn s = p.tagsOn s

namespace Restored

variable {s : StoreId} {p q r : Program}

theorem refl (p : Program) (s : StoreId) : Restored s p p := ⟨.refl p s, rfl⟩

theorem trans (h : Restored s p q) (h' : Restored s q r) : Restored s p r :=
  ⟨h.toTended.trans h'.toTended, h'.contexts.trans h.contexts⟩

theorem contextCount (h : Restored s p q) :
    (q.stores s).tags.contextCount = (p.stores s).tags.contextCount := by
  apply ContextTags.count_congr
  intro c
  change q.tagsOn s c = [] ↔ p.tagsOn s c = []
  rw [h.contexts]

theorem snapshot (h : Restored s p q) :
    (q.stores s).tags.snapshot = (p.stores s).tags.snapshot := by
  rw [h.toTended.snapshot, h.contexts]
  rfl

end Restored
end Program

namespace Work

variable {α β : Type} {s : StoreId} {p q : Program} {tags : List Tag}

def Answers (s : StoreId) (w : Work α) : Prop :=
  ∀ p : Program, p.Aware s → ∃ q, (w.run s).on p =
    (ending (w.meaning p.contextFor (p.stores s).tags.snapshot), q) ∧ Restored s p q

/-- Work that goes on after something else gives what it means where that began. -/
theorem Answers.after {x : Act β} {b : β} {next : β → Work α} (h : (next b).Answers s)
    (hp : p.Aware s) (hon : x.on p = (.ok b, q)) (hq : Restored s p q) :
    ∃ r, (x >>= fun b => (next b).run s).on p =
      (ending ((next b).meaning p.contextFor (p.stores s).tags.snapshot), r) ∧ Restored s p r := by
  obtain ⟨r, hr, hqr⟩ := h q (hq.aware hp)
  refine ⟨r, ?_, hq.trans hqr⟩
  rw [on_bind, hon]
  dsimp only
  rw [hr, hq.asked.contextFor, hq.snapshot]

theorem catching_on {x : Act α} {r : Except String α} (h : x.on p = (ending r, q)) :
    (catching x).on p = (.ok r, q) := by
  unfold catching
  rw [on_tryCatch, on_map, h]
  cases r <;> rfl

theorem withTags_rejects (provider : Provider) (body : Work α) {t : Tag} (hp : p.Aware s)
    (h : tags.find? (!·.isValid) = some t) :
    ∃ q, (withTags s provider tags (body.run s)).on p = (.ok (.error (.emptyKey t.value)), q) ∧
      Restored s p q := by
  obtain ⟨q, hon, hq, htags⟩ := enter_rejects hp provider h
  refine ⟨q, ?_, hq, htags⟩
  unfold withTags
  rw [on_bind]
  exact hon ▸ rfl

/-- The body sees the scope, and however it ends the scope closes behind it. -/
theorem withTags_restores (provider : Provider) {body : Work α} (hbody : body.Answers s)
    (hp : p.Aware s) (h : tags.find? (!·.isValid) = none) :
    ∃ q, (withTags s provider tags (body.run s)).on p =
      (ending ((body.meaning p.contextFor
        (extended (p.contextFor provider) tags (p.stores s).tags.snapshot)).map .ok), q) ∧
      Restored s p q := by
  obtain ⟨p', hentered, hp', htags⟩ := enter_extends hp provider h
  obtain ⟨q', hran, hq'⟩ := hbody p' (hp'.aware hp)
  obtain ⟨q, hexited, hq, hlists⟩ :=
    exit_restores (hq'.aware (hp'.aware hp)) (hq'.contexts.trans htags)
  have hseen : (p'.stores s).tags.snapshot =
      extended (p.contextFor provider) tags (p.stores s).tags.snapshot := hp'.snapshot_extended htags
  rw [hp'.asked.contextFor, hseen] at hran
  refine ⟨q, ?_, (hp'.trans hq'.toTended).trans hq, hlists⟩
  have hclosed : (protect (body.run s) (exit ⟨s, p.contextFor provider, tags⟩)).on p' =
      (ending (body.meaning p.contextFor
        (extended (p.contextFor provider) tags (p.stores s).tags.snapshot)), q) := by
    rw [on_protect, hran]
    dsimp only
    rw [hexited]
  have hopened : (withTags s provider tags (body.run s)).on p =
      (Except.ok <$> protect (body.run s) (exit ⟨s, p.contextFor provider, tags⟩)).on p' := by
    unfold withTags
    rw [on_bind]
    exact hentered ▸ rfl
  rw [hopened, on_map, hclosed]
  cases body.meaning p.contextFor
    (extended (p.contextFor provider) tags (p.stores s).tags.snapshot) <;> rfl

end Work

theorem Work.answers {α : Type} (s : StoreId) (w : Work α) : w.Answers s := by
  induction w with
  | done a => exact fun p _ => ⟨p, rfl, .refl p s⟩
  | panic message => exact fun p _ => ⟨p, rfl, .refl p s⟩
  | current provider next ih =>
    intro p hp
    obtain ⟨q, hon, hasked, hstores, hsame⟩ := currentContext_on p provider
    have hq : Restored s p q := ⟨.of_stores hstores hsame hasked, by unfold tagsOn; rw [hstores]⟩
    exact (ih _).after hp hon hq
  | look c next ih =>
    intro p hp
    obtain ⟨q, hon, hq, htags⟩ := snapshot_on hp c
    exact (ih _).after hp hon ⟨hq, htags⟩
  | within provider tags body next ihBody ihNext =>
    intro p hp
    unfold run meaning
    cases h : tags.find? (!·.isValid) with
    | some t =>
      obtain ⟨q, hon, hq⟩ := withTags_rejects provider body hp h
      exact (ihNext _).after hp hon hq
    | none =>
      obtain ⟨q, hon, hq⟩ := withTags_restores provider ihBody hp h
      cases hm : body.meaning p.contextFor
          (extended (p.contextFor provider) tags (p.stores s).tags.snapshot) with
      | ok a =>
        rw [hm] at hon
        exact (ihNext _).after hp hon hq
      | error message =>
        rw [hm] at hon
        refine ⟨q, ?_, hq⟩
        rw [on_bind, hon]
        rfl
  | caught body next ihBody ihNext =>
    intro p hp
    obtain ⟨q, hon, hq⟩ := ihBody p hp
    exact (ihNext _).after hp (catching_on hon) hq

/-- Work inside scopes gives what it means, whatever was attached before and however deep its scopes are
nested. It sees the tags of open scopes in the order of nesting, a scope with a blank key is refused
for the first one, and errors and panics come out as they are. Then every context has its tags from
before, in their order, and there are as many contexts. -/
theorem nested_scopes_restore {α : Type} {s : StoreId} {p : Program} (hp : p.Aware s) (w : Work α) :
    ∃ q, (w.run s).on p = (ending (w.meaning p.contextFor (p.stores s).tags.snapshot), q) ∧
      Restored s p q ∧ (q.stores s).tags.contextCount = (p.stores s).tags.contextCount := by
  obtain ⟨q, hon, hq⟩ := w.answers s p hp
  exact ⟨q, hon, hq, hq.contextCount⟩

/-- Scopes share pairs with those around them. One is refused for the first of two blank keys, and one
is left by a panic that the outermost one's body catches. -/
theorem nested_scopes_restore_unwound : (start 1 false).Aware 0 ∧ ∃ q,
    ((Work.within (.fixed ⟨7⟩) [⟨"zone", "a"⟩, ⟨"team", "b"⟩]
      (.within .thread [⟨"zone", "a"⟩, ⟨"", "x"⟩, ⟨"", "y"⟩] (.panic "not run") fun refused =>
        .caught (.within (.fixed ⟨7⟩) [⟨"team", "b"⟩] (.panic "lost") fun _ => .done ([], []))
          fun ended => .within (.fixed ⟨7⟩) [⟨"zone", "a"⟩] (.look ⟨7⟩ fun seen => .done ([], seen))
            fun inner => match refused, ended, inner with
              | .error (.emptyKey value), .error message, .ok (_, seen) =>
                .done ([value, message], seen)
              | _, _, _ => .done ([], []))
      fun
        | .ok r => .done r
        | .error _ => .done ([], [])).run 0).on (start 1 false) =
      (.ok (["x", "lost"], [⟨"zone", "a"⟩, ⟨"team", "b"⟩, ⟨"zone", "a"⟩]), q) ∧
    Restored 0 (start 1 false) q ∧
    (q.stores 0).tags.contextCount = ((start 1 false).stores 0).tags.contextCount :=
  have haware : (start 1 false).Aware 0 := rfl
  ⟨haware, nested_scopes_restore haware _⟩

end ProfilingAgent
