import ProfilingAgent.Program.Jobs
import ProfilingAgent.Proofs.NestedScopes

set_option autoImplicit false

namespace ProfilingAgent

open Act Program

variable {α : Type}

def Pending.held (x : Scope) (next : Except TagError α → Async α)
    (after : Except TagError α → Except String (Polled α)) :
    Except String (Polled α) → Except String (Polled α)
  | .ok (.ready a) => after (.ok a)
  | .ok (.pending rest) => .ok (.pending (.inside x rest next))
  | .error message => .error message

/-- What a poll gives if scopes open on the context `c`, each provider finds the context that it finds
now, and `seen` are the snapshots. -/
def Async.meaning (s : StoreId) (c : ContextId) (context : Provider → ContextId)
    (seen : ContextId → List Tag) : Async α → Except String (Polled α)
  | done a => .ok (.ready a)
  | segment w next =>
    match w.meaning context seen with
    | .ok a => (next a).meaning s c context seen
    | .error message => .error message
  | wait next => .ok (.pending (.ahead next))
  | within tags body next =>
    match tags.find? (!·.isValid) with
    | some t => (next (.error (.emptyKey t.value))).meaning s c context seen
    | none => Pending.held ⟨s, c, tags⟩ next (fun r => (next r).meaning s c context seen)
      (body.meaning s c context (extended c tags seen))

namespace Pending

def meaning (s : StoreId) (c : ContextId) (context : Provider → ContextId)
    (seen : ContextId → List Tag) : Pending α → Except String (Polled α)
  | ahead x => x.meaning s c context seen
  | inside x body next => held x next (fun r => (next r).meaning s c context seen)
    (body.meaning s c context (extended c x.tags seen))

def openTags : Pending α → List Tag
  | ahead _ => []
  | inside x body _ => x.tags ++ body.openTags

def On (s : StoreId) (c : ContextId) : Pending α → Prop
  | ahead _ => True
  | inside x body _ => x.store = s ∧ x.context = c ∧ body.On s c

end Pending

def Polled.openTags : Except String (Polled α) → List Tag
  | .ok (.pending rest) => rest.openTags
  | _ => []

def Polled.On (s : StoreId) (c : ContextId) : Except String (Polled α) → Prop
  | .ok (.pending rest) => rest.On s c
  | _ => True

theorem extended_nil (c : ContextId) (lists : ContextId → List Tag) : extended c [] lists = lists := by
  unfold extended
  rw [List.append_nil, Function.update_eq_self]

theorem extended_extended (c : ContextId) (tags more : List Tag) (lists : ContextId → List Tag) :
    extended c more (extended c tags lists) = extended c (tags ++ more) lists := by
  unfold extended
  rw [Function.update_self, Function.update_idem, List.append_assoc]

namespace Program

variable {s : StoreId} {c : ContextId} {p q : Program} {lists : ContextId → List Tag}

/-- An action gives this, and the scopes that are held afterwards have their tags behind the lists. -/
def Gives (x : Act (Polled α)) (p : Program) (s : StoreId) (c : ContextId)
    (lists : ContextId → List Tag) (result : Except String (Polled α)) : Prop :=
  ∃ q, x.on p = (ending result, q) ∧ Tended s p q ∧
    q.tagsOn s = extended c (Polled.openTags result) lists ∧ Polled.On s c result

namespace Gives

variable {x : Act (Polled α)} {result : Except String (Polled α)}

theorem trans (hq : Tended s p q) (h : Gives x q s c lists result) {y : Act (Polled α)}
    (hon : y.on p = x.on q) : Gives y p s c lists result := by
  obtain ⟨r, hx, hr, htags, hplaced⟩ := h
  exact ⟨r, hon.trans hx, hq.trans hr, htags, hplaced⟩

theorem hold {tags : List Tag} {next : Except TagError α → Async α}
    {after : Except TagError α → Act (Polled α)}
    {told : Except TagError α → Except String (Polled α)} {body : Act (Polled α)} (hp : p.Aware s)
    (hbody : Gives body p s c (extended c tags lists) result)
    (hafter : ∀ a q, Tended s p q → q.tagsOn s = lists →
      Gives (after (.ok a)) q s c lists (told (.ok a))) :
    Gives (Pending.hold ⟨s, c, tags⟩ next after body) p s c lists
      (Pending.held ⟨s, c, tags⟩ next told result) := by
  obtain ⟨q, hon, hq, htags, hplaced⟩ := hbody
  have hclose : ∀ {tags'}, tags' = [] → q.tagsOn s = extended c tags' (extended c tags lists) →
      ∃ r, (exit ⟨s, c, tags⟩).on q = (.ok (), r) ∧ Tended s q r ∧ r.tagsOn s = lists := by
    rintro _ rfl h
    rw [extended_nil] at h
    exact exit_restores (hq.aware hp) h
  unfold Pending.hold
  match result with
  | .error message =>
    obtain ⟨r, hexit, hr, hlists⟩ := hclose rfl htags
    refine ⟨r, ?_, hq.trans hr, by rw [hlists]; exact (extended_nil c lists).symm, trivial⟩
    rw [on_bind, on_tryCatch, hon]
    dsimp only [ending]
    rw [on_bind, hexit]
    rfl
  | .ok (.ready a) =>
    obtain ⟨r, hexit, hr, hlists⟩ := hclose rfl htags
    refine (hafter a r (hq.trans hr) hlists).trans (hq.trans hr) ?_
    rw [on_bind, on_tryCatch, hon]
    dsimp only [ending]
    rw [on_bind, hexit]
  | .ok (.pending rest) =>
    refine ⟨q, ?_, hq, ?_, rfl, rfl, hplaced⟩
    · rw [on_bind, on_tryCatch, hon]
      rfl
    · rw [htags, extended_extended]
      rfl

end Gives
end Program

open Program

variable {s : StoreId} {c : ContextId} {p q : Program} {provider : Provider}
  {lists : ContextId → List Tag}

def Async.Polls (s : StoreId) (provider : Provider) (x : Async α) : Prop :=
  ∀ p : Program, p.Aware s → Gives (x.poll s provider) p s (p.contextFor provider) (p.tagsOn s)
    (x.meaning s (p.contextFor provider) p.contextFor (p.stores s).tags.snapshot)

theorem Async.Polls.after {x : Async α} (h : x.Polls s provider) (hp : p.Aware s)
    (hq : Tended s p q) (hlists : q.tagsOn s = lists) :
    Gives (x.poll s provider) q s (p.contextFor provider) lists
      (x.meaning s (p.contextFor provider) p.contextFor
        fun d => (p.stores s).tags.globals ++ lists d) := by
  have hgives := h q (hq.aware hp)
  rwa [hq.asked.contextFor, hq.snapshot, hlists] at hgives

theorem Async.polls (s : StoreId) (provider : Provider) (x : Async α) : x.Polls s provider := by
  induction x with
  | done a => exact fun p _ => ⟨p, rfl, .refl p s, (extended_nil _ _).symm, trivial⟩
  | wait next => exact fun p _ => ⟨p, rfl, .refl p s, (extended_nil _ _).symm, trivial⟩
  | segment w next ih =>
    intro p hp
    obtain ⟨q, hon, hq⟩ := w.answers s p hp
    unfold poll meaning
    cases hm : w.meaning p.contextFor (p.stores s).tags.snapshot with
    | ok a =>
      rw [hm] at hon
      refine ((ih a).after hp hq.toTended hq.contexts).trans hq.toTended ?_
      rw [on_bind, hon]
      rfl
    | error message =>
      rw [hm] at hon
      refine ⟨q, ?_, hq.toTended, hq.contexts.trans (extended_nil _ _).symm, trivial⟩
      rw [on_bind, hon]
      rfl
  | within tags body next ihBody ihNext =>
    intro p hp
    unfold poll meaning
    cases h : tags.find? (!·.isValid) with
    | some t =>
      obtain ⟨q, hon, hq, htags⟩ := enter_rejects hp provider h
      refine ((ihNext _).after hp hq htags).trans hq ?_
      rw [on_bind, hon]
      rfl
    | none =>
      obtain ⟨q, hon, hq, htags⟩ := enter_extends hp provider h
      have hbody := ihBody q (hq.aware hp)
      rw [hq.asked.contextFor, hq.snapshot_extended htags, htags] at hbody
      refine Gives.trans hq (x := Pending.hold ⟨s, p.contextFor provider, tags⟩ next
        (fun r => (next r).poll s provider) (body.poll s provider))
        (Gives.hold (hq.aware hp) hbody ?_) ?_
      · intro a r hr hlists
        exact (ihNext (.ok a)).after hp (hq.trans hr) hlists
      · rw [on_bind, hon]
        rfl

/-- Work that goes on sees the scopes that it holds, and nothing else of itself. -/
theorem Pending.poll_gives (rest : Pending α) (hp : p.Aware s) (hc : p.contextFor provider = c)
    (hon : rest.On s c) (htags : p.tagsOn s = extended c rest.openTags lists) :
    Gives (rest.poll s provider) p s c lists
      (rest.meaning s c p.contextFor fun d => (p.stores s).tags.globals ++ lists d) := by
  subst hc
  induction rest generalizing lists with
  | ahead x => exact (x.polls s provider).after hp (.refl p s) (htags.trans (extended_nil _ _))
  | inside x body next ih =>
    obtain ⟨store, context, tags⟩ := x
    obtain ⟨rfl, rfl, hbodyOn⟩ := hon
    rw [openTags, ← extended_extended] at htags
    have hbody := ih hbodyOn htags
    rw [extended_append] at hbody
    exact Gives.hold hp hbody fun a q hq hlists =>
      ((next (.ok a)).polls store provider).after hp hq hlists

theorem Pending.drop_restores (rest : Pending α) (hp : p.Aware s) (hon : rest.On s c)
    (htags : p.tagsOn s = extended c rest.openTags lists) :
    ∃ q, rest.drop.on p = (.ok (), q) ∧ Tended s p q ∧ q.tagsOn s = lists := by
  induction rest generalizing lists with
  | ahead x => exact ⟨p, rfl, .refl p s, htags.trans (extended_nil _ _)⟩
  | inside x body next ih =>
    obtain ⟨store, context, tags⟩ := x
    obtain ⟨rfl, rfl, hbodyOn⟩ := hon
    rw [openTags, ← extended_extended] at htags
    obtain ⟨q, hdrop, hq, hlists⟩ := ih hbodyOn htags
    obtain ⟨r, hexit, hr, hlists'⟩ := exit_restores (hq.aware hp) hlists
    refine ⟨r, ?_, hq.trans hr, hlists'⟩
    unfold drop
    rw [on_protect, hdrop]
    dsimp only
    rw [hexit]

end ProfilingAgent
