import ProfilingAgent.Proofs.Polls

set_option autoImplicit false

namespace ProfilingAgent

open Act Program

variable {α : Type} {s : StoreId} {c : ContextId} {p q : Program}

namespace Program

def withTask (p : Program) (c : Option ContextId) : Program :=
  { p with threads := p.threads.update p.thread fun t => { t with task := c } }

theorem withTask_threads (p : Program) (c : Option ContextId) (t : ThreadId) :
    (p.withTask c).threads t =
      if t = p.thread then { p.threads t with task := c } else p.threads t :=
  p.update_threads _ t

def contextIn (p : Program) (c : ContextId) : Provider → ContextId
  | .task => c
  | provider => p.contextFor provider

theorem withTask_contextFor (p : Program) (c : ContextId) :
    (p.withTask (some c)).contextFor = p.contextIn c := by
  have hrow : (p.withTask (some c)).threads p.thread =
      { p.threads p.thread with task := some c } := by
    rw [withTask_threads, if_pos rfl]
  funext provider
  cases provider with
  | fixed d => rfl
  | thread =>
    change ((p.withTask (some c)).threads p.thread).own.getD _ = _
    rw [hrow]
    rfl
  | task =>
    change ((p.withTask (some c)).threads p.thread).task.getD _ = _
    rw [hrow]
    rfl

theorem inTask_on (c : ContextId) (x : Act α) (p : Program) : (inTask c x).on p =
    ((x.on (p.withTask (some c))).1,
      (x.on (p.withTask (some c))).2.withTask (p.threads p.thread).task) := by
  have hentered : (inTask c x).on p =
      (protect x (setTask (p.threads p.thread).task)).on (p.withTask (some c)) := rfl
  rw [hentered, on_protect]
  rfl

theorem Retagged.turned {tags : TagStore} (h : Retagged s tags p q) (threads : Table Thread)
    (thread : ThreadId) (next : Nat) :
    Retagged s tags p { q with threads := threads, thread := thread, nextContext := next } where
  tags := h.tags
  hook := h.hook
  others := h.others
  same := ⟨h.same.generation, h.same.agents, h.same.slot, h.same.calls, h.same.watcher⟩

theorem Tended.inTask (h : Tended s (p.withTask (some c)) q) :
    Tended s p (q.withTask (p.threads p.thread).task) := by
  refine ⟨⟨h.kept.tags, h.kept.hook, h.kept.others, ?_⟩, h.globals, ?_⟩
  · exact ⟨h.kept.same.generation, h.kept.same.agents, h.kept.same.slot, h.kept.same.calls,
      h.kept.same.watcher⟩
  · have hthread : q.thread = p.thread := h.asked.thread
    cases h.asked with
    | nobody _ hnext hrows =>
      refine .nobody hthread hnext fun t => ?_
      rw [withTask_threads, hrows, withTask_threads, hthread]
      by_cases ht : t = p.thread
      · rw [if_pos ht, if_pos ht, ht]
      · rw [if_neg ht, if_neg ht]
    | somebody hown _ hnext hrows =>
      change ((p.withTask (some c)).threads p.thread).own = none at hown
      rw [withTask_threads, if_pos rfl] at hown
      refine .somebody hown hthread hnext fun t => ?_
      have hrow := hrows t
      change q.threads t = if t = p.thread then _ else _ at hrow
      rw [withTask_threads] at hrow
      rw [withTask_threads, hthread, hrow]
      by_cases ht : t = p.thread
      · simp only [ht]
        rfl
      · simp only [if_neg ht]

end Program

namespace Job

variable {j : Job α} {rest : Pending α} {lists : ContextId → List Tag}

def openTags (j : Job α) : List Tag :=
  match j.pending with
  | none => []
  | some rest => rest.openTags

structure Placed (s : StoreId) (j : Job α) : Prop where
  on : ∀ c rest, j.context = some c → j.pending = some rest → rest.On s c
  fresh : ∀ rest, j.context = none → j.pending = some rest → ∃ x, rest = .ahead x

def id (j : Job α) (p : Program) : ContextId := j.context.getD ⟨UInt64.ofNat p.nextContext⟩

def begun (j : Job α) (p : Program) : Program :=
  match j.context with
  | some _ => p
  | none => { p with nextContext := p.nextContext + 1 }

theorem begun_stores (j : Job α) (p : Program) : (j.begun p).stores = p.stores := by
  unfold begun
  cases j.context <;> rfl

theorem begun_next_le (j : Job α) (p : Program) :
    (j.begun p).nextContext ≤ p.nextContext + 1 := by
  unfold begun
  cases j.context with
  | none => exact le_rfl
  | some c => exact Nat.le_succ _

theorem begun_generation (j : Job α) (p : Program) : (j.begun p).generation = p.generation := by
  unfold begun
  cases j.context <;> rfl

theorem openTags_answered (c : ContextId) (result : Except String (Polled α)) :
    (answered c result).1.openTags = Polled.openTags result := by
  match result with
  | .ok (.ready _) => rfl
  | .ok (.pending _) => rfl
  | .error _ => rfl

theorem context_answered (c : ContextId) (result : Except String (Polled α)) :
    (answered c result).1.context = some c := by
  match result with
  | .ok (.ready _) => rfl
  | .ok (.pending _) => rfl
  | .error _ => rfl

theorem placed_answered {result : Except String (Polled α)} (h : Polled.On s c result) :
    (answered c result).1.Placed s := by
  refine ⟨fun d rest hd hrest => ?_, fun rest hnone => ?_⟩
  · rw [context_answered] at hd
    cases hd
    match result with
    | .ok (.pending _) =>
      cases hrest
      exact h
    | .ok (.ready _) => cases hrest
    | .error _ => cases hrest
  · rw [context_answered] at hnone
    cases hnone

/-- What becomes of a job that is polled now, and what it gives, if `lists` are the tags of contexts
without its own scopes. -/
def outcome (s : StoreId) (p : Program) (lists : ContextId → List Tag) (j : Job α) :
    Job α × Answer α :=
  match j.pending with
  | none => (j, .ok none)
  | some rest => answered (j.id p) (rest.meaning s (j.id p) ((j.begun p).contextIn (j.id p))
    fun d => (p.stores s).tags.globals ++ lists d)

def goesOn (s : StoreId) (p : Program) (j : Job α) : Job α × Answer α :=
  j.outcome s p (Function.update (p.tagsOn s) (j.id p) [])

theorem identify_on (j : Job α) (p : Program) : j.identify.on p = (.ok (j.id p), j.begun p) := by
  unfold identify id begun
  cases j.context <;> rfl

theorem poll_begun (hpending : j.pending = some rest) (p : Program) : (j.poll s).on p =
    (answered (j.id p) <$> Work.catching (inTask (j.id p) (rest.poll s .task))).on (j.begun p) := by
  unfold poll
  rw [hpending]
  dsimp only
  rw [on_bind, identify_on]

theorem poll_on (hp : p.Aware s) (hpending : j.pending = some rest) (hon : rest.On s (j.id p))
    (htags : p.tagsOn s = extended (j.id p) j.openTags lists) :
    ∃ q, (j.poll s).on p = (.ok (j.outcome s p lists), q) ∧ Tended s (j.begun p) q ∧
      q.tagsOn s = extended (j.id p) (j.outcome s p lists).1.openTags lists ∧
      (j.outcome s p lists).1.context = some (j.id p) ∧ (j.outcome s p lists).1.Placed s := by
  have hstores : ((j.begun p).withTask (some (j.id p))).stores = p.stores := j.begun_stores p
  have haware : ((j.begun p).withTask (some (j.id p))).Aware s := by
    unfold Aware
    rw [hstores]
    exact hp.trans (j.begun_generation p).symm
  have hlists : ((j.begun p).withTask (some (j.id p))).tagsOn s =
      extended (j.id p) rest.openTags lists := by
    unfold openTags at htags
    rw [hpending] at htags
    unfold tagsOn
    rw [hstores]
    exact htags
  have hcontext : ((j.begun p).withTask (some (j.id p))).contextFor .task = j.id p := by
    rw [withTask_contextFor]
    rfl
  obtain ⟨q, hran, hq, hleft, hplaced⟩ := rest.poll_gives haware hcontext hon hlists
  rw [withTask_contextFor, hstores] at hran hleft hplaced
  have houtcome : j.outcome s p lists = answered (j.id p) (rest.meaning s (j.id p)
      ((j.begun p).contextIn (j.id p)) fun d => (p.stores s).tags.globals ++ lists d) := by
    unfold outcome
    rw [hpending]
  rw [houtcome]
  refine ⟨_, ?_, hq.inTask, ?_, context_answered _ _, placed_answered hplaced⟩
  · have hcaught := Work.catching_on (x := inTask (j.id p) (rest.poll s .task)) (p := j.begun p)
      ((inTask_on _ _ _).trans (by rw [hran]))
    rw [poll_begun hpending, on_map, hcaught]
  · rw [openTags_answered]
    exact hleft

theorem drop_some (c : ContextId) (rest : Pending α) : drop ⟨some c, some rest⟩ =
    (fun _ => (⟨some c, none⟩ : Job α)) <$> inTask c rest.drop := rfl

theorem drop_on (hp : p.Aware s) (hplaced : j.Placed s) (hc : j.context = some c)
    (htags : p.tagsOn s = extended c j.openTags lists) :
    ∃ q, j.drop.on p = (.ok ⟨some c, none⟩, q) ∧ Tended s p q ∧ q.tagsOn s = lists := by
  obtain ⟨context, pending⟩ := j
  subst hc
  cases pending with
  | none => exact ⟨p, rfl, .refl p s, htags.trans (extended_nil c lists)⟩
  | some rest =>
    have haware : (p.withTask (some c)).Aware s := hp
    obtain ⟨q, hdrop, hq, hlists⟩ := rest.drop_restores haware (hplaced.on c rest rfl rfl) htags
    refine ⟨_, ?_, hq.inTask, hlists⟩
    rw [drop_some, on_map, inTask_on, hdrop]

theorem poll_keeps {j' : Job α} {answer : Answer α} (hc : j.context = some c)
    (hon : (j.poll s).on p = (.ok (j', answer), q)) : j'.context = some c := by
  have hid : j.id p = c := by
    unfold id
    rw [hc]
    rfl
  cases hpending : j.pending with
  | none =>
    unfold poll at hon
    rw [hpending] at hon
    cases hon
    exact hc
  | some rest =>
    rw [poll_begun hpending, on_map, hid] at hon
    rcases hran : (Work.catching (inTask c (rest.poll s .task))).on (j.begun p) with ⟨h | r, q'⟩
    all_goals rw [hran] at hon
    · cases hon
    · have hanswered : answered c r = (j', answer) := Except.ok.inj (congrArg Prod.fst hon)
      have hcontext := context_answered c r
      rwa [hanswered] at hcontext

theorem drop_keeps {j' : Job α} (hc : j.context = some c) (hon : j.drop.on p = (.ok j', q)) :
    j'.context = some c := by
  obtain ⟨context, pending⟩ := j
  subst hc
  cases pending with
  | none =>
    cases hon
    rfl
  | some rest =>
    rw [drop_some, on_map] at hon
    rcases hran : (inTask c rest.drop).on p with ⟨h | r, q'⟩
    all_goals rw [hran] at hon
    · cases hon
    · cases hon
      rfl

theorem drop_fresh (hc : j.context = none) (p : Program) :
    j.drop.on p = (.ok ⟨none, none⟩, p) := by
  obtain ⟨context, pending⟩ := j
  subst hc
  rfl

end Job

end ProfilingAgent
