import ProfilingAgent.Program.Tasks
import ProfilingAgent.Proofs.JobPolls

set_option autoImplicit false

namespace ProfilingAgent

open Act Program

variable {α : Type} {s : StoreId} {provider : Provider} {p : Program}

/-- Segments with waiting between them. They give what the last one gives, or `a` without any. -/
def Async.ofSegments (a : α) : List (Work α) → Async α
  | [] => .done a
  | w :: rest => .segment w fun a => if rest.isEmpty then .done a else .wait (ofSegments a rest)

def Routine.around (s : StoreId) (segments : List (Work α)) (done : List α) : Routine Act α :=
  ⟨segments.map (Work.run s), done, false⟩

def Routine.stepped (s : StoreId) (done : List α) :
    List (Work α) → Act (List (Work α) × List α × Bool)
  | [] => pure ([], done, true)
  | w :: rest => (fun a => (rest, done ++ [a], rest.isEmpty)) <$> w.run s

theorem Routine.poll_around (s : StoreId) (segments : List (Work α)) (done : List α) :
    (around s segments done).poll =
      (fun r => (⟨r.1.map (Work.run s), r.2.1, r.2.2⟩ : Routine Act α)) <$> stepped s done segments := by
  cases segments with
  | nil => rfl
  | cons w rest =>
    unfold stepped
    rw [Functor.map_map, map_eq_pure_bind]
    cases rest <;> rfl

theorem Async.poll_ofSegments (s : StoreId) (provider : Provider) (a : α) (segments : List (Work α))
    (done : List α) :
    (ofSegments (done.getLastD a) segments).poll s provider =
      (fun r => if r.2.2 then Polled.ready (r.2.1.getLastD a)
        else .pending (.ahead (ofSegments (r.2.1.getLastD a) r.1))) <$> Routine.stepped s done segments := by
  cases segments with
  | nil => rfl
  | cons w rest =>
    unfold Routine.stepped
    rw [Functor.map_map, map_eq_pure_bind]
    refine bind_congr fun b => ?_
    simp only [List.getLastD_concat]
    cases rest <;> rfl

/-- A routine that holds a scope, and work that waits, are at the same point. -/
inductive SamePoint (s : StoreId) (provider : Provider) (tags : List Tag) (a : α)
    (next : Except TagError α → Async α) : ScopedRoutine Act α → Pending α → Prop
  | ahead (segments : List (Work α)) (done : List α) :
    SamePoint s provider tags a next ⟨s, provider, tags, none, .around s segments done⟩
      (.ahead (.within tags (.ofSegments (done.getLastD a) segments) next))
  | inside (x : Scope) (segments : List (Work α)) (done : List α) :
    SamePoint s provider tags a next ⟨s, provider, tags, some x, .around s segments done⟩
      (.inside x (.ahead (.ofSegments (done.getLastD a) segments)) next)

def ScopedRoutine.Mimicked (s : StoreId) (provider : Provider) (tags : List Tag) (a : α)
    (next : Except TagError α → Async α) (polled : Except Halt (Polled α) × Program) :
    Except Halt (Except TagError (ScopedRoutine Act α)) × Program → Prop
  | (.error h, q) => polled = (.error h, q)
  | (.ok (.error e), q) => polled = ((next (.error e)).poll s provider).on q
  | (.ok (.ok r), q) =>
    if r.routine.completed then
      polled = ((next (.ok (r.routine.done.getLastD a))).poll s provider).on q
    else ∃ y, polled = (.ok (.pending y), q) ∧ SamePoint s provider tags a next r y

variable {tags : List Tag} {a : α} {next : Except TagError α → Async α} {r : ScopedRoutine Act α}
  {x : Pending α}

theorem Pending.hold_on (x : Scope) (next : Except TagError α → Async α)
    (after : Except TagError α → Act (Polled α)) (body : Act (Polled α)) (p : Program) :
    (hold x next after body).on p = match body.on p with
      | (.error h, q) => (Program.exit x >>= fun _ => throw h : Act (Polled α)).on q
      | (.ok (.ready a), q) => (Program.exit x >>= fun _ => after (.ok a)).on q
      | (.ok (.pending rest), q) => (.ok (.pending (.inside x rest next)), q) := by
  unfold hold
  rw [on_bind, on_tryCatch]
  rcases body.on p with ⟨h | a | rest, q⟩
  · dsimp only
    rw [on_bind]
    rcases (Program.exit x).on q with ⟨e | u, r⟩ <;> rfl
  · rfl
  · rfl

theorem ScopedRoutine.pollInside_on {r : ScopedRoutine Act α} {x : Scope} (hx : r.scope = some x)
    (p : Program) : r.pollInside.on p = match r.routine.poll.on p with
      | (.error h, q) => (Program.exit x >>= fun _ => throw h : Act (ScopedRoutine Act α)).on q
      | (.ok routine, q) =>
        if routine.completed then
          (Program.exit x >>= fun _ => pure { r with scope := none, routine := routine }).on q
        else (.ok { r with routine := routine }, q) := by
  obtain ⟨store, provider, tags, scope, routine⟩ := r
  subst hx
  unfold pollInside
  rw [on_bind, on_tryCatch]
  rcases routine.poll.on p with ⟨h | ⟨todo, done, last⟩, q⟩
  · dsimp only [drop]
    rcases hexit : (Program.exit x).on q with ⟨e | u, r⟩
    all_goals
      -- A lift of actions to themselves, as routines are polled by whatever can act.
      have hlifted : (liftM (Program.exit x) : Act Unit).on q = _ := hexit
      simp only [on_bind, hexit, hlifted]
    rfl
  · cases last <;> rfl

theorem ScopedRoutine.pollInside_mimicked (x : Scope) (segments : List (Work α)) (done : List α) :
    ScopedRoutine.Mimicked s provider tags a next
      (((Pending.inside x (.ahead (.ofSegments (done.getLastD a) segments)) next).poll s provider).on p)
      ((Except.ok <$> pollInside ⟨s, provider, tags, some x, .around s segments done⟩ :
        Act (Except TagError (ScopedRoutine Act α))).on p) := by
  have hwork := congrFun (congrArg Act.on
    (Async.poll_ofSegments s provider a segments done)) p
  have hroutine := congrFun (congrArg Act.on (Routine.poll_around s segments done)) p
  have hheld := Pending.hold_on x next (fun r => (next r).poll s provider)
    ((Async.ofSegments (done.getLastD a) segments).poll s provider) p
  rw [on_map] at hwork hroutine
  rw [on_map, pollInside_on rfl]
  rcases hstep : (Routine.stepped s done segments).on p with ⟨h | ⟨segments', done', last⟩, q⟩
  all_goals
    rw [hstep] at hwork hroutine
    rw [hwork] at hheld
    dsimp only at hheld hroutine
    rw [hroutine]
    dsimp only
  · rw [on_bind] at hheld ⊢
    rcases hexit : (Program.exit x).on q with ⟨e | u, r⟩
    all_goals
      rw [hexit] at hheld
      exact hheld
  · cases last with
    | false => exact ⟨_, hheld, .inside x segments' done'⟩
    | true =>
      simp only [if_true, on_bind] at hheld ⊢
      rcases hexit : (Program.exit x).on q with ⟨e | u, r⟩
      all_goals
        rw [hexit] at hheld
        exact hheld

/-- A routine with a scope does at each poll what work that waits does, from the same point to the same
point, and when it completes or is refused the work goes on with what it gave. -/
theorem ScopedRoutine.poll_mimicked (h : SamePoint s provider tags a next r x) (p : Program) :
    ScopedRoutine.Mimicked s provider tags a next ((x.poll s provider).on p) (r.poll.on p) := by
  cases h with
  | inside x segments done => exact pollInside_mimicked x segments done
  | ahead segments done =>
    have hwork : ((Pending.ahead (.within tags (.ofSegments (done.getLastD a) segments) next)).poll s
        provider).on p = (enter s provider tags >>= Pending.begin next
          (fun r => (next r).poll s provider)
          ((Async.ofSegments (done.getLastD a) segments).poll s provider)).on p := rfl
    unfold ScopedRoutine.poll
    rw [hwork, on_bind]
    dsimp only
    rw [on_bind]
    rcases hentered : (enter s provider tags).on p with ⟨e | e | y, q⟩
    · rfl
    · rfl
    · exact pollInside_mimicked y segments done

theorem ScopedRoutine.drop_mimicked (h : SamePoint s provider tags a next r x) (p : Program) :
    (discard r.drop).on p = x.drop.on p := by
  cases h with
  | ahead segments done => rfl
  | inside x segments done =>
    have hlifted : (liftM (exit x) : Act Unit).on p = (exit x).on p := rfl
    have hbody : (Pending.ahead (Async.ofSegments (done.getLastD a) segments)).drop.on p = (.ok (), p) := rfl
    unfold ScopedRoutine.drop
    rw [Pending.drop, on_discard, on_bind, on_protect, hlifted, hbody]
    rcases (exit x).on p with ⟨e | u, q⟩ <;> rfl

/-- However often a routine with a scope is polled before it is given up, it leaves nothing behind. -/
theorem ScopedRoutine.pollUpTo_restores (n : Nat) {c : ContextId} {lists : ContextId → List Tag}
    (h : SamePoint s provider tags a (fun r => .done (r.toOption.getD a)) r x) (hp : p.Aware s)
    (hc : p.contextFor provider = c) (hon : x.On s c)
    (htags : p.tagsOn s = extended c x.openTags lists) :
    Tended s p ((r.pollUpTo n).on p).2 ∧ ((r.pollUpTo n).on p).2.tagsOn s = lists := by
  induction n generalizing p r x with
  | zero =>
    obtain ⟨q, hdrop, hq, hlists⟩ := x.drop_restores hp hon htags
    have hsame := drop_mimicked h p
    rw [hdrop, on_discard] at hsame
    unfold pollUpTo
    rw [on_bind]
    rcases hdropped : r.drop.on p with ⟨e | r', q'⟩
    all_goals
      rw [hdropped] at hsame
      cases hsame
    exact ⟨hq, hlists⟩
  | succ n ih =>
    obtain ⟨q, hpoll, hq, hleft, hplaced⟩ := x.poll_gives hp hc hon htags
    have hsame := poll_mimicked h p
    generalize x.meaning s c p.contextFor _ = result at hpoll hleft hplaced
    rw [hpoll] at hsame
    unfold pollUpTo
    rw [on_bind]
    have hended : ∀ {polled q'}, (ending result, q) = (polled, q') →
        (∀ rest, polled ≠ .ok (.pending rest)) → Tended s p q' ∧ q'.tagsOn s = lists := by
      intro polled q' heq hpolled
      cases heq
      rcases result with message | a' | rest
      · exact ⟨hq, hleft.trans (extended_nil c lists)⟩
      · exact ⟨hq, hleft.trans (extended_nil c lists)⟩
      · exact absurd rfl (hpolled rest)
    rcases hpolled : r.poll.on p with ⟨e | e | r', q'⟩
    all_goals
      rw [hpolled] at hsame
      unfold Mimicked at hsame
      dsimp only at hsame ⊢
    · exact hended hsame nofun
    · exact hended hsame nofun
    · -- Only a poll that is not the last one leads to another point.
      cases hcompleted : r'.routine.completed with
      | true =>
        rw [hcompleted, if_pos rfl] at hsame
        exact hended hsame nofun
      | false =>
        rw [hcompleted, if_neg nofun] at hsame
        obtain ⟨y, heq, hpoint⟩ := hsame
        rcases result with message | a' | rest
        all_goals cases heq
        obtain ⟨hrest, hlists⟩ := ih hpoint (hq.aware hp) (hq.asked.contextFor ▸ hc) hplaced hleft
        rw [if_neg nofun, on_bind]
        rcases hrun : (pollUpTo n r').on q with ⟨e | result, q''⟩
        all_goals
          rw [hrun] at hrest hlists
          exact ⟨hq.trans hrest, hlists⟩

/-- A routine that holds a scope leaves every context the tags that it had, wherever it is given up. -/
theorem ScopedRoutine.pollUpTo_ofSegments (n : Nat) (a : α) (segments : List (Work α))
    (hp : p.Aware s) :
    Tended s p (((ofSegments s provider tags (segments.map (Work.run s))).pollUpTo n).on p).2 ∧
      (((ofSegments s provider tags (segments.map (Work.run s))).pollUpTo n).on p).2.tagsOn s =
        p.tagsOn s :=
  pollUpTo_restores n (.ahead (a := a) segments []) hp rfl trivial (extended_nil _ _).symm

/-- A task and a job are at the same point. -/
inductive SameStage (s : StoreId) (a : α) : Task Act α → Job α → Prop
  | waiting (context : Option ContextId) (segments : List (Work α)) (done : List α) :
    SameStage s a ⟨context, .around s segments done⟩
      ⟨context, some (.ahead (.ofSegments (done.getLastD a) segments))⟩
  | completed {t : Task Act α} (h : t.routine.completed = true) : SameStage s a t ⟨t.context, none⟩

theorem Task.poll_begun {t : Task Act α} {j : Job α} (h : j.context = t.context) (p : Program) :
    t.poll.on p =
      ((fun r => (⟨some (j.id p), r⟩ : Task Act α)) <$> inTask (j.id p) t.routine.poll).on
        (j.begun p) := by
  obtain ⟨context, pending⟩ := j
  subst h
  obtain ⟨context, routine⟩ := t
  unfold poll
  cases context with
  | none => rfl
  | some c => rfl

def Task.Mimicked (s : StoreId) (a : α) (polled : Except Halt (Job α × Job.Answer α) × Program) :
    Except Halt (Task Act α) × Program → Prop
  | (.ok t, q) => ∃ j, SameStage s a t j ∧ polled = (.ok (j, .ok (if t.routine.completed then
      some (t.routine.done.getLastD a) else none)), q)
  | (.error (.panicked message), q) => ∃ c, polled = (.ok (⟨some c, none⟩, .error message), q)
  | (.error h, q) => polled = (.error h, q)

/-- A task is polled as the job with the same segments is, but that whoever polls jobs catches their
panics. -/
theorem Task.poll_mimicked {t : Task Act α} {j : Job α} (h : SameStage s a t j)
    (hleft : t.routine.completed = false) (p : Program) :
    Task.Mimicked s a ((j.poll s).on p) (t.poll.on p) := by
  cases h with
  | completed h =>
    rw [h] at hleft
    cases hleft
  | waiting context segments done =>
    let j : Job α := ⟨context, some (.ahead (.ofSegments (done.getLastD a) segments))⟩
    have hwork := congrFun (congrArg Act.on (Async.poll_ofSegments s .task a segments done))
      ((j.begun p).withTask (some (j.id p)))
    have hroutine := congrFun (congrArg Act.on (Routine.poll_around s segments done))
      ((j.begun p).withTask (some (j.id p)))
    rw [on_map] at hwork hroutine
    rw [poll_begun (j := j) rfl, Job.poll_begun rfl, on_map, on_map]
    unfold Work.catching
    rw [on_tryCatch, on_map, inTask_on, inTask_on]
    change (Async.poll s .task _).on _ = _ at hwork
    dsimp only [Pending.poll]
    rw [hwork, hroutine]
    rcases (Routine.stepped s done segments).on ((j.begun p).withTask (some (j.id p))) with
      ⟨h | ⟨segments', done', last⟩, q⟩
    · cases h with
      | panicked message => exact ⟨_, rfl⟩
      | _ => rfl
    · cases last with
      | false => exact ⟨_, .waiting _ segments' done', rfl⟩
      | true => exact ⟨_, .completed rfl, rfl⟩

end ProfilingAgent
