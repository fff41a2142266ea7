import ProfilingAgent.Proofs.HeldScopes

set_option autoImplicit false

/-!
# Work that travels

Work inside a scope is created somewhere, polled for the first time perhaps somewhere else, and then in
still other places, until it is done or given up. Its tags are on the context that is found at the first
poll, from then on and as long as it waits, and on no other context. Where it was created makes no
difference.
-/
namespace ProfilingAgent

open Act Program

variable {α : Type}

def Async.tagged (tags : List Tag) (body : Async α) (give : Except TagError α → α) : Async α :=
  .within tags body fun r => .done (give r)

def Polled.left : Except Halt (Polled α) → Option (Pending α)
  | .ok (.pending rest) => some rest
  | _ => none

def heldBy : Option (Pending α) → List Scope
  | some rest => rest.scopes
  | none => []

/-- Where work has come from its creation at `p₀`. Along with it, the context that was found at the first
poll, what is left of it, and the tags that contexts have without it. -/
inductive Journey (s : StoreId) (provider : Provider) (x : Async α) (p₀ : Program) :
    Option ContextId → Option (Pending α) → (ContextId → Multiset Tag) → Program → Prop
  | created : Journey s provider x p₀ none (some (.ahead x)) (p₀.contextTags s) p₀
  | polled {p q : Program} {found : Option ContextId} {rest : Pending α} {base : ContextId → Multiset Tag}
    {r : Except Halt (Polled α)} (h : Journey s provider x p₀ found (some rest) base p)
    (hon : (rest.poll s provider).on p = (r, q)) :
    Journey s provider x p₀ (some (found.getD (p.contextFor provider))) (Polled.left r) base q
  | givenUp {p q : Program} {found : Option ContextId} {rest : Pending α} {base : ContextId → Multiset Tag}
    {r : Except Halt Unit} (h : Journey s provider x p₀ found (some rest) base p)
    (hon : rest.drop.on p = (r, q)) : Journey s provider x p₀ found none base q
  /-- Anything else happens, on any thread and in any task, that leaves the tags of its scopes alone. -/
  | elsewhere {p q : Program} {found : Option ContextId} {left : Option (Pending α)}
    {base base' : ContextId → Multiset Tag} (h : Journey s provider x p₀ found left base p)
    (hq : Undisturbed s q) (htags : ∀ d, q.contextTags s d = base' d + openTags d (heldBy left)) :
    Journey s provider x p₀ found left base' q

variable {s : StoreId} {provider : Provider} {p₀ p q : Program} {tags : List Tag} {body : Async α}
  {give : Except TagError α → α} {x : Scope} {base : ContextId → Multiset Tag} {left : Option (Pending α)}
  {found : Option ContextId}

theorem heldBy_left (result : Except String (Polled α)) :
    heldBy (Polled.left (ending result)) = Polled.scopes result := by
  match result with
  | .ok (.ready _) => rfl
  | .ok (.pending _) => rfl
  | .error _ => rfl

/-- What is left of a scope's work is inside the same scope, if nothing waits behind the scope. -/
theorem Pending.hold_left {next : Except TagError α → Async α} {after : Except TagError α → Act (Polled α)}
    {act : Act (Polled α)} {rest : Pending α} (hafter : ∀ r, ∃ a, after r = pure (.ready a))
    (h : Polled.left ((hold x next after act).on p).1 = some rest) : ∃ inner, rest = .inside x inner next := by
  rw [hold_on] at h
  rcases hact : act.on p with ⟨e | a | inner, q⟩
  all_goals
    rw [hact] at h
    dsimp only at h
  · rw [on_bind] at h
    rcases hexit : (Program.exit x).on q with ⟨e' | u, r⟩
    all_goals
      rw [hexit] at h
      cases h
  · obtain ⟨b, hb⟩ := hafter (.ok a)
    rw [on_bind, hb] at h
    rcases hexit : (Program.exit x).on q with ⟨e' | u, r⟩
    all_goals
      rw [hexit] at h
      cases h
  · exact ⟨inner, (Option.some.inj h).symm⟩

theorem Async.poll_done (r : Except TagError α) : ∃ a, (done (give r)).poll s provider = pure (.ready a) :=
  ⟨give r, rfl⟩

/-- At the first poll the scope is opened on the context that is found then, and the body begins inside. -/
theorem Async.begins (provider : Provider) (body : Async α) (give : Except TagError α → α)
    (hp : Carries s base [] p) (hvalid : ∀ t ∈ tags, t.isValid = true) :
    ∃ q, Carries s base [⟨s, p.contextFor provider, tags⟩] q ∧
      ((tagged tags body give).poll s provider).on p =
        (Pending.hold ⟨s, p.contextFor provider, tags⟩ (fun r => .done (give r))
          (fun r => (done (give r)).poll s provider) (body.poll s provider)).on q := by
  obtain ⟨q, hon, hq⟩ := hp.enter provider hvalid
  refine ⟨q, hq, ?_⟩
  rw [tagged, poll, on_bind, hon]
  rfl

theorem Async.left_of_first_poll (hp : Carries s base [] p) {rest : Pending α}
    (h : Polled.left (((tagged tags body give).poll s provider).on p).1 = some rest) :
    ∃ inner, rest = .inside ⟨s, p.contextFor provider, tags⟩ inner fun r => .done (give r) := by
  by_cases hvalid : ∀ t ∈ tags, t.isValid = true
  · obtain ⟨q, -, hon⟩ := begins provider body give hp hvalid
    rw [hon] at h
    exact Pending.hold_left poll_done h
  · have hblank : ∃ t ∈ tags, t.isValid = false := by simpa using hvalid
    obtain ⟨e, q, hon, -⟩ := enter_unmoved hp.undisturbed provider hblank
    rw [tagged, poll, on_bind, hon] at h
    cases h

structure Underway (s : StoreId) (tags : List Tag) (body : Async α) (give : Except TagError α → α)
    (found : Option ContextId) (left : Option (Pending α)) (base : ContextId → Multiset Tag) (p : Program) :
    Prop where
  carries : Carries s base (heldBy left) p
  fresh : found = none → ∀ rest, left = some rest → rest = .ahead (.tagged tags body give)
  inside : ∀ c rest, found = some c → left = some rest →
    ∃ inner, rest = .inside ⟨s, c, tags⟩ inner fun r => .done (give r)

theorem Underway.polled {rest : Pending α} {r : Except Halt (Polled α)}
    (h : Underway s tags body give found (some rest) base p) (hon : (rest.poll s provider).on p = (r, q)) :
    Underway s tags body give (some (found.getD (p.contextFor provider))) (Polled.left r) base q := by
  obtain ⟨result, q', hsettled, hq⟩ := rest.settles provider h.carries
  rw [hon] at hsettled
  obtain ⟨rfl, rfl⟩ := Prod.mk.inj hsettled
  refine ⟨heldBy_left result ▸ hq, nofun, fun c rest' hc hrest => ?_⟩
  obtain rfl := Option.some.inj hc
  have hleft : Polled.left ((rest.poll s provider).on p).1 = some rest' := by rw [hon, hrest]
  cases found with
  | none =>
    obtain rfl := h.fresh rfl rest rfl
    exact Async.left_of_first_poll h.carries hleft
  | some c =>
    obtain ⟨inner, rfl⟩ := h.inside c rest rfl rfl
    exact Pending.hold_left Async.poll_done hleft

theorem Journey.underway (h₀ : Undisturbed s p₀)
    (h : Journey s provider (.tagged tags body give) p₀ found left base p) :
    Underway s tags body give found left base p := by
  induction h with
  | created => exact ⟨.of_undisturbed h₀, fun _ rest hrest => (Option.some.inj hrest).symm, nofun⟩
  | polled _ hon ih => exact ih.polled hon
  | givenUp _ hon ih =>
    obtain ⟨q, hdrop, hq⟩ := Pending.gives_up _ ih.carries
    rw [hon] at hdrop
    obtain ⟨-, rfl⟩ := Prod.mk.inj hdrop
    exact ⟨hq, fun _ => nofun, fun _ _ _ => nofun⟩
  | elsewhere _ hq htags ih => exact ⟨⟨hq, ih.carries.homes, htags⟩, ih.fresh, ih.inside⟩

structure Follows (s : StoreId) (provider : Provider) (tags : List Tag) (body : Async α)
    (give : Except TagError α → α) (found : Option ContextId) (left : Option (Pending α))
    (base : ContextId → Multiset Tag) (p : Program) : Prop where
  apart : found = none ∨ left = none → ∀ d, p.contextTags s d = base d
  /-- In between, its scope is on the context that was found at the first poll, and on no other. -/
  attached : ∀ c rest, found = some c → left = some rest → ∃ inner,
    rest = .inside ⟨s, c, tags⟩ inner (fun r => .done (give r)) ∧
    ∀ d, p.contextTags s d = base d + (if c = d then (tags : Multiset Tag) else 0) + openTags d inner.scopes
  seen : ∀ c, ∃ shown q, (snapshot s c).on p = (.ok shown, q) ∧
    (found = some c → left.isSome → (tags : Multiset Tag) ≤ shown)
  begins : found = none → ∀ rest, left = some rest → (∀ t ∈ tags, t.isValid = true) → ∃ q,
    (∀ d, q.contextTags s d = base d + if p.contextFor provider = d then (tags : Multiset Tag) else 0) ∧
    (rest.poll s provider).on p = (Pending.hold ⟨s, p.contextFor provider, tags⟩ (fun r => .done (give r))
      (fun r => (Async.done (give r)).poll s provider) (body.poll s provider)).on q
  moves : ∀ rest, left = some rest → (∃ r q, (rest.poll s provider).on p = (ending r, q)) ∧
    ∃ q, rest.drop.on p = (.ok (), q)

/-- Work inside a scope may be created in one task, polled first in another or outside any, and go on
anywhere with anything in between. Its tags are on the context that is found at its first poll, from this
poll until it is done or given up, and never on any other context. -/
theorem tags_follow_first_poll (h₀ : Undisturbed s p₀)
    (h : Journey s provider (.tagged tags body give) p₀ found left base p) :
    Follows s provider tags body give found left base p := by
  have hway := h.underway h₀
  have hattached : ∀ c rest, found = some c → left = some rest → ∃ inner,
      rest = .inside ⟨s, c, tags⟩ inner (fun r => .done (give r)) ∧ ∀ d, p.contextTags s d =
        base d + (if c = d then (tags : Multiset Tag) else 0) + openTags d inner.scopes := by
    rintro c rest hc rfl
    obtain ⟨inner, rfl⟩ := hway.inside c rest hc rfl
    exact ⟨inner, rfl, fun d => (Carries.cons_iff.1 hway.carries).2.tags d⟩
  refine ⟨?_, hattached, fun c => ?_, ?_, ?_⟩
  · rintro (hnone | rfl) d
    · cases left with
      | none => exact (hway.carries.tags d).trans (add_zero _)
      | some rest =>
        obtain rfl := hway.fresh hnone rest rfl
        exact (hway.carries.tags d).trans (add_zero _)
    · exact (hway.carries.tags d).trans (add_zero _)
  · obtain ⟨shown, q, hon, -, hshown⟩ := snapshot_unmoved hway.carries.undisturbed c
    refine ⟨shown, q, hon, fun hc hleft => le_trans ?_ hshown⟩
    obtain ⟨rest, hrest⟩ := Option.isSome_iff_exists.1 hleft
    obtain ⟨inner, -, htags⟩ := hattached c rest hc hrest
    rw [htags, if_pos rfl]
    exact (Multiset.le_add_left _ _).trans (Multiset.le_add_right _ _)
  · rintro hnone rest rfl hvalid
    obtain rfl := hway.fresh hnone rest rfl
    obtain ⟨q, hq, hon⟩ := Async.begins provider body give hway.carries hvalid
    exact ⟨q, fun d => ((Carries.cons_iff.1 hq).2.tags d).trans (add_zero _), hon⟩
  · rintro rest rfl
    obtain ⟨result, q, hon, -⟩ := rest.settles provider hway.carries
    obtain ⟨q', hdrop, -⟩ := rest.gives_up hway.carries
    exact ⟨⟨result, q, hon⟩, q', hdrop⟩

/-- Work is created in the first task and polled in the second. -/
theorem tags_follow_first_poll_elsewhere :
    Undisturbed 0 ((start 1 false).withTask (some ⟨1⟩)) ∧ ∃ p rest base,
    Journey 0 .task (.tagged [⟨"k", "v"⟩] (.wait (.done ())) fun _ => ()) ((start 1 false).withTask (some ⟨1⟩))
      (some ⟨2⟩) (some rest) base p ∧
    ((start 1 false).withTask (some ⟨1⟩)).contextFor .task = ⟨1⟩ ∧
    p.contextTags 0 ⟨1⟩ = 0 ∧ p.contextTags 0 ⟨2⟩ = {⟨"k", "v"⟩} := by
  have h₀ : Undisturbed 0 ((start 1 false).withTask (some ⟨1⟩)) := .inl rfl
  have hcreated : Journey 0 .task (.tagged [⟨"k", "v"⟩] (.wait (.done ())) fun _ => ())
      ((start 1 false).withTask (some ⟨1⟩)) none _ _ _ := .created
  have hmoved : Journey 0 .task _ _ none _ (fun _ => 0) ((start 1 false).withTask (some ⟨2⟩)) :=
    hcreated.elsewhere (.inl rfl) fun _ => rfl
  have hpolled := hmoved.polled rfl
  have hfollows := tags_follow_first_poll h₀ hpolled
  obtain ⟨inner, hinner, htags⟩ := hfollows.attached ⟨2⟩ _ rfl rfl
  cases hinner
  refine ⟨h₀, _, _, _, hpolled, rfl, ?_, ?_⟩
  · rw [htags, if_neg (by decide)]
    rfl
  · rw [htags, if_pos rfl]
    rfl

/-- Work is created in one task and polled in the next one. Then the tags are not on the context that was
current where it was created, but on the one that was current at the poll. Creating it does not look for a
context at all: a new thread that creates it and never polls it is given no id. -/
theorem tags_not_on_context_of_creation : (∃ q rest, (do
      let (context, work) ← asTask do
        pure (← currentContext .task,
          Pending.ahead (.tagged [⟨"k", "v"⟩] (.wait (.done ())) fun _ => ()))
      let (context', polled) ← asTask do pure (← currentContext .task, ← work.poll 0 .task)
      pure ((context, ← snapshot 0 context), (context', ← snapshot 0 context'), polled) : Act _).on
        (start 1 false) =
      (.ok ((⟨1⟩, []), (⟨2⟩, [⟨"k", "v"⟩]), .pending rest), q)) ∧
    ∃ q, (do
      let (polls, _, _) ← onThread
        ((ScopedRoutine.ofSegments 0 .thread [⟨"k", "v"⟩] [(pure () : Act Unit)]).pollUpTo 0)
      let context ← asTask (currentContext .task)
      pure (polls, context) : Act _).on (start 1 false) = (.ok (0, ⟨1⟩), q) :=
  ⟨⟨_, _, rfl⟩, _, rfl⟩

end ProfilingAgent
