import ProfilingAgent.Proofs.Routines

set_option autoImplicit false

namespace ProfilingAgent

open Act Program

namespace Program

variable {p q r : Program} {s : StoreId}

structure Unmoved (s : StoreId) (p q : Program) : Prop where
  undisturbed : Undisturbed s q
  tags : q.contextTags s = p.contextTags s

theorem Unmoved.refl (h : Undisturbed s p) : Unmoved s p p := ⟨h, rfl⟩

theorem Unmoved.trans (h : Unmoved s p q) (h' : Unmoved s q r) : Unmoved s p r :=
  ⟨h'.undisturbed, h'.tags.trans h.tags⟩

theorem Turned.unmoved (h : Turned p q) (hp : Undisturbed s p) : Unmoved s p q := by
  refine ⟨h.undisturbed hp, ?_⟩
  funext d
  unfold contextTags
  rw [(h.still (s := s)).2.2]

theorem Looked.unmoved (h : Looked s p q) : Unmoved s p q := by
  refine ⟨.inl h.aware, ?_⟩
  funext d
  unfold contextTags
  rw [h.contexts]

theorem currentContext_unmoved (hp : Undisturbed s p) (provider : Provider) :
    ∃ c q, (currentContext provider).on p = (.ok c, q) ∧ Unmoved s p q := by
  obtain ⟨c, q, hon, hturn, -⟩ := currentContext_turned (p := p) provider
  exact ⟨c, q, hon, hturn.unmoved hp⟩

theorem snapshot_unmoved (hp : Undisturbed s p) (c : ContextId) : ∃ seen q,
    (snapshot s c).on p = (.ok seen, q) ∧ Unmoved s p q ∧ p.contextTags s c ≤ seen := by
  obtain ⟨q, hq⟩ := hp.look
  have hyields : Yields (snapshot s c) q s _ _ := snapshot_yields hq.aware c
  obtain ⟨r, hon, hr⟩ := hyields
  have hlook : (snapshot s c).on p = (snapshot s c).on q := hq.use
  refine ⟨_, r, hlook.trans hon, hq.unmoved.trans ⟨.inl (hr.aware.2 hq.aware), ?_⟩, ?_⟩
  · funext d
    unfold contextTags
    rw [hr.tags]
  · unfold contextTags TagStore.snapshot
    rw [← hq.contexts, ← Multiset.coe_add]
    exact Multiset.le_add_left _ _

theorem enter_unmoved (hp : Undisturbed s p) (provider : Provider) {tags : List Tag}
    (h : ∃ t ∈ tags, t.isValid = false) :
    ∃ e q, (enter s provider tags).on p = (.ok (.error e), q) ∧ Unmoved s p q := by
  obtain ⟨e, p', q, hon, hturn, hlooked, -⟩ := enter_refuses hp provider h
  exact ⟨e, q, hon, (hturn.unmoved hp).trans hlooked.unmoved⟩

end Program

namespace Work

variable {α β : Type} {s : StoreId} {p q : Program}

def Leaves (s : StoreId) (w : Work α) : Prop :=
  ∀ p : Program, Undisturbed s p → ∃ r q, (w.run s).on p = (ending r, q) ∧ Unmoved s p q

theorem Leaves.after {x : Act β} {b : β} {next : β → Work α} (h : (next b).Leaves s)
    (hon : x.on p = (.ok b, q)) (hq : Unmoved s p q) :
    ∃ r q', (x >>= fun b => (next b).run s).on p = (ending r, q') ∧ Unmoved s p q' := by
  obtain ⟨r, q', hran, hq'⟩ := h q hq.undisturbed
  refine ⟨r, q', ?_, hq.trans hq'⟩
  rw [on_bind, hon]
  exact hran

/-- A scope that cannot be opened leaves nothing, and one that can is closed behind its body. -/
theorem Leaves.withTags {body : Work α} (h : body.Leaves s) (provider : Provider) (tags : List Tag)
    (hp : Undisturbed s p) : ∃ r q,
      (Program.withTags s provider tags (body.run s)).on p = (ending r, q) ∧ Unmoved s p q := by
  by_cases hvalid : ∀ t ∈ tags, t.isValid = true
  · obtain ⟨x, p', hentered, hx, htags, hp', hmore⟩ := enter_opens hp provider hvalid
    obtain ⟨r, q', hran, hq'⟩ := h p' (.inl hp'.aware)
    have hheld : (x.tags : Multiset Tag) ≤ q'.contextTags s x.context := by
      rw [hq'.tags, hmore, if_pos rfl, htags]
      exact Multiset.le_add_left _ _
    obtain ⟨q, hexited, hq, hless⟩ := exit_closes hq'.undisturbed hx hheld
    refine ⟨r.map .ok, q, ?_, .inl hq.aware, ?_⟩
    · have hclosed : (protect (body.run s) (exit x)).on p' = (ending r, q) := by
        rw [on_protect, hran]
        dsimp only
        rw [hexited]
      have hopened : (Program.withTags s provider tags (body.run s)).on p =
          (Except.ok <$> protect (body.run s) (exit x)).on p' := by
        unfold Program.withTags
        rw [on_bind]
        exact hentered ▸ rfl
      rw [hopened, on_map, hclosed]
      cases r <;> rfl
    · funext d
      rw [hless, hq'.tags, hmore, htags, Multiset.add_sub_cancel_right]
  · have hblank : ∃ t ∈ tags, t.isValid = false := by simpa using hvalid
    obtain ⟨e, q, hentered, hq⟩ := enter_unmoved hp provider hblank
    refine ⟨.ok (.error e), q, ?_, hq⟩
    unfold Program.withTags
    rw [on_bind]
    exact hentered ▸ rfl

theorem leaves (s : StoreId) (w : Work α) : w.Leaves s := by
  induction w with
  | done a => exact fun p hp => ⟨.ok a, p, rfl, .refl hp⟩
  | panic message => exact fun p hp => ⟨.error message, p, rfl, .refl hp⟩
  | current provider next ih =>
    intro p hp
    obtain ⟨c, q, hon, hq⟩ := currentContext_unmoved hp provider
    exact (ih c).after hon hq
  | look c next ih =>
    intro p hp
    obtain ⟨seen, q, hon, hq, -⟩ := snapshot_unmoved hp c
    exact (ih seen).after hon hq
  | within provider tags body next ihBody ihNext =>
    intro p hp
    obtain ⟨r, q, hon, hq⟩ := ihBody.withTags provider tags hp
    cases r with
    | ok a => exact (ihNext a).after hon hq
    | error message =>
      refine ⟨.error message, q, ?_, hq⟩
      unfold run
      rw [on_bind, hon]
      rfl
  | caught body next ihBody ihNext =>
    intro p hp
    obtain ⟨r, q, hon, hq⟩ := ihBody p hp
    exact (ihNext r).after (catching_on hon) hq

end Work

variable {α : Type} {s : StoreId} {p q : Program} {provider : Provider} {held : List Scope} {x : Scope}
  {base : ContextId → Multiset Tag}

def Pending.scopes : Pending α → List Scope
  | ahead _ => []
  | inside x body _ => x :: body.scopes

def Polled.scopes : Except String (Polled α) → List Scope
  | .ok (.pending rest) => rest.scopes
  | _ => []

def joined (c : ContextId) (tags : List Tag) (base : ContextId → Multiset Tag) : ContextId → Multiset Tag :=
  fun d => base d + if c = d then (tags : Multiset Tag) else 0

namespace Program

/-- Contexts have these tags, and those of scopes that are held. -/
structure Carries (s : StoreId) (base : ContextId → Multiset Tag) (held : List Scope) (p : Program) :
    Prop where
  undisturbed : Undisturbed s p
  homes : ∀ x ∈ held, x.store = s
  tags : ∀ d, p.contextTags s d = base d + openTags d held

namespace Carries

theorem of_undisturbed (h : Undisturbed s p) : Carries s (p.contextTags s) [] p :=
  ⟨h, nofun, fun _ => (add_zero _).symm⟩

theorem unmoved (h : Carries s base held p) (hq : Unmoved s p q) : Carries s base held q :=
  ⟨hq.undisturbed, h.homes, fun d => by rw [hq.tags, h.tags]⟩

theorem cons_iff : Carries s base (x :: held) p ↔
    x.store = s ∧ Carries s (joined x.context x.tags base) held p := by
  have htags : ∀ d, base d + openTags d (x :: held) =
      joined x.context x.tags base d + openTags d held := fun d => (add_assoc _ _ _).symm
  constructor
  · intro h
    exact ⟨h.homes x List.mem_cons_self, h.undisturbed, fun y hy => h.homes y (List.mem_cons_of_mem x hy),
      fun d => (h.tags d).trans (htags d)⟩
  · rintro ⟨hx, h⟩
    refine ⟨h.undisturbed, fun y hy => ?_, fun d => (h.tags d).trans (htags d).symm⟩
    rcases List.mem_cons.1 hy with rfl | hy
    · exact hx
    · exact h.homes y hy

theorem enter (h : Carries s base [] p) (provider : Provider) {tags : List Tag}
    (hvalid : ∀ t ∈ tags, t.isValid = true) : ∃ q,
      (Program.enter s provider tags).on p = (.ok (.ok ⟨s, p.contextFor provider, tags⟩), q) ∧
      Carries s base [⟨s, p.contextFor provider, tags⟩] q := by
  obtain ⟨x, q, hon, hstore, rfl, hq, htags⟩ := enter_opens h.undisturbed provider hvalid
  obtain ⟨p', hc, -⟩ := currentContext_on p provider
  have hx : x = ⟨s, p.contextFor provider, x.tags⟩ := by
    unfold Program.enter enterContext at hon
    rw [on_bind, hc] at hon
    dsimp only at hon
    rw [on_bind] at hon
    rcases hadd : (addTags s (p.contextFor provider) x.tags).on p' with ⟨e | e | u, q'⟩
    all_goals
      rw [hadd] at hon
      have hresult := congrArg Prod.fst hon
    · cases hresult
    · cases hresult
    · exact (Except.ok.inj (Except.ok.inj hresult)).symm
  rw [← hx]
  refine ⟨q, hon, cons_iff.2 ⟨hstore, .inl hq.aware, nofun, fun d => ?_⟩⟩
  have hnone : p.contextTags s d = base d := (h.tags d).trans (add_zero _)
  rw [htags, hnone]
  exact (add_zero _).symm

theorem exit (h : Carries s base [x] p) :
    ∃ q, (Program.exit x).on p = (.ok (), q) ∧ Carries s base [] q := by
  obtain ⟨hx, hcarries⟩ := cons_iff.1 h
  have htags : ∀ d, p.contextTags s d = base d + if x.context = d then (x.tags : Multiset Tag) else 0 :=
    fun d => (hcarries.tags d).trans (add_zero _)
  have hheld : (x.tags : Multiset Tag) ≤ p.contextTags s x.context := by
    rw [htags, if_pos rfl]
    exact Multiset.le_add_left _ _
  obtain ⟨q, hon, hq, hless⟩ := exit_closes h.undisturbed hx hheld
  refine ⟨q, hon, .inl hq.aware, nofun, fun d => ?_⟩
  rw [hless, htags, Multiset.add_sub_cancel_right]
  exact (add_zero _).symm

end Carries

def EndsHolding (x : Act (Polled α)) (p : Program) (s : StoreId) (base : ContextId → Multiset Tag) : Prop :=
  ∃ result q, x.on p = (ending result, q) ∧ Carries s base (Polled.scopes result) q

theorem EndsHolding.after {x y : Act (Polled α)} (h : EndsHolding y q s base) (hon : x.on p = y.on q) :
    EndsHolding x p s base := by
  obtain ⟨result, r, hran, hr⟩ := h
  exact ⟨result, r, hon.trans hran, hr⟩

theorem EndsHolding.hold {next : Except TagError α → Async α} {after : Except TagError α → Act (Polled α)}
    {body : Act (Polled α)} (hx : x.store = s)
    (hbody : EndsHolding body p s (joined x.context x.tags base))
    (hafter : ∀ r q, Carries s base [] q → EndsHolding (after r) q s base) :
    EndsHolding (Pending.hold x next after body) p s base := by
  obtain ⟨result, q, hran, hq⟩ := hbody
  have hclose : Polled.scopes result = [] →
      ∃ r, (Program.exit x).on q = (.ok (), r) ∧ Carries s base [] r := by
    intro hnone
    rw [hnone] at hq
    exact (Carries.cons_iff.2 ⟨hx, hq⟩).exit
  have hheld := Pending.hold_on x next after body p
  rw [hran] at hheld
  match result with
  | .error message =>
    obtain ⟨r, hexit, hr⟩ := hclose rfl
    refine ⟨.error message, r, hheld.trans ?_, hr⟩
    dsimp only [ending]
    rw [on_bind, hexit]
    rfl
  | .ok (.ready a) =>
    obtain ⟨r, hexit, hr⟩ := hclose rfl
    refine (hafter (.ok a) r hr).after (hheld.trans ?_)
    dsimp only [ending]
    rw [on_bind, hexit]
  | .ok (.pending rest) => exact ⟨.ok (.pending (.inside x rest next)), q, hheld, Carries.cons_iff.2 ⟨hx, hq⟩⟩

end Program

theorem Async.settles (s : StoreId) (provider : Provider) (x : Async α) :
    ∀ p base, Carries s base [] p → EndsHolding (x.poll s provider) p s base := by
  induction x with
  | done a => exact fun p base hp => ⟨.ok (.ready a), p, rfl, hp⟩
  | wait next => exact fun p base hp => ⟨.ok (.pending (.ahead next)), p, rfl, hp⟩
  | segment w next ih =>
    intro p base hp
    obtain ⟨r, q, hon, hq⟩ := w.leaves s p hp.undisturbed
    cases r with
    | ok a =>
      refine (ih a q base (hp.unmoved hq)).after ?_
      rw [poll, on_bind, hon]
      rfl
    | error message =>
      refine ⟨.error message, q, ?_, hp.unmoved hq⟩
      rw [poll, on_bind, hon]
      rfl
  | within tags body next ihBody ihNext =>
    intro p base hp
    by_cases hvalid : ∀ t ∈ tags, t.isValid = true
    · obtain ⟨q, hon, hq⟩ := hp.enter provider hvalid
      have hbody := ihBody q _ (Carries.cons_iff.1 hq).2
      have hheld : EndsHolding (Pending.hold ⟨s, p.contextFor provider, tags⟩ next
          (fun r => (next r).poll s provider) (body.poll s provider)) q s base :=
        .hold rfl hbody fun r q' hq' => ihNext r q' base hq'
      refine hheld.after ?_
      rw [poll, on_bind, hon]
      rfl
    · have hblank : ∃ t ∈ tags, t.isValid = false := by simpa using hvalid
      obtain ⟨e, q, hon, hq⟩ := enter_unmoved hp.undisturbed provider hblank
      refine (ihNext (.error e) q base (hp.unmoved hq)).after ?_
      rw [poll, on_bind, hon]
      rfl

/-- Wherever work goes on, it changes contexts by the scopes that it holds and by nothing else. -/
theorem Pending.settles (rest : Pending α) (provider : Provider) (hp : Carries s base rest.scopes p) :
    EndsHolding (rest.poll s provider) p s base := by
  induction rest generalizing base with
  | ahead x => exact x.settles s provider p base hp
  | inside x body next ih =>
    obtain ⟨hx, hbody⟩ := Carries.cons_iff.1 hp
    exact EndsHolding.hold hx (ih hbody) fun r q hq => (next r).settles s provider q base hq

theorem Pending.gives_up (rest : Pending α) (hp : Carries s base rest.scopes p) :
    ∃ q, rest.drop.on p = (.ok (), q) ∧ Carries s base [] q := by
  induction rest generalizing base with
  | ahead x => exact ⟨p, rfl, hp⟩
  | inside x body next ih =>
    obtain ⟨hx, hbody⟩ := Carries.cons_iff.1 hp
    obtain ⟨q, hdrop, hq⟩ := ih hbody
    obtain ⟨r, hexit, hr⟩ := (Carries.cons_iff.2 ⟨hx, hq⟩).exit
    refine ⟨r, ?_, hr⟩
    unfold drop
    rw [on_protect, hdrop]
    dsimp only
    rw [hexit]

end ProfilingAgent
